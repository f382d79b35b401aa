import Mathlib.Data.Prod.Lex
import Mathlib.Order.WithBot
import VaultAccess.Library.Search
import VaultAccess.Model.Provider

/-!
# The newest events

`limit` and `newest` of `src/access/history.rs`, and the selection of `Provider::history`:
the events of the requests a human may see, newest first.
-/

set_option autoImplicit false

namespace VaultAccess.Model

open VaultAccess.Library

def DEFAULT_HISTORY_LIMIT : UInt32 := 50
def MAX_HISTORY_LIMIT : UInt32 := 200

/-- SRCLINE: history.rs:279-286 -/
def historyLimit (value : Option UInt32) : Except DirectRequestError ℕ :=
  let limit := value.getD DEFAULT_HISTORY_LIMIT
  if 1 ≤ limit ∧ limit ≤ MAX_HISTORY_LIMIT then .ok limit.toNat else .error .invalidRequest

/-- Times, request ids and ordinals in descending order; a missing time is the least. -/
abbrev RecentKey := (Lex (WithBot ℕ × Lex (String × ℕ)))ᵒᵈ

def HistoryEvent.recentKey (e : HistoryEvent) : RecentKey :=
  let time : WithBot ℕ := match e.atUnixSeconds with
    | none => ⊥
    | some seconds => seconds
  OrderDual.toDual (toLex (time, toLex (e.requestId, e.ordinal)))

/-- SRCLINE: history.rs:287-297 -/
def newest (events : List HistoryEvent) (limit : ℕ) : List HistoryEvent :=
  (sortByKey HistoryEvent.recentKey events).take limit

/-- The audit events of every request the human may see.
SRCLINE: provider.rs:432-439 -/
def ProviderState.visibleEvents (s : ProviderState) (ownerUid human : UInt32) : List HistoryEvent :=
  ((s.requests.filterMap (·.direct)).filter fun d => d.humanVisible human ownerUid).flatMap (·.audit)

/-- SRCLINE: provider.rs:419-455 -/
def ProviderState.history (s : ProviderState) (ownerUid human : UInt32) (limit : Option UInt32) :
    Except DirectRequestError (List HistoryEvent) := do
  if human ≠ ownerUid then .error .unauthorized
  let limit ← historyLimit limit
  let recent := (s.visibleEvents ownerUid human).foldl (Search.keep HistoryEvent.recentKey limit) []
  return newest recent limit

end VaultAccess.Model
