import VaultAccess.Model.Endpoint
import VaultAccess.Model.History

/-!
# The answers that carry a history

`response_frame` of `src/adapters/human_socket.rs` and `Response::history` of
`src/adapters/companion.rs`: the documents in which the events of a history are sent to the
owner and to a companion.
-/

set_option autoImplicit false

namespace VaultAccess.Model

open VaultAccess.Library VaultAccess.Library.Text

/-! ## The owner's socket -/

/-- SRCLINE: human_socket.rs:37 -/
def MAX_FRAME : ℕ := 2 * 1024 * 1024

/-- `HumanResponse::History`.
SRCLINE: human_socket.rs:64-96 -/
def humanHistory (events : List HistoryEvent) : Json :=
  .obj [("result", .str "history"), ("events", .arr (events.map HistoryEvent.toJson))]

/-- SRCLINE: human_socket.rs:574-580 -/
def responseFrame (response : Json) : List UInt8 :=
  let frame := response.toVec
  if frame.length ≤ MAX_FRAME then frame else bytes "\x7b\"result\":\"unavailable\"\x7d"

/-! ## The companion's endpoint -/

/-- The members of a JSON value are sorted by name.
SRCLINE: companion.rs:1002-1010 -/
def HistoryEvent.display (e : HistoryEvent) : Json :=
  .obj [("at_unix_seconds", match e.atUnixSeconds with | some t => Json.nat t | none => .null),
    ("operation", .str e.operation), ("ordinal", Json.nat e.ordinal), ("outcome", e.outcome.toJson),
    ("request_id", .str e.requestId)]

/-- SRCLINE: companion.rs:1018-1041 -/
def Endpoint.history (events : List HistoryEvent) : Except Endpoint.Error Json :=
  if MAX_HISTORY_LIMIT.toNat < events.length then .error .unavailable
  else Endpoint.respond (.obj [("events", .arr (events.map HistoryEvent.display)),
    ("history_version", .int 1), ("version", .int 1)])

end VaultAccess.Model
