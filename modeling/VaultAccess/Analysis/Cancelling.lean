import VaultAccess.Analysis.Agents

/-!
# `cancel_execution` settles its request

Whether it finds the execution at the first look, at the second one under the gate, or not
at all: when it returns `Ok`, the request is claimed and cancelled, or it expired.
-/

set_option autoImplicit false

namespace VaultAccess.Analysis

open VaultAccess.Library VaultAccess.Model VaultAccess.Model.Application

section Cancelling

variable {T : Thread} {ε α : Type} {H : List Lock} {F R : Shared → Prop}

/-- The first look, if it counts, found no execution. -/
def Looked (t : ℕ) (id : String) (first : Option ℕ) (m : Shared) : Prop :=
  ∀ n, first = some n → m.log[n]? = some (t, Mark.looked id false)

theorem lasts_looked (id : String) (first : Option ℕ) : T.Lasts (Looked T.number id first) :=
  fun _ _ hgrows _ hm n hn => hgrows.getElem (hm n hn)

theorem lasts_cancelled (id : String) (first : Option ℕ) :
    T.Lasts fun m => Cancelled m T.number id first := fun _ _ hgrows _ hm => hm.grows hgrows

/-- The execution that was found, and that it was registered after the first look. -/
def Found (t : ℕ) (id : String) (first : Option ℕ) (e : ActiveExecution) (m : Shared) : Prop :=
  Claimed id m.authority.store ∧ Flag e.cancel m ∧ ∀ n, first = some n →
    m.log[n]? = some (t, Mark.looked id false) ∧ ∃ (k u : ℕ) (token deadline : Option ℕ), n < k ∧
      m.log[k]? = some (u, Mark.registered id e.cancel token deadline)

/-- INTERNAL: what was found stays so. -/
theorem lasts_found (id : String) (first : Option ℕ) (e : ActiveExecution) :
    T.Lasts (Found T.number id first e) := by
  rintro m m₁ hgrows hinv ⟨hclaimed, hflag, hfirst⟩
  refine ⟨hclaimed.grows hgrows.store, lasts_flag (T := T) e.cancel m m₁ hgrows hinv hflag,
    fun n hn => ?_⟩
  obtain ⟨hlooked, k, u, token, deadline, hk, hregistered⟩ := hfirst n hn
  exact ⟨hgrows.getElem hlooked, k, u, token, deadline, hk, hgrows.getElem hregistered⟩

/-- INTERNAL: **the execution is cancelled if it is found.** -/
theorem does_cancelActive (id : String) (first : Option ℕ) (hF : T.Lasts F)
    (hrelease : .releaseGate ∈ H) :
    Does T H (fun m => F m ∧ Looked T.number id first m)
      (cancelActive id : App ε (Bool × ℕ))
      (fun found m => F m ∧ (found.1 = true → Cancelled m T.number id first) ∧
        (found.1 = false → Looked T.number id (some found.2) m)) F := by
  have hs := hF.stable
  have hbefore := hF.and (lasts_looked (T := T) id first)
  have hafter : ∀ answer : Option ActiveExecution × ℕ, T.Lasts fun m => F m ∧
      (∀ e, answer.1 = some e → Found T.number id first e m) ∧
      (answer.1 = none → Looked T.number id (some answer.2) m) := by
    intro answer m m₁ hgrows hinv hm
    exact ⟨hF m m₁ hgrows hinv hm.1, fun e he => lasts_found id first e m m₁ hgrows hinv (hm.2.1 e he),
      fun hnone => lasts_looked id (some answer.2) m m₁ hgrows hinv (hm.2.2 hnone)⟩
  refine does_bind (G := fun answer m => F m ∧
      (∀ e, answer.1 = some e → Found T.number id first e m) ∧
      (answer.1 = none → Looked T.number id (some answer.2) m)) hs
    (does_act trivial hbefore.stable (fun answer => (hafter answer).stable)
      (fun _ _ _ => trivial) ?_) fun answer => ?_
  · intro m input answer m₁ hinv hm hperform hinv₁ hgrows
    have hfact := hF m m₁ hgrows hinv₁ hm.fact.1
    have hlooked := lasts_looked (T := T) id first m m₁ hgrows hinv₁ hm.fact.2
    obtain ⟨hanswer, rfl⟩ := Prod.mk.inj (Option.some.inj hperform)
    refine ⟨hfact, fun e he => ?_, fun hnone n hn => ?_⟩
    · rw [← hanswer] at he
      have hmem := mem_of_lookupKey he
      obtain ⟨hclaimed, hcancel⟩ := hinv.executions id e hmem
      refine ⟨hclaimed, hcancel, fun n hn => ⟨hlooked n hn, ?_⟩⟩
      obtain ⟨k, u, token, deadline, hk, hregistered⟩ :=
        hinv.looked n T.number id e (hm.fact.2 n hn) hmem
      exact ⟨k, u, token, deadline, hk, hgrows.getElem hregistered⟩
    · rw [← Option.some.inj hn, ← hanswer]
      rw [← hanswer] at hnone
      simp only at hnone
      simp [Shared.note, hnone]
  obtain ⟨found, position⟩ := answer
  cases found with
  | none =>
    exact does_pure (hafter (none, position)).stable fun _ _ hm =>
      ⟨hm.1, by simp, fun _ => hm.2.2 rfl⟩
  | some e =>
    have hend : T.Lasts fun m => F m ∧ Cancelled m T.number id first :=
      hF.and (lasts_cancelled id first)
    refine does_bind (G := fun _ m => F m ∧ Cancelled m T.number id first) hs
      (does_act trivial (hafter (some e, position)).stable (fun _ => hend.stable) (fun m _ hm =>
        ⟨Or.inr (hm.locks .releaseGate hrelease), (hm.fact.2.1 e rfl).2.1⟩) ?_)
      fun _ => does_pure hend.stable fun _ _ hm => ⟨hm.1, fun _ => hm.2, by simp⟩
    intro m input answer m₁ hinv hm hperform hinv₁ hgrows
    have hfound := lasts_found id first e m m₁ hgrows hinv₁ (hm.fact.2.1 e rfl)
    have hfact := hF m m₁ hgrows hinv₁ hm.fact.1
    have hflag := flag_set m e.cancel e.cancel (hm.fact.2.1 e rfl).2.1
    obtain ⟨-, rfl⟩ := Prod.mk.inj (Option.some.inj hperform)
    refine ⟨hfact, Or.inl hfound.1, fun n hn => ?_⟩
    obtain ⟨hlooked, k, u, token, deadline, hk, hregistered⟩ := hfound.2.2 n hn
    refine ⟨hlooked, Or.inl ⟨k, u, e.cancel, token, deadline, hk, hregistered, ?_⟩⟩
    simp only [decide_true, Bool.true_or] at hflag
    exact hflag

/-- INTERNAL: **the second check, under the gate.** -/
theorem does_cancelUnderGate (owner : UInt32) (id : String) (n : ℕ) (hF : T.Lasts F)
    (hgate : .gate ∈ H) (hrelease : .releaseGate ∉ H) (hl : .executions ∉ H)
    (hfresh : ∀ m, F m → Fresh T.number m) (hlooked : ∀ m, F m → Looked T.number id (some n) m) :
    Does T H F (cancelUnderGate owner id)
      (fun result m => F m ∧ (result = .ok () → Cancelled m T.number id (some n))) F := by
  have hs := hF.stable
  have hend : ∀ result : Except DirectRequestError Unit, T.Lasts fun m => F m ∧
      (result = .ok () → Cancelled m T.number id (some n)) := fun result m m₁ hgrows hinv hm =>
    ⟨hF m m₁ hgrows hinv hm.1, fun hok => (hm.2 hok).grows hgrows⟩
  refine does_withLock hrelease hs (fun result => (hend result).stable) hs (hF.kept _)
    (fun result => (hend result).kept _) (hF.kept _) (fun _ _ hm => hm) ?_
  refine does_withLock (by simp [hl]) hs (fun result => (hend result).stable) hs (hF.kept _)
    (fun result => (hend result).kept _) (hF.kept _) (fun _ _ hm => hm) ?_
  refine does_bind hs (does_conseq (does_cancelActive id (some n) hF (by simp))
    (fun m _ hm => ⟨hm, hlooked m hm⟩) (fun _ _ _ hm => hm) fun _ _ hm => hm) fun found => ?_
  have hfound : T.Stable fun m => F m ∧ (found.1 = true → Cancelled m T.number id (some n)) ∧
      (found.1 = false → Looked T.number id (some found.2) m) := fun m m₁ hrely hinv hm =>
    ⟨hs m m₁ hrely hinv hm.1, fun h => (hm.2.1 h).grows hrely.toGrows, fun h =>
      (lasts_looked id _).stable m m₁ hrely hinv (hm.2.2 h)⟩
  obtain ⟨found, position⟩ := found
  cases found with
  | true => exact does_pure hfound fun _ _ hm => ⟨hm.1, fun _ => hm.2.1 rfl⟩
  | false =>
    refine does_conseq (does_operation (P := fun _ m => Expired id m.authority.store) hF
      (fun _ m m₁ hrely _ hm => hm.grows hrely.toGrows.store) (fun m _ hm =>
        good_operation (hm.locks .gate (by simp [hgate])) (hfresh m hm.fact) rfl)
      fun m input _ _ _ hok => cancelUnclaimedExecution_call m.authority.store owner id
        input.env input.outcome input.unreadable hok)
      (fun _ _ hm => hm.1) (fun result m _ hm => ⟨hm.1, fun hok => ?_⟩) fun _ _ hm => hm
    have hexpired := hm.2 () hok
    exact ⟨Or.inr hexpired, fun n' hn => ⟨hlooked m hm.1 n' hn, Or.inr hexpired⟩⟩

/-- INTERNAL: **`cancel_execution`.** -/
theorem does_cancelExecution (ownerUid owner : UInt32) (id : String) (hF : T.Lasts F)
    (hfresh : ∀ m, F m → Fresh T.number m) :
    Does T [] F (cancelExecution ownerUid owner id)
      (fun first m => F m ∧ Cancelled m T.number id first) F := by
  have hs := hF.stable
  have hend := fun first => hF.and (lasts_cancelled (T := T) id first)
  have hwait : ∀ first, Does T [] (fun m => F m ∧ Cancelled m T.number id first) (do
      (awaitCleanup (some [id])).adapt .ofSession
      pure first : App DirectRequestError (Option ℕ))
      (fun first m => F m ∧ Cancelled m T.number id first) F := by
    intro first
    refine does_bind hs (does_of_orderly (orderly_adapt _ (hend first).stable
      (orderly_awaitCleanup _ (hend first) (by simp) (by simp))) fun _ hm => hm.1) fun _ => ?_
    exact does_pure (hend first).stable fun _ _ hm => hm
  refine does_bind hs (orderly_checkOwner ownerUid owner hs) fun _ => ?_
  have hfound : ∀ found : Bool × ℕ, T.Lasts fun m => F m ∧
      (found.1 = true → Cancelled m T.number id none) ∧
      (found.1 = false → Looked T.number id (some found.2) m) := fun found m m₁ hgrows hinv hm =>
    ⟨hF m m₁ hgrows hinv hm.1, fun h => (hm.2.1 h).grows hgrows, fun h =>
      lasts_looked id _ m m₁ hgrows hinv (hm.2.2 h)⟩
  refine does_bind hs (does_withLock (by simp) hs (fun found => (hfound found).stable) hs (hF.kept _)
    (fun found => (hfound found).kept _) (hF.kept _) (fun _ _ hm => hm) (does_withLock (by simp) hs
      (fun found => (hfound found).stable) hs (hF.kept _) (fun found => (hfound found).kept _)
      (hF.kept _) (fun _ _ hm => hm) (does_conseq (does_cancelActive id none hF (by simp))
        (fun _ _ hm => ⟨hm, fun n hn => by simp at hn⟩) (fun _ _ _ hm => hm) fun _ _ hm => hm)))
    fun found => ?_
  obtain ⟨found, position⟩ := found
  cases found with
  | true =>
    exact does_conseq (hwait none) (fun _ _ hm => ⟨hm.1, hm.2.1 rfl⟩) (fun _ _ _ hm => hm)
      fun _ _ hm => hm
  | false =>
    have hlooked := hF.and (lasts_looked (T := T) id (some position))
    refine does_conseq (F := fun m => F m ∧ Looked T.number id (some position) m) (R := F) ?_
      (fun _ _ hm => ⟨hm.1, hm.2.2 rfl⟩) (fun _ _ _ hm => hm) fun _ _ hm => hm
    have hunder : ∀ result : Except DirectRequestError Unit, T.Lasts fun m =>
        (F m ∧ Looked T.number id (some position) m) ∧
        (result = .ok () → Cancelled m T.number id (some position)) :=
      fun result m m₁ hgrows hinv hm => ⟨hlooked m m₁ hgrows hinv hm.1, fun h => (hm.2 h).grows hgrows⟩
    refine does_bind hs (does_conseq (R := fun m => F m ∧ Looked T.number id (some position) m)
      (does_withLock (by simp) hlooked.stable (fun result => (hunder result).stable) hlooked.stable
        (hlooked.kept _) (fun result => (hunder result).kept _) (hlooked.kept _) (fun _ _ hm => hm)
        (does_cancelUnderGate owner id position hlooked (by simp) (by simp) (by simp)
          (fun m hm => hfresh m hm.1) fun _ hm => hm.2))
      (fun _ _ hm => hm) (fun _ _ _ hm => hm) fun _ _ hm => hm.1) fun result => ?_
    have hrest : Does T [] (fun m => (F m ∧ Looked T.number id (some position) m) ∧
        (result = .ok () → Cancelled m T.number id (some position))) (do
          raise result
          (awaitCleanup (some [id])).adapt .ofSession
          pure (some position) : App DirectRequestError (Option ℕ))
        (fun first m => F m ∧ Cancelled m T.number id first) F := by
      refine does_bind (G := fun _ m => F m ∧ Cancelled m T.number id (some position)) hs
        (does_ofExcept _ (hunder result).stable (fun _ hok _ _ hm => ⟨hm.1.1, hm.2 hok⟩)
          fun _ _ hm => hm.1.1) fun _ => hwait (some position)
    refine (?_ : Does T [] _ (if isUnavailable result = true then _ else _) _ _)
    split_ifs
    · exact does_bind hs (does_of_orderly (orderly_closeAdmission (hunder result) (by simp))
        fun _ hm => hm.1.1) fun _ => hrest
    · exact hrest

end Cancelling

end VaultAccess.Analysis
