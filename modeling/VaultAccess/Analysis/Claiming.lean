import VaultAccess.Analysis.Execution

/-!
# From the claim to the end of an execution

The claim, its registration, the hand-over of the secrets and the write of a produced
secret, each where it may be performed.
-/

set_option autoImplicit false

namespace VaultAccess.Analysis

open VaultAccess.Library VaultAccess.Model VaultAccess.Model.Application

section Claiming

variable {T : Thread} {ε α : Type} {H : List Lock} {F R : Shared → Prop}

/-! ## The entry -/

/-- INTERNAL: an epoch that is captured. -/
theorem does_capture (hF : T.Lasts F) (hown : ∀ m, F m → Own T.number m) :
    Does T H F (act .loadEpoch : App ε ℕ) (fun epoch m => F m ∧ Captured T.number epoch m) F := by
  refine does_act trivial hF.stable (fun epoch => (hF.and (lasts_captured epoch)).stable)
    (fun _ _ _ => trivial) ?_
  intro m input epoch m₁ hinv hm hperform hinv₁ hgrows
  obtain ⟨hepoch, rfl⟩ := Prod.mk.inj (Option.some.inj hperform)
  rw [← hepoch]
  refine ⟨hm.fact, hown m hm.fact, Nat.le_refl _, fun hlate => ?_⟩
  obtain ⟨before, u, published, after, hlog, hno, -⟩ := hlate
  exact hinv.revoked before u published after hlog hno

/-- INTERNAL: what is known at the entry stays known. -/
theorem stable_entered (epoch : ℕ) : T.Stable (Entered T.number epoch) := by
  have hshut : T.Stable fun m => Holds T.number .gate m ∧ Shut m := by
    intro m m₁ hrely hinv hm
    refine ⟨(hrely.holder .gate).mpr hm.1, ?_⟩
    rcases hm.2 with hclosing | hover
    · exact Or.inl (hrely.closing hclosing)
    · exact Or.inr (steady_over.stable m m₁ hrely hinv ⟨hm.1, hover⟩).2
  intro m m₁ hrely hinv hm
  rcases hm with htimely | hpassed | hshut'
  · exact Or.inl (lasts_timely.stable m m₁ hrely hinv htimely)
  · exact Or.inr (Or.inl ((lasts_passed epoch).stable m m₁ hrely hinv hpassed))
  · exact Or.inr (Or.inr (hshut m m₁ hrely hinv hshut'))

/-- INTERNAL: **who gets the gate with a captured epoch is in time, or will be refused.** -/
theorem entered_of_acquire {epoch : ℕ} {input : Input} {m m₁ : Shared} (hinv₁ : Inv T.E m₁)
    (hgrows : Grows m m₁) (hm : Captured T.number epoch m)
    (hperform : performAct T.E T.ownerUid T.number (.acquire .gate (some epoch)) input m =
      some (true, m₁)) : Entered T.number epoch m₁ := by
  have hcaptured := lasts_captured (T := T) epoch m m₁ hgrows hinv₁ hm
  simp only [performAct] at hperform
  split_ifs at hperform with hpoisoned hfree
  · simp at hperform
  obtain ⟨-, rfl⟩ := Prod.mk.inj (Option.some.inj hperform)
  by_cases htimely : Timely T.number ({ m.take T.number .gate with
      log := m.log ++ (m.entry (some epoch)).map (T.number, ·) })
  · exact Or.inl htimely
  · right
    -- the call is late and found no window, so the session is shut or the epoch is passed
    unfold Timely InTime at htimely
    push Not at htimely
    obtain ⟨hwindow, hlate⟩ := htimely hcaptured.1
    have hsession := hcaptured.2.2 hlate
    have hmark := hwindow (T.number, .entered epoch m.revocationEpoch m.authority.sessionEpoch
      m.admitted?) (by simp [Shared.entry])
    simp only [inWindow, Bool.and_eq_false_iff, decide_eq_false_iff_not] at hmark
    rcases hmark with (hclosed | hne) | heq
    · right
      refine ⟨by simp [Holds, Shared.take], ?_⟩
      simp only [Shared.admitted?, Bool.and_eq_false_iff, Bool.not_eq_false'] at hclosed
      rcases hclosed with (hclosing | hfailed) | hpassed
      · exact Or.inl hclosing
      · exact Or.inr (Or.inl hfailed)
      · refine Or.inr (Or.inr fun d hd => ?_)
        have hdeadline : m.authority.deadline = some d := hd
        rw [hdeadline] at hpassed
        simpa [Shared.take] using hpassed
    · left
      exact lt_of_le_of_ne hm.2.1 hne
    · exact absurd hsession (by simp only [Shared.take] at hsession ⊢; omega)

/-! ## The claim -/

/-- The authority that was read under the gate is still so, but for its store. -/
def Read (t : ℕ) (authority : Authority) (m : Shared) : Prop :=
  Holds t .gate m ∧ ∃ store, m.authority = { authority with store := store }

theorem steady_read (authority : Authority) : T.Steady (Read T.number authority) :=
  steady_gate (P := fun a _ _ => ∃ store, a = { authority with store := store })

/-- What `run_execution` read under the gate is still so, and this is the token of the request. -/
def Drawn (t : ℕ) (authority : Authority) (id : String) (token : Option ℕ) (m : Shared) : Prop :=
  Holds t .gate m ∧ (∃ store, m.authority = { authority with store := store }) ∧
    token = (authority.requestAgents id).bind (lookupKey m.agentTokens)

theorem steady_drawn (authority : Authority) (id : String) (token : Option ℕ) :
    T.Steady (Drawn T.number authority id token) :=
  steady_gate (P := fun a tokens _ => (∃ store, a = { authority with store := store }) ∧
    token = (authority.requestAgents id).bind (lookupKey tokens))

/-- The execution is registered, with its flag, its token and its deadline. -/
def Registered (t : ℕ) (id : String) (cell : ℕ) (token : Option ℕ) (deadline : ℕ) (m : Shared) : Prop :=
  (t, Mark.registered id cell token (some deadline)) ∈ m.log

theorem lasts_registered (id : String) (cell : ℕ) (token : Option ℕ) (deadline : ℕ) :
    T.Lasts (Registered T.number id cell token deadline) := lasts_mark _

theorem good_claim {owner : UInt32} {id : String} {m : Shared} (hgate : Holds T.number .gate m)
    (hfresh : Fresh T.number m) (htimely : Timely T.number m) :
    Good T.number (.provider (.claimExecution owner id)) m :=
  ⟨hgate, fun _ => htimely.2, fun call hcall => absurd hcall (hfresh.2 call)⟩

/-- INTERNAL: **the claim and its registration.** -/
theorem does_claimAndRegister (owner : UInt32) (id : String) (authority : Authority)
    (token : Option ℕ) (deadline sessionDeadline : ℕ) (hF : T.Lasts F) (hgate : .gate ∈ H)
    (hl : .executions ∉ H) (hfresh : ∀ m, F m → Fresh T.number m)
    (htimely : ∀ m, F m → Timely T.number m)
    (hdeadline : authority.requestDeadlines id = some deadline)
    (hsession : authority.deadline = some sessionDeadline) :
    Does T H (fun m => F m ∧ Drawn T.number authority id token m)
      (claimAndRegister owner id (authority.requestAgents id) token)
      (fun found m => F m ∧ found.1.requestId = id ∧
        Registered T.number id found.2 token (min deadline sessionDeadline) m) F := by
  have hs := hF.stable
  have hdrawn := hF.steady.and (steady_drawn (T := T) authority id token)
  refine does_bind hs (does_of_orderly (orderly_tokenLive token hdrawn) fun _ hm => hm.1)
    fun live => ?_
  refine does_guard hdrawn.stable (fun _ _ _ hm => hm.1) hs fun _ => ?_
  -- the claim
  have hclaimed : ∀ binding : ApprovalBinding, T.Steady fun m =>
      (F m ∧ Drawn T.number authority id token m) ∧ binding.requestId = id ∧
        Claimed id m.authority.store := fun binding =>
    hdrawn.and ((lasts_const _).and (lasts_claimed id)).steady
  refine does_bind (G := fun result m => (F m ∧ Drawn T.number authority id token m) ∧
      ∀ binding, result = .ok binding → binding.requestId = id ∧ Claimed id m.authority.store) hs
    (does_act trivial hdrawn.stable (fun result => ?_) (fun m _ hm =>
      good_claim (hm.locks .gate hgate) (hfresh m hm.fact.1) (htimely m hm.fact.1)) ?_)
    fun result => ?_
  · intro m m₁ hrely hinv hm
    refine ⟨hdrawn.stable m m₁ hrely hinv hm.1, fun binding hbinding => ?_⟩
    obtain ⟨hid, hclaimed⟩ := hm.2 binding hbinding
    exact ⟨hid, (lasts_claimed (T := T) id).stable m m₁ hrely hinv hclaimed⟩
  · intro m input result m₁ hinv hm hperform hinv₁ hgrows
    obtain ⟨hresult, rfl⟩ := Prod.mk.inj (Option.some.inj hperform)
    obtain ⟨hfact, hheld, ⟨store, hauthority⟩, htoken⟩ := hm.fact
    refine ⟨⟨hF m _ hgrows hinv₁ hfact, hheld, ?_, htoken⟩, fun binding hbinding => ?_⟩
    · refine ⟨(m.authority.store.call T.E T.ownerUid (.claimExecution owner id) input.env
        input.outcome input.unreadable).1, ?_⟩
      simp only [hauthority]
    · obtain ⟨-, hclaimed, hid⟩ := claimExecution_call m.authority.store owner id input.env
        input.outcome input.unreadable binding hinv.phase (hresult.trans hbinding)
      exact ⟨hid, hclaimed⟩
  cases result with
  | error e =>
    exact does_throw (fun m m₁ hrely hinv hm => ⟨hdrawn.stable m m₁ hrely hinv hm.1, by simp⟩)
      fun _ _ hm => hm.1.1
  | ok binding =>
    refine does_conseq (F := fun m => (F m ∧ Drawn T.number authority id token m) ∧
      binding.requestId = id ∧ Claimed id m.authority.store) ?_
      (fun _ _ hm => ⟨hm.1, hm.2 binding rfl⟩) (fun _ _ _ hm => hm) fun _ _ hm => hm
    have hflag : ∀ cell, T.Steady fun m => ((F m ∧ Drawn T.number authority id token m) ∧
        binding.requestId = id ∧ Claimed id m.authority.store) ∧ Flag cell m := fun cell =>
      (hclaimed binding).and (lasts_flag cell).steady
    refine does_bind (G := fun cell m => ((F m ∧ Drawn T.number authority id token m) ∧
        binding.requestId = id ∧ Claimed id m.authority.store) ∧ Flag cell m) hs
      (does_act trivial (hclaimed binding).stable (fun cell => (hflag cell).stable)
        (fun m _ hm => hm.locks .gate hgate) ?_) fun cell => ?_
    · intro m input cell m₁ hinv hm hperform hinv₁ hgrows
      have hkept := (hclaimed binding).kept .newFlag rfl input cell m m₁ hinv hm.fact hperform hinv₁
        hgrows
      obtain ⟨hcell, rfl⟩ := Prod.mk.inj (Option.some.inj hperform)
      refine ⟨hkept, ?_⟩
      rw [← hcell]
      simp [Flag]
    -- the registration
    have hend : T.Lasts fun m => F m ∧ binding.requestId = id ∧
        Registered T.number id cell token (min deadline sessionDeadline) m :=
      hF.and ((lasts_const _).and (lasts_registered id cell token (min deadline sessionDeadline)))
    refine does_bind (G := fun _ m => F m ∧ binding.requestId = id ∧
        Registered T.number id cell token (min deadline sessionDeadline) m) hs
      (does_withLock hl (hflag cell).stable (fun _ => hend.stable) hs ((hflag cell).kept _ rfl)
        (fun _ => hend.kept _) (hF.kept _) (fun _ _ hm => hm.1.1.1) ?_)
      fun _ => does_pure hend.stable fun _ _ hm => hm
    refine does_act trivial (hflag cell).stable (fun _ => hend.stable) (fun m _ hm =>
      ⟨hm.locks .executions (List.mem_cons_self ..), hm.fact.1.2.2, hm.fact.2⟩) ?_
    intro m input answer m₁ hinv hm hperform hinv₁ hgrows
    obtain ⟨-, rfl⟩ := Prod.mk.inj (Option.some.inj hperform)
    obtain ⟨⟨⟨hfact, -, ⟨store, hauthority⟩, htoken⟩, hid, -⟩, -⟩ := hm.fact
    refine ⟨hF m _ hgrows hinv₁ hfact, hid, ?_⟩
    have htoken' : m.token id = token := by
      rw [htoken]
      simp [Shared.token, hauthority]
    have hdeadline' : m.deadline id = some (min deadline sessionDeadline) := by
      simp [Shared.deadline, hauthority, hdeadline, hsession]
    simp [Registered, Shared.note, htoken', hdeadline']

/-- INTERNAL: the token of the request's agent is the one in the table. -/
theorem does_claimToken (authority : Authority) (id : String) (hF : T.Lasts F)
    (hl : .agentTokens ∉ H) :
    Does T H (fun m => F m ∧ Read T.number authority m)
      (claimToken (authority.requestAgents id))
      (fun token m => F m ∧ Drawn T.number authority id token m) F := by
  have hs := hF.stable
  have hread := hF.steady.and (steady_read (T := T) authority)
  have hdrawn := fun token => hF.steady.and (steady_drawn (T := T) authority id token)
  cases hagent : authority.requestAgents id with
  | none =>
    refine does_pure hread.stable fun m _ hm => ⟨hm.1, hm.2.1, hm.2.2, ?_⟩
    simp [hagent]
  | some agent =>
    refine does_bind (G := fun cell m => F m ∧ Drawn T.number authority id (some cell) m) hs ?_
      fun cell => does_pure (hdrawn (some cell)).stable fun _ _ hm => hm
    refine does_withLock hl hread.stable (fun cell => (hdrawn (some cell)).stable) hs
      (hread.kept _ rfl) (fun cell => (hdrawn (some cell)).kept _ rfl) (hF.kept _)
      (fun _ _ hm => hm.1) ?_
    refine does_bind (G := fun found m => F m ∧ Drawn T.number authority id found m) hs
      (does_act trivial hread.stable (fun found => (hdrawn found).stable) (fun _ _ _ => trivial) ?_)
      fun found => does_okOr (hdrawn found).stable (fun cell hcell _ _ hm => hcell ▸ hm)
        fun _ _ hm => hm.1
    intro m input found m₁ hinv hm hperform hinv₁ hgrows
    obtain ⟨hfound, rfl⟩ := Prod.mk.inj (Option.some.inj hperform)
    refine ⟨hm.fact.1, hm.fact.2.1, hm.fact.2.2, ?_⟩
    rw [hagent, ← hfound]
    rfl

/-- What the first section of `run_execution` leaves. -/
def Begun (t : ℕ) (id : String) (claim : Claim) (m : Shared) : Prop :=
  Timely t m ∧ claim.binding.requestId = id ∧
    Registered t id claim.cancel claim.agentToken claim.deadline m

theorem lasts_begun (id : String) (claim : Claim) : T.Lasts (Begun T.number id claim) :=
  lasts_timely.and ((lasts_const _).and (lasts_registered id claim.cancel claim.agentToken
    claim.deadline))

/-- INTERNAL: **the first section of `run_execution`.** -/
theorem does_claimSection (E : Externals) (ownerUid owner : UInt32) (id : String) (epoch : ℕ)
    (hF : T.Lasts F) (hfresh : ∀ m, F m → Fresh T.number m) :
    Does T [.gate] (fun m => F m ∧ Entered T.number epoch m)
      (claimSection E ownerUid owner id epoch)
      (fun claim m => F m ∧ Begun T.number id claim m) F := by
  have hs := hF.stable
  have hgate : Lock.gate ∈ [Lock.gate] := List.mem_singleton.mpr rfl
  have hin := hF.and (lasts_timely (T := T) (t := T.number))
  refine does_bind hs (does_executionLiveCurrent id epoch hF hgate (by simp)) fun _ => ?_
  have hread := fun authority => hin.steady.and (steady_read (T := T) authority)
  refine does_bind (G := fun authority m => (F m ∧ Timely T.number m) ∧ Read T.number authority m) hs
    (does_act trivial hin.stable (fun authority => (hread authority).stable)
      (fun _ _ _ => trivial) ?_) fun authority => ?_
  · intro m input authority m₁ hinv hm hperform hinv₁ hgrows
    obtain ⟨hauthority, rfl⟩ := Prod.mk.inj (Option.some.inj hperform)
    exact ⟨hm.fact, hm.locks .gate hgate, m.authority.store, by rw [← hauthority]⟩
  cases hdeadline : authority.requestDeadlines id with
  | none => exact does_throw (hread authority).stable fun _ _ hm => hm.1.1
  | some deadline =>
  cases hsession : authority.deadline with
  | none => exact does_throw (hread authority).stable fun _ _ hm => hm.1.1
  | some session =>
  simp only [okOr_some_bind]
  refine does_bind hs (does_conseq (does_claimToken authority id hin (by simp))
    (fun _ _ hm => hm) (fun _ _ _ hm => hm) fun _ _ hm => hm.1) fun token => ?_
  have hdrawn := hin.steady.and (steady_drawn (T := T) authority id token)
  have hleft : ∀ found : ApprovalBinding × ℕ, T.Lasts fun m => (F m ∧ Timely T.number m) ∧
      found.1.requestId = id ∧ Registered T.number id found.2 token (min deadline session) m :=
    fun found => hin.and ((lasts_const _).and (lasts_registered id found.2 token _))
  have hclaim : ∀ H, .gate ∈ H → .executions ∉ H → Does T H
      (fun m => (F m ∧ Timely T.number m) ∧ Drawn T.number authority id token m)
      (claimAndRegister owner id (authority.requestAgents id) token)
      (fun found m => (F m ∧ Timely T.number m) ∧ found.1.requestId = id ∧
        Registered T.number id found.2 token (min deadline session) m) F := fun H hgate hl =>
    does_conseq (does_claimAndRegister owner id authority token deadline session hin hgate hl
      (fun m hm => hfresh m hm.1) (fun _ hm => hm.2) hdeadline hsession) (fun _ _ hm => hm)
      (fun _ _ _ hm => hm) fun _ _ hm => hm.1
  refine does_bind (G := fun found m => (F m ∧ Timely T.number m) ∧ found.1.requestId = id ∧
    Registered T.number id found.2 token (min deadline session) m) hs ?_ fun found => ?_
  · unfold withLockIf
    split_ifs
    · exact does_withLock (by simp) hdrawn.stable (fun found => (hleft found).stable) hs
        (hdrawn.kept _ rfl) (fun found => (hleft found).kept _) (hF.kept _) (fun _ _ hm => hm.1.1)
        (hclaim _ (by simp) (by simp))
    · exact hclaim _ hgate (by simp)
  · obtain ⟨binding, cancel⟩ := found
    refine does_bind hs (does_of_orderly (orderly_attempt (hleft (binding, cancel)).stable
      (orderly_executionAuthorityCurrent E ownerUid owner id (some binding) epoch
        (hleft (binding, cancel)) hgate (by simp))) fun _ hm => hm.1.1) fun candidate => ?_
    exact does_pure (hleft (binding, cancel)).stable fun _ _ hm =>
      ⟨hm.1.1, hm.1.2, hm.2.1, hm.2.2⟩

end Claiming

end VaultAccess.Analysis
