import VaultAccess.Analysis.Agents

/-!
# `run_execution` is orderly

A call that claims is in time: it compares the epoch it captured under the gate, and the
session was not shut. What it claims it registers with its flag, its token and the earlier
deadline. Who hands secrets over looked at every signal while holding both gates.
-/

set_option autoImplicit false

namespace VaultAccess.Analysis

open VaultAccess.Library VaultAccess.Model VaultAccess.Model.Application

section Execution

variable {T : Thread} {ε α : Type} {H : List Lock} {F R : Shared → Prop}

/-! ## Liveness checks -/

/-- INTERNAL: whether the deadline of a request has passed. -/
theorem orderly_requestOver (id : String) (hF : T.Steady F) :
    Orderly T H F (requestOver id : App ε Bool) := by
  have hs := hF.stable
  refine orderly_bind hs (orderly_plain hF rfl) fun authority => ?_
  split
  · exact orderly_pure hs
  · exact orderly_bind hs (orderly_plain hF rfl) fun _ => orderly_pure hs

/-- INTERNAL: `execution_live`. -/
theorem orderly_executionLive (id : String) (hF : T.Lasts F) (hgate : .gate ∈ H)
    (hl : .agentTokens ∉ H) : Orderly T H F (executionLive id) := by
  have hs := hF.stable
  have hadmission := orderly_adapt (δ := DirectRequestError) .ofSession hs (orderly_admission hF hgate)
  refine orderly_bind hs hadmission fun _ => ?_
  refine orderly_bind hs (orderly_requestAgentLive id hF.steady hl) fun _ => ?_
  refine orderly_bind hs (orderly_requestOver id hF.steady) fun ended => ?_
  split_ifs
  · refine orderly_bind hs (orderly_attempt hs (orderly_expireRequests hF hgate)) fun expiry => ?_
    refine orderly_bind hs hadmission fun _ => ?_
    exact orderly_bind hs (orderly_ofExcept _ hs) fun _ => orderly_throw hs
  · exact orderly_pure hs

/-- INTERNAL: `execution_live_current`. -/
theorem orderly_executionLiveCurrent (id : String) (epoch : ℕ) (hF : T.Lasts F) (hgate : .gate ∈ H)
    (hl : .agentTokens ∉ H) : Orderly T H F (executionLiveCurrent id epoch) := by
  have hs := hF.stable
  refine orderly_bind hs (orderly_executionLive id hF hgate hl) fun _ => ?_
  refine orderly_bind hs (orderly_plain hF.steady rfl) fun current => ?_
  split_ifs
  · exact orderly_throw hs
  · exact orderly_pure hs

/-- INTERNAL: what an execution is given. -/
theorem orderly_deliver (E : Externals) (ownerUid owner : UInt32) (id : String) (claimed : Bool)
    (hF : T.Steady F) :
    Orderly T H F (deliver E ownerUid owner id claimed : App ε (Except DirectRequestError
      (ApprovalBinding × OperationPolicy × List String))) := by
  refine orderly_bind hF.stable (orderly_plain hF rfl) fun s => ?_
  cases s with
  | ok s => exact orderly_pure hF.stable
  | error e => exact orderly_pure hF.stable

/-- INTERNAL: `execution_authority`. -/
theorem orderly_executionAuthority (E : Externals) (ownerUid owner : UInt32) (id : String)
    (expected : Option ApprovalBinding) (claimed : Bool) (hF : T.Lasts F) (hgate : .gate ∈ H)
    (hl : .agentTokens ∉ H) :
    Orderly T H F (executionAuthority E ownerUid owner id expected claimed) := by
  have hs := hF.stable
  refine orderly_bind hs (orderly_executionLive id hF hgate hl) fun _ => ?_
  refine orderly_bind hs (orderly_deliver E ownerUid owner id claimed hF.steady) fun candidate => ?_
  refine orderly_bind hs (orderly_executionLive id hF hgate hl) fun _ => ?_
  refine orderly_bind hs (orderly_ofExcept _ hs) fun candidate => ?_
  refine orderly_bind hs (orderly_plain hF.steady rfl) fun authority => ?_
  refine orderly_guard hs fun _ => ?_
  exact orderly_guard hs fun _ => orderly_pure hs

/-- INTERNAL: `execution_authority_current`. -/
theorem orderly_executionAuthorityCurrent (E : Externals) (ownerUid owner : UInt32) (id : String)
    (expected : Option ApprovalBinding) (epoch : ℕ) (hF : T.Lasts F) (hgate : .gate ∈ H)
    (hl : .agentTokens ∉ H) :
    Orderly T H F (executionAuthorityCurrent E ownerUid owner id expected epoch) := by
  have hs := hF.stable
  refine orderly_bind hs (orderly_executionAuthority E ownerUid owner id expected false hF hgate hl)
    fun candidate => ?_
  refine orderly_bind hs (orderly_executionLiveCurrent id epoch hF hgate hl) fun _ => ?_
  exact orderly_pure hs

/-- INTERNAL: `live_fast`. -/
theorem orderly_liveFast (e : ApplicationExecution) (hF : T.Steady F) :
    Orderly T H F (liveFast e : App ε Bool) := by
  have hs := hF.stable
  refine orderly_bind hs (orderly_plain hF rfl) fun cancelled => ?_
  split_ifs
  · exact orderly_pure hs
  refine orderly_bind hs (orderly_tokenLive e.agentToken hF) fun live => ?_
  split_ifs
  · exact orderly_pure hs
  refine orderly_bind hs (orderly_plain hF rfl) fun closing => ?_
  split_ifs
  · exact orderly_pure hs
  refine orderly_bind hs (orderly_plain hF rfl) fun epoch => ?_
  split_ifs
  · exact orderly_pure hs
  · exact orderly_bind hs (orderly_plain hF rfl) fun _ => orderly_pure hs

/-- INTERNAL: `execution_matches`. -/
theorem orderly_matchesDurable (binding : ApprovalBinding) (hF : T.Steady F) :
    Orderly T H F (matchesDurable binding) := by
  refine orderly_bind hF.stable (orderly_plain hF rfl) fun s => ?_
  cases s with
  | ok s => exact orderly_pure hF.stable
  | error e => exact orderly_pure hF.stable

/-- INTERNAL: `live`. -/
theorem orderly_live (e : ApplicationExecution) (hF : T.Lasts F) :
    Orderly T [] F (live e : App ε Bool) := by
  have hs := hF.stable
  refine orderly_bind hs (orderly_liveFast e hF.steady) fun fast => ?_
  split_ifs
  · exact orderly_pure hs
  · refine orderly_bind hs (orderly_attempt hs (orderly_withGate hF (by simp)
      (orderly_matchesDurable e.binding hF.steady))) fun current => ?_
    cases current with
    | ok current => exact orderly_pure hs
    | error e => exact orderly_pure hs

/-! ## Shut sessions and passed epochs -/

/-- No session is open, or it is over. -/
def Over (m : Shared) : Prop :=
  m.authority.cleanupFailed = true ∨ ∀ d ∈ m.authority.deadline, d ≤ m.clock

/-- INTERNAL: while the gate is held, a session that is over stays over. -/
theorem steady_over : T.Steady fun m => Holds T.number .gate m ∧ Over m := by
  refine ⟨fun m m₁ hrely _ hm => ?_, fun a ha input answer m m₁ hinv hm hperform hinv₁ hgrows => ?_⟩
  · obtain ⟨hauthority, -⟩ := hrely.gate hm.1
    refine ⟨(hrely.holder .gate).mpr hm.1, ?_⟩
    unfold Over
    rw [hauthority]
    exact hm.2.imp_right fun hover d hd => (hover d hd).trans hrely.clock
  · have hkept := (steady_gate (T := T) (P := fun _ _ _ => True)).kept a ha input answer m m₁ hinv
      ⟨hm.1, trivial⟩ hperform hinv₁ hgrows
    obtain ⟨hauthority, -⟩ := calm_performAct ha hperform
    refine ⟨hkept.1, ?_⟩
    unfold Over
    rw [hauthority]
    exact hm.2.imp_right fun hover d hd => (hover d hd).trans hgrows.clock

/-- INTERNAL: **a session that is shut admits nobody.** -/
theorem does_admit_shut (hF : T.Lasts F) (hgate : .gate ∈ H) :
    Does T H (fun m => F m ∧ Holds T.number .gate m ∧ Shut m) admission (fun _ _ => False) F := by
  have hs := hF.stable
  have hover := hF.steady.and (steady_over (T := T))
  have hrevoke : ∀ {F' : Shared → Prop}, (∀ m, F' m → F m) → Does T H F'
      (do revoke; throw .locked : App SessionError Unit) (fun _ _ => False) F := by
    intro F' hF'
    refine does_conseq (F := F) ?_ (fun m _ hm => hF' m hm) (fun _ _ _ hm => hm) fun _ _ hm => hm
    exact does_bind hs (orderly_revoke hF hgate) fun _ => does_throw hs fun _ _ hm => hm
  have hshut : T.Steady fun m => Holds T.number .gate m ∧ Shut m := by
    have hlast : T.Steady fun m => m.closing = true :=
      Thread.Lasts.steady fun _ _ hgrows _ hm => hgrows.closing hm
    have hover := steady_over (T := T)
    have hhold := steady_gate (T := T) (P := fun _ _ _ => True)
    refine ⟨fun m m₁ hrely hinv hm => ?_, fun a ha i answer m m₁ hinv hm hp hinv₁ hgrows => ?_⟩
    · refine ⟨(hrely.holder .gate).mpr hm.1, ?_⟩
      rcases hm.2 with hclosing | hrest
      · exact Or.inl (hlast.stable m m₁ hrely hinv hclosing)
      · exact Or.inr (hover.stable m m₁ hrely hinv ⟨hm.1, hrest⟩).2
    · refine ⟨(hhold.kept a ha i answer m m₁ hinv ⟨hm.1, trivial⟩ hp hinv₁ hgrows).1, ?_⟩
      rcases hm.2 with hclosing | hrest
      · exact Or.inl (hlast.kept a ha i answer m m₁ hinv hclosing hp hinv₁ hgrows)
      · exact Or.inr (hover.kept a ha i answer m m₁ hinv ⟨hm.1, hrest⟩ hp hinv₁ hgrows).2
  have hfalse : T.Steady fun _ => False := Thread.Lasts.steady fun _ _ _ _ hm => hm
  -- once admission is found open, the session must be over
  refine does_bind (G := fun closing m => F m ∧ (closing = false → Holds T.number .gate m ∧ Over m))
    hs (does_act trivial (hF.steady.and hshut).stable (fun closing => ?_) (fun _ _ _ => trivial) ?_)
    fun closing => ?_
  · cases closing with
    | true => exact fun m m₁ hrely hinv hm => ⟨hs m m₁ hrely hinv hm.1, fun h => by simp at h⟩
    | false => exact fun m m₁ hrely hinv hm => ⟨hs m m₁ hrely hinv hm.1, fun _ =>
        steady_over.stable m m₁ hrely hinv (hm.2 rfl)⟩
  · intro m input closing m₁ hinv hm hperform hinv₁ hgrows
    obtain ⟨hclosing, rfl⟩ := Prod.mk.inj (Option.some.inj hperform)
    refine ⟨hm.fact.1, fun hopen => ⟨hm.fact.2.1, ?_⟩⟩
    rcases hm.fact.2.2 with hshut | hover
    · exact absurd (hclosing.symm.trans hshut) (by rw [hopen]; simp)
    · exact hover
  · cases closing with
    | true => exact hrevoke fun _ hm => hm.1
    | false =>
      refine does_conseq (F := fun m => F m ∧ Holds T.number .gate m ∧ Over m) ?_
        (fun _ _ hm => ⟨hm.1, hm.2 rfl⟩) (fun _ _ _ hm => hm) fun _ _ hm => hm
      have hseen : ∀ authority : Authority, T.Steady fun m => (F m ∧ Holds T.number .gate m ∧ Over m) ∧
          Holds T.number .gate m ∧ m.authority = authority := fun authority =>
        hover.and (steady_gate (P := fun a _ _ => a = authority))
      refine does_bind (G := fun authority m => (F m ∧ Holds T.number .gate m ∧ Over m) ∧
        Holds T.number .gate m ∧ m.authority = authority) hs (does_act trivial hover.stable
        (fun authority => (hseen authority).stable) (fun _ _ _ => trivial) ?_) fun authority => ?_
      · intro m input authority m₁ hinv hm hperform hinv₁ hgrows
        obtain ⟨hauthority, rfl⟩ := Prod.mk.inj (Option.some.inj hperform)
        exact ⟨hm.fact, hm.fact.2.1, hauthority⟩
      refine does_bind (G := fun deadline m => ((F m ∧ Holds T.number .gate m ∧ Over m) ∧
        Holds T.number .gate m ∧ m.authority = authority) ∧ authority.deadline = some deadline) hs
        (does_okOr (hseen authority).stable (fun deadline hdeadline _ _ hm => ⟨hm, hdeadline⟩)
          fun _ _ hm => hm.1.1) fun deadline => ?_
      have hknown := (hseen authority).and
        (Thread.Lasts.steady (lasts_const (T := T) (authority.deadline = some deadline)))
      refine does_bind (G := fun now m => F m ∧ ¬ (now < deadline && !authority.cleanupFailed) = true)
        hs (does_act trivial hknown.stable (fun now => (hF.and (lasts_const _)).stable)
          (fun _ _ _ => trivial) ?_) fun now => ?_
      · intro m input now m₁ hinv hm hperform hinv₁ hgrows
        obtain ⟨hnow, rfl⟩ := Prod.mk.inj (Option.some.inj hperform)
        obtain ⟨⟨⟨hfact, -, hover⟩, -, hauthority⟩, hdeadline⟩ := hm.fact
        refine ⟨hF m _ hgrows hinv₁ hfact, ?_⟩
        unfold Over at hover
        rw [hauthority, hdeadline] at hover
        rcases hover with hfailed | hpassed
        · simp [hfailed]
        · have hle : deadline ≤ now := by
            rw [← hnow]
            exact hpassed deadline rfl
          simp [hle.not_gt]
      · by_cases hlive : (now < deadline && !authority.cleanupFailed) = true
        · rw [if_pos hlive]
          exact does_pure (hF.and (lasts_const _)).stable fun _ _ hm => hm.2 hlive
        · rw [if_neg hlive]
          exact hrevoke fun _ hm => hm.1

/-- What a thread that captured an epoch knows when it gets the gate. -/
def Entered (t epoch : ℕ) (m : Shared) : Prop :=
  Timely t m ∨ epoch < m.revocationEpoch ∨ (Holds t .gate m ∧ Shut m)

/-- INTERNAL: **a call that passes the check under the gate is in time.** -/
theorem does_executionLiveCurrent (id : String) (epoch : ℕ) (hF : T.Lasts F) (hgate : .gate ∈ H)
    (hl : .agentTokens ∉ H) :
    Does T H (fun m => F m ∧ Entered T.number epoch m) (executionLiveCurrent id epoch)
      (fun _ m => F m ∧ Timely T.number m) F := by
  have hs := hF.stable
  have htimely := hF.and (lasts_timely (T := T) (t := T.number))
  have hpassed := hF.and (lasts_passed (T := T) epoch)
  have hcase₁ : Does T H (fun m => F m ∧ Timely T.number m) (executionLiveCurrent id epoch)
      (fun _ m => F m ∧ Timely T.number m) F :=
    does_conseq (orderly_executionLiveCurrent id epoch htimely hgate hl) (fun _ _ hm => hm)
      (fun _ _ _ hm => hm) fun _ _ hm => hm.1
  have hcase₂ : Does T H (fun m => F m ∧ epoch < m.revocationEpoch) (executionLiveCurrent id epoch)
      (fun _ m => F m ∧ Timely T.number m) F := by
    refine does_bind hs (does_conseq (orderly_executionLive id hpassed hgate hl) (fun _ _ hm => hm)
      (fun _ _ _ hm => hm) fun _ _ hm => hm.1) fun _ => ?_
    refine does_bind (G := fun current m => F m ∧ current ≠ epoch) hs (does_act trivial hpassed.stable
      (fun current => (hF.and (lasts_const _)).stable) (fun _ _ _ => trivial) ?_) fun current => ?_
    · intro m input current m₁ hinv hm hperform hinv₁ hgrows
      obtain ⟨hcurrent, rfl⟩ := Prod.mk.inj (Option.some.inj hperform)
      refine ⟨hm.fact.1, ?_⟩
      rw [← hcurrent]
      exact hm.fact.2.ne'
    · by_cases hne : current ≠ epoch
      · rw [if_pos hne]
        exact does_throw (hF.and (lasts_const _)).stable fun _ _ hm => hm.1
      · rw [if_neg hne]
        exact does_pure (hF.and (lasts_const _)).stable fun _ _ hm => absurd hm.2 hne
  have hcase₃ : Does T H (fun m => F m ∧ Holds T.number .gate m ∧ Shut m)
      (executionLiveCurrent id epoch) (fun _ m => F m ∧ Timely T.number m) F := by
    refine does_bind (G := fun _ _ => False) hs ?_ fun _ => fun _ _ hm => hm.fact.elim
    refine does_bind (G := fun _ _ => False) hs ?_ fun _ => fun _ _ hm => hm.fact.elim
    exact does_adapt _ (fun _ _ _ _ _ hm => hm) hs (does_admit_shut hF hgate)
  rintro m hinv ⟨hlocks, hfact, hentered⟩
  rcases hentered with htimely | hpassed | hshut
  · exact hcase₁ m hinv ⟨hlocks, hfact, htimely⟩
  · exact hcase₂ m hinv ⟨hlocks, hfact, hpassed⟩
  · exact hcase₃ m hinv ⟨hlocks, hfact, hshut⟩

end Execution

end VaultAccess.Analysis
