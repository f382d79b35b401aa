import VaultAccess.Analysis.Orderly

/-!
# The agents' entry points are orderly

Who sets a flag found it in a table while holding a gate, and every flag in a table exists.
-/

set_option autoImplicit false

namespace VaultAccess.Analysis

open VaultAccess.Library VaultAccess.Model VaultAccess.Model.Application

section Agents

variable {T : Thread} {ε α : Type} {H : List Lock} {F R : Shared → Prop}

/-! ## Tokens -/

/-- INTERNAL: `check_owner`. -/
theorem orderly_checkOwner {e : ε} (ownerUid owner : UInt32) (hF : T.Stable F) :
    Orderly T H F (checkOwner ownerUid e owner : App ε Unit) := by
  unfold checkOwner
  split_ifs
  · exact orderly_throw hF
  · exact orderly_pure hF

theorem orderly_tokenLive (token : Option ℕ) (hF : T.Steady F) :
    Orderly T H F (tokenLive token : App ε Bool) := by
  cases token with
  | none => exact orderly_pure hF.stable
  | some cell => exact orderly_bind hF.stable (orderly_plain hF rfl) fun _ => orderly_pure hF.stable

/-- INTERNAL: a token that is found is the flag of its agent, and it exists. -/
theorem does_lookupToken (id : String) (hF : T.Steady F) :
    Does T H F (act (.lookupToken id) : App ε (Option ℕ))
      (fun found m => F m ∧ ∀ cell, found = some cell → Flag cell m) R := by
  refine does_act trivial hF.stable (fun found => ?_) (fun _ _ _ => trivial) ?_
  · have hfound : T.Lasts fun m => ∀ cell, found = some cell → Flag cell m :=
      fun m m₁ hgrows hinv hm cell hcell =>
        lasts_flag (T := T) cell m m₁ hgrows hinv (hm cell hcell)
    exact (hF.and hfound.steady).stable
  · intro m input found m₁ hinv hm hperform hinv₁ hgrows
    have hkept := hF.kept (.lookupToken id) rfl input found m m₁ hinv hm.fact hperform hinv₁ hgrows
    obtain ⟨hfound, rfl⟩ := Prod.mk.inj (Option.some.inj hperform)
    rw [← hfound]
    exact ⟨hkept, fun cell hcell => (hinv.tokens id cell hcell).2⟩

theorem orderly_agentToken (id : String) (hF : T.Steady F) (hl : .agentTokens ∉ H) :
    Orderly T H F (agentToken id) := by
  refine orderly_withLock hF hl (by simp) ?_
  exact orderly_bind hF.stable (orderly_plain hF rfl) fun _ => orderly_okOr hF.stable

/-- INTERNAL: `request_agent_live`. -/
theorem orderly_requestAgentLive (id : String) (hF : T.Steady F) (hl : .agentTokens ∉ H) :
    Orderly T H F (requestAgentLive id) := by
  have hs := hF.stable
  refine orderly_bind hs (orderly_plain hF rfl) fun authority => ?_
  split
  · exact orderly_pure hs
  · refine orderly_withLock hF hl (by simp) ?_
    refine orderly_bind hs (orderly_plain hF rfl) fun found => ?_
    refine orderly_bind hs (orderly_okOr hs) fun cell => ?_
    refine orderly_bind hs (orderly_plain hF rfl) fun denied => ?_
    split_ifs
    · exact orderly_throw hs
    · exact orderly_pure hs

/-! ## Revocation -/

/-- INTERNAL: the token of an agent is denied. -/
theorem orderly_denyToken (id : String) (authorityBinding : Option (ℕ × ℕ × ℕ)) (hF : T.Lasts F)
    (hrelease : .releaseGate ∉ H) (hl : .agentTokens ∉ H) :
    Orderly T H F (denyToken id authorityBinding) := by
  have hs := hF.stable
  have hdeny : Orderly T (.releaseGate :: H) F (withLock .agentTokens .unavailable do
      let cell ← okOr .notFound (← act (.lookupToken id))
      if authorityBinding.isSome then
        if ← act (.loadFlag cell) then throw .staleRevision
      act (.setFlag cell) : App DirectRequestError Unit) := by
    refine orderly_withLock hF.steady (by simp [hl]) (by simp) ?_
    refine does_bind hs (does_lookupToken id hF.steady) fun found => ?_
    have hfound : T.Lasts fun m => F m ∧ ∀ cell, found = some cell → Flag cell m :=
      hF.and fun m m₁ hgrows hinv hm cell hcell =>
        lasts_flag (T := T) cell m m₁ hgrows hinv (hm cell hcell)
    have hflag : ∀ cell, T.Lasts fun m => F m ∧ Flag cell m := fun cell => hF.and (lasts_flag cell)
    refine does_bind (G := fun cell m => F m ∧ Flag cell m) hs (does_okOr hfound.stable
      (fun cell hcell _ _ hm => ⟨hm.1, hm.2 cell hcell⟩) fun _ _ hm => hm.1) fun cell => ?_
    have hset : Orderly T (.agentTokens :: .releaseGate :: H) (fun m => F m ∧ Flag cell m)
        (act (.setFlag cell) : App DirectRequestError Unit) :=
      orderly_gated (l := .releaseGate) (hflag cell) (by simp) (Or.inr rfl) trivial
        fun _ hgate hm => ⟨hgate, hm.2⟩
    have hall : Orderly T (.agentTokens :: .releaseGate :: H) (fun m => F m ∧ Flag cell m) (do
        if authorityBinding.isSome then
          if ← act (.loadFlag cell) then throw .staleRevision
        act (.setFlag cell) : App DirectRequestError Unit) := by
      simp only
      split_ifs
      · refine orderly_bind (hflag cell).stable (orderly_plain (hflag cell).steady rfl) fun _ => ?_
        exact orderly_guard (hflag cell).stable fun _ => hset
      · exact hset
    exact does_conseq hall (fun _ _ hm => hm) (fun _ _ _ hm => hm.1) fun _ _ hm => hm.1
  refine orderly_withLock hF.steady hrelease (by simp) ?_
  cases authorityBinding with
  | none => exact hdeny
  | some authorityBinding =>
    obtain ⟨generation, epoch, deadline⟩ := authorityBinding
    refine orderly_bind hs (orderly_plain hF.steady rfl) fun authority => ?_
    refine orderly_guard hs fun _ => ?_
    refine orderly_bind hs (orderly_plain hF.steady rfl) fun current => ?_
    refine orderly_guard hs fun _ => ?_
    refine orderly_bind hs (orderly_plain hF.steady rfl) fun now => ?_
    exact orderly_guard hs fun _ => hdeny

/-- The flags of the executions exist. -/
def Cancels (active : List (String × ActiveExecution)) (m : Shared) : Prop :=
  ∀ x ∈ active, Flag x.2.cancel m

theorem lasts_cancels (active : List (String × ActiveExecution)) : T.Lasts (Cancels active) :=
  fun m m₁ hgrows hinv hm x hx => lasts_flag (T := T) x.2.cancel m m₁ hgrows hinv (hm x hx)

/-- INTERNAL: the executions are cancelled under a gate. -/
theorem orderly_cancelAll {l : Lock} (hF : T.Lasts F) (hl : l ∈ H)
    (hgate : l = .gate ∨ l = .releaseGate) (active : List (String × ActiveExecution)) :
    Orderly T H (fun m => F m ∧ Cancels active m) (cancelAll active : App ε (List String)) := by
  induction active with
  | nil => exact orderly_pure (hF.and (lasts_cancels [])).stable
  | cons x rest ih =>
    have hall := hF.and (lasts_cancels (T := T) (x :: rest))
    refine orderly_bind hall.stable (orderly_gated hall hl hgate trivial fun _ hheld hm =>
      ⟨hheld, hm.2 x (List.mem_cons_self ..)⟩) fun _ => ?_
    have hrest : Orderly T H (fun m => F m ∧ Cancels (x :: rest) m)
        (cancelAll rest : App ε (List String)) := by
      refine does_conseq (does_frame (lasts_cancels (x :: rest)) ih) (fun _ _ hm =>
        ⟨⟨hm.1, fun y hy => hm.2 y (List.mem_cons_of_mem _ hy)⟩, hm.2⟩) (fun _ _ _ hm => ?_)
        fun _ _ hm => ?_
      · exact ⟨hm.1.1, hm.2⟩
      · exact ⟨hm.1.1, hm.2⟩
    exact orderly_bind hall.stable hrest fun _ => orderly_pure hall.stable

/-- INTERNAL: what a revocation does under the gate. -/
theorem orderly_revokeUnderGate (human : UInt32) (id : String) (hF : T.Lasts F) (hgate : .gate ∈ H)
    (hl : .executions ∉ H) (hfresh : ∀ m, F m → Fresh T.number m) :
    Orderly T H F (revokeUnderGate human id) := by
  have hs := hF.stable
  have hrest : ∀ result : Except DirectRequestError Unit, Orderly T H F (do
      let affected ← withLock .executions .unavailable do
        let active ← act .listExecutions
        cancelAll (active.filter (·.2.agentId = some id))
      pure (result, affected) :
      App DirectRequestError (Except DirectRequestError Unit × List String)) := by
    intro result
    refine orderly_bind hs (orderly_withLock hF.steady hl (by simp) ?_) fun _ => orderly_pure hs
    have hlist : Does T (.executions :: H) F
        (act .listExecutions : App DirectRequestError (List (String × ActiveExecution)))
        (fun active m => F m ∧ Cancels active m) F := by
      refine does_act trivial hs (fun active => (hF.and (lasts_cancels active)).stable)
        (fun _ _ _ => trivial) ?_
      intro m input active m₁ hinv hm hperform hinv₁ hgrows
      obtain ⟨hactive, rfl⟩ := Prod.mk.inj (Option.some.inj hperform)
      rw [← hactive]
      exact ⟨hm.fact, fun x hx => (hinv.executions x.1 x.2 hx).2⟩
    refine does_bind hs hlist fun active => ?_
    refine does_conseq (orderly_cancelAll hF (List.mem_cons_of_mem _ hgate) (Or.inl rfl)
      (active.filter (·.2.agentId = some id))) (fun _ _ hm => ⟨hm.1, fun x hx =>
        hm.2 x (List.mem_filter.mp hx).1⟩) (fun _ _ _ hm => hm.1) fun _ _ hm => hm.1
  refine orderly_bind hs (orderly_plain hF.steady rfl) fun now => ?_
  cases now with
  | error e => exact orderly_bind hs (orderly_pure hs) hrest
  | ok now =>
    refine orderly_bind hs (orderly_operation hF hgate hfresh rfl) fun result => ?_
    exact orderly_bind hs (orderly_pure hs) hrest

/-- INTERNAL: the wait for the executions of a revoked agent. -/
theorem orderly_awaitAgentCleanup (ids : List String) (hF : T.Lasts F) (hrelease : .releaseGate ∉ H)
    (hexecutions : .executions ∉ H) : Orderly T H F (awaitAgentCleanup ids) := by
  have hs : T.Stable (Held T.number H F) := Thread.held_stable hF.stable
  refine spec_taken hF ?_
  refine Spec.bind hs (spec_within (orderly_plain hF.steady rfl)) fun active => ?_
  have hrest : Spec T.discipline T.number (Held T.number (.executions :: H) F) (do
      let active ← act .listExecutions
      let uncertain ← if stillActive active (some ids) then pure true
        else do if ← act .loadUncertain then pure true else act .loadClosing
      act (.release .executions)
      if uncertain then
        closeAdmission
        throw .unavailable : App DirectRequestError Unit)
      (fun _ => Held T.number H F) (Held T.number H F) := by
    refine Spec.bind hs (spec_within (orderly_plain hF.steady rfl)) fun active => ?_
    have hend : ∀ uncertain : Bool, Spec T.discipline T.number (Held T.number (.executions :: H) F)
        (do
          act (.release .executions)
          if uncertain then
            closeAdmission
            throw .unavailable : App DirectRequestError Unit)
        (fun _ => Held T.number H F) (Held T.number H F) := by
      intro uncertain
      refine Spec.bind hs (spec_release hF hexecutions) fun _ => ?_
      split_ifs
      · exact orderly_bind hF.stable (orderly_closeAdmission hF hrelease) fun _ =>
          orderly_throw hF.stable
      · exact orderly_pure hF.stable
    simp only
    split_ifs
    · exact Spec.bind hs (spec_within (orderly_pure hF.stable)) hend
    · refine Spec.bind hs (spec_within (orderly_plain hF.steady rfl)) fun lost => ?_
      exact Spec.choose hs (fun _ => spec_within (orderly_pure hF.stable))
        (fun _ => spec_within (orderly_plain hF.steady rfl)) hend
  simp only
  split_ifs
  · exact Spec.bind hs (spec_waitReaped hF hexecutions) fun _ => hrest
  · exact hrest

/-- INTERNAL: `revoke_agent_checked`. -/
theorem orderly_revokeAgentChecked (ownerUid human : UInt32) (id : String)
    (authorityBinding : Option (ℕ × ℕ × ℕ)) (hF : T.Lasts F)
    (hfresh : ∀ m, F m → Fresh T.number m) :
    Orderly T [] F (revokeAgentChecked ownerUid human id authorityBinding) := by
  have hs := hF.stable
  have hgate : Lock.gate ∈ [Lock.gate] := List.mem_singleton.mpr rfl
  have hend : ∀ found : Except DirectRequestError Unit × List String, Orderly T [] F (do
      if !found.1.isOk then closeAdmission
      let complete ← attempt (awaitAgentCleanup found.2)
      raise found.1
      pure complete.isOk : App DirectRequestError Bool) := by
    rintro ⟨result, affected⟩
    have hwait : Orderly T [] F (do
        let complete ← attempt (awaitAgentCleanup affected)
        raise result
        pure complete.isOk : App DirectRequestError Bool) := by
      refine orderly_bind hs (orderly_attempt hs
        (orderly_awaitAgentCleanup affected hF (by simp) (by simp))) fun complete => ?_
      exact orderly_bind hs (orderly_ofExcept _ hs) fun _ => orderly_pure hs
    simp only
    split_ifs
    · exact orderly_bind hs (orderly_closeAdmission hF (by simp)) fun _ => hwait
    · exact hwait
  refine orderly_bind hs (orderly_checkOwner ownerUid human hs) fun _ => ?_
  cases authorityBinding with
  | none =>
    refine orderly_bind hs (orderly_denyToken id none hF (by simp) (by simp)) fun _ => ?_
    exact orderly_bind hs (orderly_withGate hF (by simp)
      (orderly_revokeUnderGate human id hF hgate (by simp) hfresh)) hend
  | some authorityBinding =>
    refine orderly_bind hs (orderly_withTryGate hF (by simp) ?_) hend
    refine orderly_bind hs (orderly_denyToken id _ hF (by simp) (by simp)) fun _ => ?_
    exact orderly_revokeUnderGate human id hF hgate (by simp) hfresh

/-! ## Pairing -/

theorem steady_unpaired (id : String) : T.Steady fun m => Holds T.number .gate m ∧
    lookupKey m.agentTokens id = none ∧
    id ∈ m.authority.store.durable.pairings.map (·.id) :=
  steady_gate (P := fun a tokens _ => lookupKey tokens id = none ∧
    id ∈ a.store.durable.pairings.map (·.id))

/-- INTERNAL: `pair_agent`. -/
theorem orderly_pairAgent (ownerUid human : UInt32) (input : AgentPairing) (hF : T.Lasts F)
    (hfresh : ∀ m, F m → Fresh T.number m) : Orderly T [] F (pairAgent ownerUid human input) := by
  have hs := hF.stable
  have hgate : Lock.gate ∈ [Lock.gate] := List.mem_singleton.mpr rfl
  refine orderly_bind hs (orderly_checkOwner ownerUid human hs) fun _ => ?_
  refine orderly_bind hs (orderly_plain hF.steady rfl) fun closing => ?_
  refine orderly_guard hs fun _ => orderly_withGate hF (by simp) ?_
  refine orderly_bind hs (orderly_plain hF.steady rfl) fun closing => ?_
  refine orderly_guard hs fun _ => ?_
  refine orderly_bind hs (orderly_plain hF.steady rfl) fun seconds => ?_
  refine orderly_bind hs (orderly_ofExcept _ hs) fun now => ?_
  refine does_bind hs (does_operation hF (fun view : AgentBindingView =>
    (steady_unpaired (T := T) view.id).stable) (fun m _ hm =>
      good_operation (hm.locks .gate hgate) (hfresh m hm.fact) rfl) ?_) fun result => ?_
  · intro m i view hinv hm hok
    obtain ⟨hnew, hpaired⟩ := pairAgent_call m.authority.store human input now i.env i.outcome
      i.unreadable view hok
    refine ⟨hm.locks .gate hgate, ?_, hpaired⟩
    by_contra hfound
    obtain ⟨cell, hcell⟩ := Option.ne_none_iff_exists'.mp hfound
    exact hnew (hinv.tokens view.id cell hcell).1
  cases result with
  | error e =>
    refine does_conseq ?_ (fun _ _ hm => hm.1) (fun _ _ _ hm => hm) fun _ _ hm => hm
    simp only
    split_ifs
    · exact orderly_bind hs (orderly_closeAdmission hF (by simp)) fun _ => orderly_throw hs
    · exact orderly_throw hs
  | ok view =>
    have hnew := hF.steady.and (steady_unpaired (T := T) view.id)
    refine does_conseq (F := fun m => F m ∧ _) (does_withLock (by simp) hnew.stable (fun _ => hs) hs
      (hnew.kept _ rfl) (fun _ => hF.kept _) (hF.kept _) (fun _ _ hm => hm.1) ?_)
      (fun _ _ hm => ⟨hm.1, hm.2 view rfl⟩) (fun _ _ _ hm => hm) fun _ _ hm => hm
    refine does_bind hs (does_plain hnew rfl) fun closing => ?_
    refine does_guard hnew.stable (fun _ _ _ hm => hm.1) hs fun _ => ?_
    refine does_withLock (by simp) hnew.stable (fun _ => hs) hs (hnew.kept _ rfl)
      (fun _ => hF.kept _) (hF.kept _) (fun _ _ hm => hm.1) ?_
    refine does_bind (G := fun cell m => (F m ∧ _) ∧ Flag cell m) hs (does_act trivial hnew.stable
      (fun cell => (hnew.and (lasts_flag cell).steady).stable) (fun m _ hm => hm.locks .gate (by simp))
      ?_) fun cell => ?_
    · intro m i cell m₁ hinv hm hperform hinv₁ hgrows
      have hkept := hnew.kept .newFlag rfl i cell m m₁ hinv hm.fact hperform hinv₁ hgrows
      obtain ⟨hcell, rfl⟩ := Prod.mk.inj (Option.some.inj hperform)
      refine ⟨hkept, ?_⟩
      rw [← hcell]
      simp [Flag]
    · refine does_act trivial (hnew.and (lasts_flag cell).steady).stable (fun _ => hs)
        (fun m _ hm => ?_) fun m _ _ m₁ _ hm _ hinv₁ hgrows => hF m m₁ hgrows hinv₁ hm.fact.1.1
      exact ⟨hm.locks .gate (by simp), hm.fact.1.2.2.1, hm.fact.1.2.2.2, hm.fact.2⟩

end Agents

end VaultAccess.Analysis
