import VaultAccess.Analysis.Agents

/-!
# The agents' messages are orderly

A message that was admitted before is rejected by the provider, so whatever a call does
after the admission of its message, its message was new.
-/

set_option autoImplicit false

namespace VaultAccess.Analysis

open VaultAccess.Library VaultAccess.Model VaultAccess.Model.Application

section Messages

variable {T : Thread} {ε α : Type} {H : List Lock} {F R : Shared → Prop}

/-- The message was admitted by the thread. -/
def Admitted (t : ℕ) (pair : String × String) (m : Shared) : Prop :=
  ∃ op handed, (t, Mark.operated op handed true) ∈ m.log ∧ op.message = some pair

theorem lasts_admitted (pair : String × String) : T.Lasts (Admitted T.number pair) := by
  rintro m m₁ hgrows - ⟨op, handed, hmark, hmessage⟩
  exact ⟨op, handed, hgrows.mem hmark, hmessage⟩

/-- What a thread knows whose message was admitted. -/
def Answered (t : ℕ) (pair : String × String) (m : Shared) : Prop :=
  Fresh t m ∧ Admitted t pair m

theorem lasts_answered (pair : String × String) : T.Lasts (Answered T.number pair) :=
  lasts_fresh.and (lasts_admitted pair)

/-- INTERNAL: **a message that is admitted was new.** -/
theorem does_message {op : Op} {pair : String × String} (hF : T.Lasts F) (hgate : .gate ∈ H)
    (hknown : ∀ m, F m → Known T.number pair m) (hop : op.message = some pair)
    (hclaim : isClaim op = false) :
    Does T H F (act (.provider op) : App ε (Except op.Error op.Value))
      (fun result m => F m ∧ ∀ value, result = .ok value → Answered T.number pair m) R := by
  refine does_operation hF (fun _ => (lasts_answered pair).stable) (fun m _ hm =>
    ⟨hm.locks .gate hgate, fun h => by rw [hclaim] at h; simp at h, fun call hcall =>
      Or.inr ⟨pair, (hknown m hm.fact).2 call hcall, hop⟩⟩) ?_
  intro m input value hinv hm hok
  obtain ⟨hnew, -⟩ := message_call m.authority.store op input.env input.outcome input.unreadable
    value pair hop hok
  obtain ⟨⟨call, seen, hbegan⟩, hseen⟩ := hknown m hm.fact
  refine ⟨⟨⟨call, seen, List.mem_append_left _ hbegan⟩, fun call' hcall => ?_⟩, op,
    !input.unreadable && (Event.handsOver T.E T.ownerUid m.authority.store
      (.op op input.env input.outcome)).isSome, ?_, hop⟩
  · rcases List.mem_append.mp hcall with hcall | hcall
    · exact hnew (hinv.admitted pair (hseen call' hcall))
    · simp at hcall
  · simp [performProvider, hok, Except.isOk, Except.toBool]

/-- INTERNAL: the guard of a submission. -/
theorem orderly_windowLive (window : SubmitWindow) (hF : T.Steady F) :
    Orderly T H F (window.live : App ε Bool) := by
  have hs := hF.stable
  refine orderly_bind hs (orderly_plain hF rfl) fun closing => ?_
  refine orderly_ite (fun _ => orderly_pure hs) fun _ => ?_
  refine orderly_bind hs (orderly_tokenLive _ hF) fun live => ?_
  refine orderly_ite (fun _ => orderly_pure hs) fun _ => ?_
  refine orderly_bind hs (orderly_plain hF rfl) fun epoch => ?_
  refine orderly_ite (fun _ => orderly_pure hs) fun _ => ?_
  refine orderly_bind hs (orderly_plain hF rfl) fun now => ?_
  refine orderly_ite (fun _ => orderly_pure hs) fun _ => ?_
  exact orderly_bind hs (orderly_plain hF rfl) fun _ => orderly_pure hs

/-- INTERNAL: a rejection as unavailable closes admission. -/
theorem does_closingIfUnavailable {x : App AgentRejection α} {G : α → Shared → Prop}
    (hF : T.Lasts F) (hG : ∀ value, T.Lasts (G value))
    (hx : Does T [] F x G F) : Does T [] F (closingIfUnavailable x) G F := by
  have hs := hF.stable
  refine does_bind (G := Ends G F) hs (does_attempt (fun value => (hG value).stable) hs hx)
    fun result => ?_
  cases result with
  | ok value => exact does_pure (hG value).stable fun _ _ hm => hm
  | error e =>
    have hthrow : Does T [] F (throw e : App AgentRejection α) G F :=
      does_throw hs fun _ _ hm => hm
    cases e with
    | unavailable => exact does_bind hs (orderly_closeAdmission hF (by simp)) fun _ => hthrow
    | _ => exact hthrow

/-! ## Submissions -/

/-- INTERNAL: **the admission of a submission.** -/
theorem does_commitSigned (E : Externals) (ownerUid : UInt32) (requestLifetime : ℕ) (uid : UInt32)
    (groups : List UInt32) (input : SignedSubmission) (hF : T.Lasts F)
    (hknown : ∀ m, F m → Known T.number (input.bindingId, input.nonce) m) :
    Does T [.gate] F (commitSigned E ownerUid requestLifetime uid groups input)
      (fun _ m => F m ∧ Answered T.number (input.bindingId, input.nonce) m) F := by
  have hs := hF.stable
  have hgate : Lock.gate ∈ [Lock.gate] := List.mem_singleton.mpr rfl
  have hend := hF.and (lasts_answered (T := T) (input.bindingId, input.nonce))
  refine does_bind hs (orderly_adapt _ hs (orderly_admission hF hgate)) fun _ => ?_
  refine does_bind hs (orderly_adapt _ hs (orderly_expireRequests hF hgate)) fun _ => ?_
  refine does_bind hs (orderly_plain hF.steady rfl) fun authority => ?_
  refine does_bind hs (orderly_plain hF.steady rfl) fun epoch => ?_
  refine does_guard hs (fun _ _ _ hm => hm) hs fun _ => ?_
  refine does_bind hs (orderly_plain hF.steady rfl) fun s => ?_
  refine does_bind hs (orderly_ofExcept _ hs) fun s => ?_
  refine does_bind hs (orderly_ofExcept _ hs) fun owner => ?_
  refine does_bind hs (orderly_adapt _ hs (orderly_agentToken _ hF.steady (by simp))) fun token => ?_
  refine does_bind hs (orderly_tokenLive _ hF.steady) fun live => ?_
  refine does_guard hs (fun _ _ _ hm => hm) hs fun _ => ?_
  refine does_bind hs (orderly_plain hF.steady rfl) fun now => ?_
  refine does_bind hs (orderly_okOr hs) fun deadline => ?_
  refine does_bind hs (orderly_plain hF.steady rfl) fun seconds => ?_
  refine does_bind hs (orderly_ofExcept _ hs) fun now => ?_
  refine does_bind hs (orderly_okOr hs) fun expires => ?_
  refine does_bind hs (orderly_okOr hs) fun sessionDeadline => ?_
  refine does_bind hs (does_withLock (by simp) hs (fun _ => hend.stable) hs (hF.kept _)
    (fun _ => hend.kept _) (hF.kept _) (fun _ _ hm => hm) ?_) fun review =>
      does_pure hend.stable fun _ _ hm => hm
  refine does_bind hs (orderly_tokenLive _ hF.steady) fun live => ?_
  refine does_guard hs (fun _ _ _ hm => hm) hs fun _ => ?_
  refine does_bind hs (orderly_windowLive _ hF.steady) fun open' => ?_
  refine does_guard hs (fun _ _ _ hm => hm) hs fun _ => ?_
  refine does_bind hs (orderly_windowLive _ hF.steady) fun authorized => ?_
  refine does_bind hs (does_message hF (by simp) hknown rfl rfl) fun result => ?_
  refine does_ofExcept _ (fun m m₁ hrely hinv hm => ⟨hs m m₁ hrely hinv hm.1, fun value hvalue => ?_⟩)
    (fun value hvalue _ _ hm => ⟨hm.1, hm.2 value hvalue⟩) fun _ _ hm => hm.1
  exact (lasts_answered _).stable m m₁ hrely hinv (hm.2 value hvalue)

/-- INTERNAL: `admit`, where a locked session is no failure, and the expiry after it. -/
theorem orderly_admitOrLocked (hF : T.Lasts F) (hgate : .gate ∈ H) : Orderly T H F (do
    match ← attempt admission with
    | .ok () => pure ()
    | .error .locked => pure ()
    | .error e => throw (.ofSession e)
    expireRequests.adapt .ofSession : App AgentRejection Unit) := by
  have hs := hF.stable
  have hexpire := orderly_adapt (δ := AgentRejection) .ofSession hs (orderly_expireRequests hF hgate)
  refine orderly_bind hs (orderly_attempt hs (orderly_admission hF hgate)) fun admitted => ?_
  cases admitted with
  | ok u => exact hexpire
  | error e =>
    cases e with
    | locked => exact hexpire
    | _ => exact orderly_throwBind hs

/-- INTERNAL: the launch of a review. -/
theorem orderly_launchSigned (owner : AgentOwner) (window : SubmitWindow) (id : String)
    (hF : T.Lasts F) (hfresh : ∀ m, F m → Fresh T.number m) :
    Orderly T [.gate] F (launchSigned owner window id) := by
  have hs := hF.stable
  have hgate : Lock.gate ∈ [Lock.gate] := List.mem_singleton.mpr rfl
  refine orderly_bind hs (orderly_update hF hgate fun _ _ _ => trivial) fun _ => ?_
  refine orderly_bind hs (orderly_update hF hgate fun _ _ _ => trivial) fun _ => ?_
  refine orderly_bind hs (orderly_withLock hF.steady (by simp) (by simp) ?_) fun _ => ?_
  · refine orderly_bind hs (orderly_windowLive window hF.steady) fun live => ?_
    refine orderly_choose hs (fun _ => orderly_plain hF.steady rfl) (fun _ => orderly_pure hs)
      fun launched => ?_
    refine orderly_ite (fun _ => ?_) fun _ => orderly_pure hs
    refine orderly_bind hs (orderly_operation hF (by simp) hfresh rfl) fun failed => ?_
    exact orderly_ite (fun _ => orderly_throw hs) fun _ => orderly_pure hs
  · refine orderly_bind hs (orderly_plain hF.steady rfl) fun epoch => ?_
    refine orderly_ite (fun _ => orderly_adapt _ hs (orderly_revoke hF hgate)) fun _ => ?_
    exact orderly_admitOrLocked hF hgate

/-- INTERNAL: **`submit_signed`.** -/
theorem does_submitSigned (E : Externals) (ownerUid : UInt32) (requestLifetime : ℕ) (uid : UInt32)
    (groups : List UInt32) (input : SignedSubmission) (hF : T.Lasts F)
    (hknown : ∀ m, F m → Known T.number (input.bindingId, input.nonce) m) :
    Does T [] F (submitSigned E ownerUid requestLifetime uid groups input)
      (fun _ m => F m ∧ Answered T.number (input.bindingId, input.nonce) m) F := by
  have hs := hF.stable
  have hend := hF.and (lasts_answered (T := T) (input.bindingId, input.nonce))
  refine does_closingIfUnavailable hF (fun _ => hend) ?_
  refine does_bind hs (orderly_plain hF.steady rfl) fun closing => ?_
  refine does_guard hs (fun _ _ _ hm => hm) hs fun _ => ?_
  refine does_withTryGate hF (fun _ => hend) (by simp) ?_
  refine does_bind hs (does_commitSigned E ownerUid requestLifetime uid groups input hF hknown)
    fun found => ?_
  obtain ⟨owner, window, review⟩ := found
  refine does_bind hs (does_of_orderly (orderly_launchSigned owner window review.id hend
    fun _ hm => hm.2.1) fun _ hm => hm.1) fun _ => ?_
  exact does_pure hend.stable fun _ _ hm => hm

/-! ## Status queries -/

/-- INTERNAL: the refresh of the authority. -/
theorem orderly_refresh (hF : T.Lasts F) (hgate : .gate ∈ H) : Orderly T H F refresh := by
  have hs := hF.stable
  have hrest : ∀ u : Unit, Orderly T H F (do
      match ← attempt admission with
      | .ok () => pure ()
      | .error .locked => pure ()
      | .error e => throw (.ofSession e)
      expireRequests.adapt .ofSession : App AgentRejection Unit) := fun _ =>
    orderly_admitOrLocked hF hgate
  refine orderly_bind hs (orderly_plain hF.steady rfl) fun authority => ?_
  refine orderly_ite (fun _ => ?_) fun _ => hrest ()
  refine orderly_bind hs (orderly_plain hF.steady rfl) fun epoch => ?_
  refine orderly_ite (fun _ => ?_) fun _ => hrest ()
  exact orderly_bind hs (orderly_adapt _ hs (orderly_revoke hF hgate)) hrest

/-- INTERNAL: the status as it is stored. -/
theorem orderly_storedStatus (owner : AgentOwner) (uid : UInt32) (groups : List UInt32)
    (requestId : String) (hF : T.Steady F) :
    Orderly T H F (storedStatus owner uid groups requestId) := by
  have hs := hF.stable
  refine orderly_bind hs (orderly_plain hF rfl) fun s => ?_
  refine orderly_bind hs (orderly_ofExcept _ hs) fun s => ?_
  split
  · exact orderly_pure hs
  · exact orderly_throw hs
  · exact orderly_throw hs
  · exact orderly_throw hs

/-- INTERNAL: whether a deadline or a revocation crossed the reading. -/
theorem orderly_crossed (requestId : String) (status : DirectStatus) (hF : T.Steady F) :
    Orderly T H F (crossed requestId status) := by
  have hs := hF.stable
  refine orderly_bind hs (orderly_plain hF rfl) fun now => ?_
  refine orderly_bind hs (orderly_plain hF rfl) fun authority => ?_
  refine orderly_ite (fun _ => ?_) fun _ => ?_
  · refine orderly_bind hs (orderly_plain hF rfl) fun epoch => ?_
    exact orderly_bind hs (orderly_pure hs) fun _ => orderly_pure hs
  · exact orderly_bind hs (orderly_pure hs) fun _ => orderly_pure hs

theorem orderly_project (status : DirectStatus) (hF : T.Stable F) :
    Orderly T H F (project status) := by
  cases status with
  | completed exitCode => exact orderly_ite (fun _ => orderly_pure hF) fun _ => orderly_throw hF
  | _ => exact orderly_pure hF

/-- INTERNAL: the loop of the final snapshot. -/
theorem orderly_snapshot (owner : AgentOwner) (token : ℕ) (uid : UInt32) (groups : List UInt32)
    (requestId : String) (rounds : ℕ) (hF : T.Lasts F) :
    Orderly T [.gate] F (snapshot owner token uid groups requestId rounds) := by
  have hs := hF.stable
  induction rounds with
  | zero => exact orderly_bind hs (orderly_plain hF.steady rfl) fun _ => orderly_throw hs
  | succ rounds ih =>
    refine orderly_bind hs (orderly_storedStatus owner uid groups requestId hF.steady)
      fun status => ?_
    refine orderly_bind hs (orderly_withLock hF.steady (by simp) (by simp) ?_) fun answer => ?_
    · refine orderly_bind hs (orderly_crossed requestId status hF.steady) fun crossed => ?_
      refine orderly_ite (fun _ => orderly_pure hs) fun _ => ?_
      refine orderly_bind hs (orderly_tokenLive _ hF.steady) fun live => ?_
      refine orderly_guard hs fun _ => ?_
      refine orderly_bind hs (orderly_plain hF.steady rfl) fun closing => ?_
      refine orderly_guard hs fun _ => ?_
      exact orderly_bind hs (orderly_project status hs) fun _ => orderly_pure hs
    · cases answer with
      | some answer => exact orderly_pure hs
      | none =>
        exact orderly_bind hs (orderly_refresh hF (List.mem_singleton.mpr rfl)) fun _ => ih

/-- INTERNAL: **`signed_agent_status`.** -/
theorem does_signedAgentStatus (E : Externals) (ownerUid uid : UInt32) (groups : List UInt32)
    (query : SignedStatusQuery) (rounds : ℕ) (hF : T.Lasts F)
    (hknown : ∀ m, F m → Known T.number (query.bindingId, query.nonce) m) :
    Does T [] F (signedAgentStatus E ownerUid uid groups query rounds)
      (fun _ m => F m ∧ Answered T.number (query.bindingId, query.nonce) m) F := by
  have hs := hF.stable
  have hgate : Lock.gate ∈ [Lock.gate] := List.mem_singleton.mpr rfl
  have hend := hF.and (lasts_answered (T := T) (query.bindingId, query.nonce))
  refine does_closingIfUnavailable hF (fun _ => hend) ?_
  refine does_bind hs (orderly_plain hF.steady rfl) fun closing => ?_
  refine does_guard hs (fun _ _ _ hm => hm) hs fun _ => ?_
  refine does_withTryGate hF (fun _ => hend) (by simp) ?_
  refine does_bind hs (orderly_plain hF.steady rfl) fun s => ?_
  refine does_bind hs (orderly_ofExcept _ hs) fun s => ?_
  refine does_bind hs (orderly_ofExcept _ hs) fun owner => ?_
  refine does_bind hs (orderly_adapt _ hs (orderly_agentToken _ hF.steady (by simp))) fun token => ?_
  refine does_bind hs (orderly_tokenLive _ hF.steady) fun live => ?_
  refine does_guard hs (fun _ _ _ hm => hm) hs fun _ => ?_
  refine does_bind hs (orderly_plain hF.steady rfl) fun closing => ?_
  refine does_guard hs (fun _ _ _ hm => hm) hs fun _ => ?_
  refine does_bind hs (orderly_refresh hF hgate) fun _ => ?_
  refine does_bind hs (does_message hF (by simp) hknown rfl rfl) fun result => ?_
  refine does_bind (G := fun _ m => F m ∧ Answered T.number (query.bindingId, query.nonce) m) hs
    (does_ofExcept _ (fun m m₁ hrely hinv hm => ⟨hs m m₁ hrely hinv hm.1, fun value hvalue => ?_⟩)
      (fun value hvalue _ _ hm => ⟨hm.1, hm.2 value hvalue⟩) fun _ _ hm => hm.1) fun _ => ?_
  · exact (lasts_answered _).stable m m₁ hrely hinv (hm.2 value hvalue)
  · refine does_conseq (orderly_bind hend.stable (orderly_refresh hend hgate) fun _ =>
      orderly_snapshot owner token uid groups query.requestId rounds hend) (fun _ _ hm => hm)
      (fun _ _ _ hm => hm) fun _ _ hm => hm.1

end Messages

end VaultAccess.Analysis
