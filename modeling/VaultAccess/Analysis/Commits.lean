import VaultAccess.Analysis.Authority

/-!
# Decisions

What the preparation and the commit of an approval do, and what every call keeps.
-/

set_option autoImplicit false

namespace VaultAccess.Analysis.Serial

open VaultAccess.Library VaultAccess.Model VaultAccess.Model.Application VaultAccess.Model.Serial

section Decisions

variable {E : Externals} {ownerUid : UInt32}

/-! ## Decisions -/

theorem quiet_tokenLive {ε : Type} (token : Option ℕ) : Quiet (tokenLive token : App ε Bool) := by
  cases token with
  | none => exact Quiet.pure _
  | some cell => exact (Quiet.act rfl).bind fun _ => Quiet.pure _

/-- INTERNAL: the agent of a request. -/
theorem quiet_requestAgentLive (id : String) : Quiet (requestAgentLive id) := by
  refine (Quiet.act rfl).bind fun authority => ?_
  split
  · exact Quiet.pure _
  · refine Quiet.withLock ((Quiet.act rfl).bind fun found => (Quiet.okOr _ _).bind fun cell =>
      (Quiet.act rfl).bind fun revoked => ?_)
    split_ifs
    · exact Quiet.throw _
    · exact Quiet.pure _

theorem quiet_checkOwner {ε : Type} (e : ε) (owner : UInt32) : Quiet (checkOwner ownerUid e owner) := by
  unfold checkOwner
  split_ifs
  · exact Quiet.throw _
  · exact Quiet.pure _

theorem quiet_stored : Quiet stored := (Quiet.act rfl).bind fun _ => Quiet.ofExcept _ _

theorem quiet_decisionPolicy (binding : ApprovalBinding) : Quiet (decisionPolicy ownerUid binding) := by
  refine quiet_stored.bind fun s => (Quiet.ofExcept _ _).bind fun current => ?_
  split_ifs
  · exact Quiet.throw _
  · exact quiet_stored.bind fun s => Quiet.okOr _ _

theorem quiet_directReview (owner : UInt32) (id : String) : Quiet (directReview ownerUid owner id) := by
  unfold directReview
  split_ifs
  · exact Quiet.throw _
  · exact quiet_stored.bind fun s => Quiet.okOr _ _

theorem quiet_claimToken (agent : Option String) : Quiet (claimToken agent) := by
  cases agent with
  | none => exact Quiet.pure _
  | some id => exact (Quiet.withLock ((Quiet.act rfl).bind fun _ => Quiet.okOr _ _)).bind fun _ => Quiet.pure _

theorem careful_admitted {f : SessionError → DirectRequestError} {α : Type} {x : App DirectRequestError α}
    (h : Careful E ownerUid x) :
    Careful E ownerUid (do admission.adapt f; expireRequests.adapt f; x) :=
  careful_admission.adapt.bind fun _ => (quiet_expireRequests.adapt f).careful.bind fun _ => h

theorem careful_stillDeciding (token : Option ℕ) : Careful E ownerUid (stillDeciding token) := by
  refine careful_admitted (Quiet.careful ((quiet_tokenLive token).bind fun live => ?_))
  split_ifs
  · exact Quiet.throw _
  · exact Quiet.pure _

/-- INTERNAL: the logins of a policy. -/
theorem careful_eligibleLogins (token : Option ℕ) (marker : String) (logins : List LoginCredentialDraft) :
    Careful E ownerUid (eligibleLogins token marker logins) := by
  induction logins with
  | nil => exact (Quiet.pure _).careful
  | cons login rest ih =>
    refine (Quiet.act rfl).careful.bind fun eligible => (careful_stillDeciding token).bind fun _ => ?_
    split_ifs
    · exact (Quiet.throw _).careful
    · exact ih

/-- INTERNAL: **the checks of an approval are calm where they succeed.** -/
theorem careful_approvalChecks (token : Option ℕ) (policy : OperationPolicy) :
    Careful E ownerUid (approvalChecks token policy) := by
  refine (Quiet.act rfl).careful.bind fun probe => (careful_stillDeciding token).bind fun _ =>
    (Quiet.ofExcept _ _).careful.bind fun _ => ?_
  refine Careful.bind ?_ fun _ => Careful.bind ?_ fun _ => careful_eligibleLogins token _ _
  · cases policy.create with
    | none => exact (Quiet.pure _).careful
    | some effect =>
      exact (Quiet.bind (Quiet.act rfl) fun _ => Quiet.ofExcept _ _).careful.bind fun _ =>
        careful_stillDeciding token
  · cases policy.ssh with
    | none => exact (Quiet.pure _).careful
    | some ssh =>
      refine (Quiet.act rfl).careful.bind fun eligible => (careful_stillDeciding token).bind fun _ => ?_
      split_ifs
      · exact (Quiet.throw _).careful
      · exact (Quiet.pure _).careful

/-- INTERNAL: a decision always hands a state over. -/
theorem decideDirect_state {s : ProviderState} {binding : ApprovalBinding} {approve : Bool}
    {method : Option ApprovalMethod} {now : ℕ} {handed : Handed DirectStatus}
    (h : Model.decideDirect ownerUid s binding approve method now = .ok handed) : handed.state ≠ none := by
  simp only [Model.decideDirect, bind, Except.bind, pure, Except.pure] at h
  split at h
  · simp at h
  split at h
  · simp at h
  split at h
  · split at h
    · simp at h
    split at h
    · simp at h
    rw [← Except.ok.inj h]
    simp
  · simp at h

/-- INTERNAL: a decision succeeds only if its write is committed, and is lost before the rename. -/
theorem decideDirect_call (store : Store) (binding : ApprovalBinding) (approve : Bool)
    (method : Option ApprovalMethod) (now : ℕ) (env : Env) (w : WriteOutcome) (unreadable : Bool) :
    ((store.call E ownerUid (.decideDirect binding approve method now) env w unreadable).2.isOk = true →
        w = .committed) ∧
      ∀ diagnostic, w = .failedBefore diagnostic →
        (store.call E ownerUid (.decideDirect binding approve method now) env w unreadable).1 = store := by
  unfold Store.call
  cases unreadable with
  | true => simp [Except.isOk, Except.toBool]
  | false =>
    simp only [Bool.false_eq_true, if_false]
    cases store.readState E ownerUid env.disk with
    | error e => simp [Except.isOk, Except.toBool]
    | ok s =>
      simp only [Op.eval]
      cases heval : Model.decideDirect ownerUid s binding approve method now with
      | error e => simp [Except.isOk, Except.toBool]
      | ok handed =>
        obtain ⟨s', hs'⟩ := Option.ne_none_iff_exists'.mp (decideDirect_state heval)
        simp only [hs', Store.writeState]
        by_cases hpoisoned : store.poisoned = true
        · simp [hpoisoned, Except.isOk, Except.toBool]
        by_cases hvalid : (!s'.validateForOwner E env.disk ownerUid) = true
        · simp [hpoisoned, hvalid, Except.isOk, Except.toBool]
        cases w <;> simp [hpoisoned, hvalid, Except.isOk, Except.toBool]

/-- The approval being committed is of the current generation. -/
def Deciding (p : PreparedApproval) (m : Memory) : Prop :=
  (view m).deciding = some p ∧ p.generation = (view m).generation

theorem stable_deciding (p : PreparedApproval) : Stable (Deciding p) := by
  intro m m₁ hcalm hm
  unfold Deciding
  rw [hcalm.view]
  exact hm

/-- INTERNAL: an authorized moment is before the deadlines. -/
theorem before_of_stillAuthorized {p : PreparedApproval} {binding : ApprovalBinding} {m : Shared}
    {d : Decision} (h : stillAuthorized p.companionDeadline binding m = true)
    (hrequest : d.requestDeadline = m.authority.requestDeadlines binding.requestId)
    (hsession : d.sessionDeadline = m.authority.deadline) : Before d p m.clock := by
  simp only [stillAuthorized, Bool.and_eq_true] at h
  obtain ⟨⟨⟨⟨hcompanion, -⟩, -⟩, hrequested⟩, hopen⟩ := h
  refine ⟨fun deadline hdeadline => ?_, ?_, ?_⟩
  · rw [hdeadline] at hcompanion
    simpa using hcompanion
  · rw [hrequest]
    obtain ⟨deadline, hdeadline, hlt⟩ := Option.any_eq_true _ _ |>.mp hrequested
    exact ⟨deadline, hdeadline, of_decide_eq_true hlt⟩
  · rw [hsession]
    obtain ⟨deadline, hdeadline, hlt⟩ := Option.any_eq_true _ _ |>.mp hopen
    exact ⟨deadline, hdeadline, of_decide_eq_true hlt⟩

/-- INTERNAL: a guarded write that is not lost before the rename was authorized before it, and one
that is committed was authorized after it too. -/
theorem guardedOutcome_spec (authorized still : Bool) (outcome : WriteOutcome) :
    (authorized = false → ∃ diagnostic, guardedOutcome authorized still outcome = .failedBefore diagnostic) ∧
      (guardedOutcome authorized still outcome = .committed → still = true) := by
  unfold guardedOutcome
  constructor
  · rintro rfl
    exact ⟨_, rfl⟩
  · intro h
    split_ifs at h with hbefore hafter
    rw [h] at hafter
    simpa using hafter

/-- INTERNAL: what the history records of a decision. -/
theorem note_decideDirect (p : PreparedApproval) (approve : Bool) (method : Option ApprovalMethod) (now : ℕ)
    {moment : Moment} {answer : Except DirectRequestError DirectStatus} {m : Memory} {shared : Shared}
    (hm : Sound m) (hdeciding : Deciding p m)
    (hact : performAct E ownerUid 0 (.provider (.decideDirect p.binding approve method now))
      (before (.provider (.decideDirect p.binding approve method now)) moment m).2
      (before (.provider (.decideDirect p.binding approve method now)) moment m).1 = some (answer, shared)) :
    note m.deciding (m.shared.clock + moment.elapsed)
        (before (.provider (.decideDirect p.binding approve method now)) moment m).1 shared m.history
        (.provider (.decideDirect p.binding approve method now)) answer = m.history ∨
      ∃ d, Timely d ∧ note m.deciding (m.shared.clock + moment.elapsed)
        (before (.provider (.decideDirect p.binding approve method now)) moment m).1 shared m.history
        (.provider (.decideDirect p.binding approve method now)) answer =
          { m.history with decided := m.history.decided ++ [d] } := by
  obtain ⟨hsame, -, hanswer⟩ := performAct_provider hact
  obtain ⟨hok, hlost⟩ := @decideDirect_call E ownerUid
    (before (.provider (.decideDirect p.binding approve method now)) moment m).1.authority.store
    p.binding approve method now
    (before (.provider (.decideDirect p.binding approve method now)) moment m).2.env
    (before (.provider (.decideDirect p.binding approve method now)) moment m).2.outcome
    (before (.provider (.decideDirect p.binding approve method now)) moment m).2.unreadable
  rw [← hanswer] at hok
  have hsome : m.deciding = some p := hdeciding.1
  have hcompanion : m.deciding.bind (·.companionDeadline) = p.companionDeadline := by rw [hsome]; rfl
  obtain ⟨hbefore, hafter⟩ := guardedOutcome_spec
    (stillAuthorized (m.deciding.bind (·.companionDeadline)) p.binding
      (pass moment.elapsed moment.closes m.shared))
    (stillAuthorized (m.deciding.bind (·.companionDeadline)) p.binding
      (pass moment.writing moment.closesWriting (pass moment.elapsed moment.closes m.shared)))
    moment.input.outcome
  simp only [note]
  split_ifs with hstored
  · refine Or.inr ⟨_, ⟨p, hsome, rfl, ?_, ?_, ?_⟩, rfl⟩
    · exact hdeciding.2.trans hm.session.counted
    · refine before_of_stillAuthorized (m := pass moment.elapsed moment.closes m.shared) ?_ rfl rfl
      rw [← hcompanion]
      by_contra hno
      obtain ⟨diagnostic, hfailed⟩ := hbefore (Bool.eq_false_of_not_eq_true hno)
      have hstore := hlost diagnostic hfailed
      rcases Bool.or_eq_true _ _ |>.mp hstored with haccepted | hchanged
      · exact absurd ((hok haccepted).symm.trans hfailed) (by simp)
      · exact of_decide_eq_true hchanged (by rw [hsame, hstore])
    · intro haccepted
      refine before_of_stillAuthorized
        (m := pass moment.writing moment.closesWriting (pass moment.elapsed moment.closes m.shared)) ?_ rfl rfl
      rw [← hcompanion]
      exact hafter (hok haccepted)
  · exact Or.inl rfl

/-- INTERNAL: **a decision that is stored is timely.** -/
theorem does_decideDirect {ε : Type} (p : PreparedApproval) (approve : Bool) (method : Option ApprovalMethod)
    (now : ℕ) : Does E ownerUid (Deciding p)
      (act (.provider (.decideDirect p.binding approve method now)) :
        App ε (Except DirectRequestError DirectStatus)) fun _ _ => True := by
  refine Does.act fun moment answer m m₁ hperform hm hdeciding => ⟨?_, trivial⟩
  obtain ⟨hphase, -⟩ := perform_later hperform hm.phase
  obtain ⟨shared, hact, rfl⟩ := perform_eq hperform
  obtain ⟨hsame, -, hanswer⟩ := performAct_provider hact
  obtain ⟨hauthority, -⟩ := before_spec (.provider (.decideDirect p.binding approve method now)) moment m
  refine ⟨hphase, ?_⟩
  have hsession := hm.session
  simp only [view, hsame, hauthority]
  rcases note_decideDirect p approve method now hm hdeciding hact with hnote | ⟨d, hd, hnote⟩
  · rw [hnote]
    exact hsession
  · rw [hnote]
    exact { granted := hsession.granted
            closed := hsession.closed
            cleaned := hsession.cleaned
            counted := hsession.counted
            decided := fun d' hd' => by
              rcases List.mem_append.mp hd' with hold | hnew
              · exact hsession.decided d' hold
              · rw [List.mem_singleton.mp hnew]
                exact hd
            prepared := hsession.prepared }

/-- INTERNAL: the decision under the last check of the token. -/
theorem does_decideLive (p : PreparedApproval) (approve : Bool) (method : Option ApprovalMethod)
    (token : Option ℕ) (now : ℕ) :
    Does E ownerUid (Deciding p) (do
      if !(← tokenLive token) then throw .unauthorized
      act (.provider (.decideDirect p.binding approve method now)) :
        App DirectRequestError (Except DirectRequestError DirectStatus)) fun _ _ => True := by
  refine Does.bind ((quiet_tokenLive token).keeps (stable_deciding p)) (fun live => ?_) fun _ _ _ _ => trivial
  split_ifs
  · exact Does.throw fun _ _ _ => trivial
  · exact does_decideDirect p approve method now

/-- INTERNAL: the decision itself. -/
theorem does_decide (p : PreparedApproval) (approve : Bool) (method : Option ApprovalMethod)
    (token : Option ℕ) :
    Does E ownerUid (Deciding p) (Serial.decide p approve method token) fun _ _ => True := by
  have hs := stable_deciding p
  refine Does.bind ((Quiet.act rfl).keeps hs) (fun authority => ?_) fun _ _ _ _ => trivial
  refine Does.bind ((Quiet.okOr _ _).keeps hs) (fun _ => ?_) fun _ _ _ _ => trivial
  refine Does.bind ((Quiet.okOr _ _).keeps hs) (fun _ => ?_) fun _ _ _ _ => trivial
  refine Does.bind ((Quiet.act rfl).keeps hs) (fun read => ?_) fun _ _ _ _ => trivial
  refine Does.bind ((Quiet.ofExcept _ _).keeps hs) (fun now => ?_) fun _ _ _ _ => trivial
  unfold withLockIf
  split_ifs
  · exact Does.withLock hs (fun _ _ _ _ h => h) (does_decideLive p approve method token now)
      fun _ _ => trivial
  · exact does_decideLive p approve method token now

/-- INTERNAL: the deadline of the companion. -/
theorem quiet_companionCheck (deadline : Option ℕ) : Quiet (companionCheck deadline) := by
  cases deadline with
  | none => exact Quiet.pure _
  | some deadline =>
    refine (Quiet.act rfl).bind fun now => ?_
    split_ifs
    · exact Quiet.throw _
    · exact Quiet.pure _

/-- INTERNAL: what a commit checks after the generation. -/
theorem quiet_commitToken (p : PreparedApproval) : Quiet (commitToken ownerUid p) := by
  have htoken : Quiet (do
      let token ← claimToken (p.binding.agentOwner.map (·.bindingId))
      if !(← tokenLive token) then throw .unauthorized else pure token :
        App DirectRequestError (Option ℕ)) := by
    refine (quiet_claimToken _).bind fun token => (quiet_tokenLive token).bind fun live => ?_
    split_ifs
    · exact Quiet.throw _
    · exact Quiet.pure _
  refine (quiet_companionCheck _).bind fun _ => ?_
  split_ifs
  · exact (quiet_checkOwner _ _).bind fun _ => htoken
  · exact htoken

/-- INTERNAL: the checks of a commit leave the current generation. -/
theorem does_commitChecks (p : PreparedApproval) :
    Does E ownerUid (fun m => (view m).deciding = some p) (commitChecks ownerUid p)
      fun result m => result.isOk = true → Deciding p m := by
  intro m₀ hm₀ hdeciding
  refine Does.bind (P := Calm m₀) (careful_admission.adapt m₀) (fun _ => ?_) (fun e m _ _ h => ?_)
    m₀ hm₀ (Calm.refl m₀)
  · refine Does.imp ?_ (fun m hm => hm rfl) fun _ _ _ h => h
    refine Does.bind ((quiet_expireRequests.adapt _).does m₀) (fun _ => ?_) fun e m _ _ h => ?_
    · refine Does.bind (does_readAuthority m₀) (fun authority => ?_) fun e m _ hm => by simp at hm
      simp only [Except.ok.injEq, exists_eq_left']
      refine Does.extract (fun m hm => hm.2.2.1) fun hgeneration => ?_
      refine Does.imp ?_ (fun m hm => hm.2.2.2) fun _ _ _ h => h
      split_ifs with hsame
      · exact Does.throw fun m _ _ h => by simp [Except.isOk, Except.toBool] at h
      · refine ((quiet_commitToken p).does m₀).imp (fun _ hm => hm) fun result m _ hcalm => fun _ => ?_
        refine stable_deciding p m₀ m hcalm ⟨hdeciding, ?_⟩
        rw [← hgeneration]
        exact (not_not.mp hsame).symm
    · simp [Except.isOk, Except.toBool] at h
  · simp [Except.isOk, Except.toBool] at h

/-- INTERNAL: what a commit does with the answer of the store. -/
theorem fine_afterDecision (result : Except DirectRequestError DirectStatus) :
    Fine E ownerUid (afterDecision result) := by
  have htail : Fine E ownerUid (do
      admission.adapt .ofSession
      expireRequests.adapt .ofSession
      raise result : App DirectRequestError DirectStatus) :=
    (careful_admitted (Quiet.ofExcept _ result).careful).fine
  unfold afterDecision
  split_ifs
  · exact quiet_closeAdmission.fine.bind fun _ => (Fine.attempt fine_revoke).bind fun _ => htail
  · exact htail

/-- INTERNAL: **`commit_decision` keeps the invariant.** -/
theorem does_commitDecision (p : PreparedApproval) (approve : Bool) (method : Option ApprovalMethod) :
    Does E ownerUid (fun m => (view m).deciding = some p) (Serial.commitDecision ownerUid p approve method)
      fun _ _ => True := by
  have hs := stable_deciding p
  have htail : ∀ token, Does E ownerUid (Deciding p)
      (do afterDecision (← Serial.decide p approve method token) : App DirectRequestError DirectStatus)
      fun _ _ => True := fun token =>
    Does.bind (does_decide p approve method token) (fun result => fine_afterDecision result)
      fun _ _ _ _ => trivial
  refine Does.withLock (fun m m₁ hcalm hm => by rw [hcalm.view]; exact hm) (fun _ _ _ _ h => h) ?_
    fun _ _ => trivial
  refine Does.bind (does_commitChecks p) (fun token => ?_) fun _ _ _ _ => trivial
  refine Does.imp ?_ (fun m hm => hm rfl) fun _ _ _ h => h
  refine Does.bind ((quiet_decisionPolicy p.binding).keeps hs) (fun policy => ?_) fun _ _ _ _ => trivial
  split_ifs
  · refine Does.bind ((careful_approvalChecks token policy).keeps hs) (fun _ => ?_) fun _ _ _ _ => trivial
    exact (htail token).imp (fun m hm => hm rfl) fun _ _ _ h => h
  · exact htail token

/-! ## Preparations -/

/-- The approval is of the current generation. -/
def Prepared {ε : Type} (result : Except ε PreparedApproval) (m : Memory) : Prop :=
  ∀ approval, result = .ok approval → approval.generation = (view m).generation

theorem stable_prepared {ε : Type} (result : Except ε PreparedApproval) : Stable (Prepared result) := by
  intro m m₁ hcalm hm
  unfold Prepared
  rw [hcalm.view]
  exact hm

theorem prepared_error {ε : Type} (e : ε) (m : Memory) : Prepared (.error e) m := by
  intro approval h
  simp at h

/-- INTERNAL: the generation as it is read. -/
theorem does_readGeneration {ε : Type} :
    Does E ownerUid (fun _ => True) (act .readAuthority : App ε Authority) fun result m =>
      ∃ a, result = .ok a ∧ a.generation = (view m).generation := by
  intro m hm _
  refine (does_readAuthority m m hm (Calm.refl m)).mono fun result m₁ _ h => ?_
  obtain ⟨a, hresult, -, -, hgeneration, hcalm⟩ := h
  refine ⟨a, hresult, ?_⟩
  rw [hcalm.view]
  exact hgeneration

/-- INTERNAL: an approval is prepared at the current generation. -/
theorem does_prepareApproval (owner : UInt32) (id : String) :
    Does E ownerUid (fun _ => True) (Serial.prepareApproval ownerUid owner id) Prepared := by
  refine Does.bind (quiet_checkOwner _ _).fine (fun _ => ?_) fun e m _ _ => prepared_error e m
  refine Does.withLock (fun _ _ _ h => h) stable_prepared ?_ fun m _ => prepared_error _ m
  refine Does.bind careful_admission.fine.adapt (fun _ => ?_) fun e m _ _ => prepared_error e m
  refine Does.bind quiet_expireRequests.fine.adapt (fun _ => ?_) fun e m _ _ => prepared_error e m
  refine Does.bind (quiet_requestAgentLive id).fine (fun _ => ?_) fun e m _ _ => prepared_error e m
  refine Does.bind quiet_stored.fine (fun s => ?_) fun e m _ _ => prepared_error e m
  refine Does.bind (Quiet.ofExcept _ _).fine (fun binding => ?_) fun e m _ _ => prepared_error e m
  refine Does.bind (quiet_decisionPolicy binding).fine (fun policy => ?_) fun e m _ _ => prepared_error e m
  refine Does.bind does_readGeneration (fun authority => ?_) fun e m _ _ => prepared_error e m
  refine Does.pure fun m _ hm approval happroval => ?_
  obtain ⟨a, ha, hgeneration⟩ := hm
  rw [← Except.ok.inj happroval, ← hgeneration, Except.ok.inj ha]

/-- INTERNAL: an approval for a companion is prepared at the current generation. -/
theorem does_companionPrepare (id : String) (review : DirectReview) (generation deadline : ℕ) :
    Does E ownerUid (fun _ => True) (Serial.companionPrepare ownerUid id review generation deadline)
      Prepared := by
  refine Does.withLock (fun _ _ _ h => h) stable_prepared ?_ fun m _ => prepared_error _ m
  refine Does.bind careful_admission.fine.adapt (fun _ => ?_) fun e m _ _ => prepared_error e m
  refine Does.bind quiet_expireRequests.fine.adapt (fun _ => ?_) fun e m _ _ => prepared_error e m
  refine Does.bind (quiet_requestAgentLive id).fine (fun _ => ?_) fun e m _ _ => prepared_error e m
  refine Does.bind does_readGeneration (fun authority => ?_) fun e m _ _ => prepared_error e m
  by_cases hgeneration : authority.generation ≠ generation
  · rw [if_pos hgeneration]
    exact fun m hm _ => ⟨hm, prepared_error _ m⟩
  rw [if_neg hgeneration]
  have hs : Stable fun m => generation = (view m).generation :=
    fun m m₁ hcalm hm => hm.trans (congrArg (·.generation) hcalm.view).symm
  refine Does.imp (P := fun m => generation = (view m).generation) ?_ (fun m hm => ?_) fun _ _ _ h => h
  · refine Does.bind ((quiet_directReview ownerUid id).keeps hs) (fun current => ?_)
      fun e m _ _ => prepared_error e m
    by_cases hreview : current ≠ review
    · rw [if_pos hreview]
      exact fun m hm _ => ⟨hm, prepared_error _ m⟩
    rw [if_neg hreview]
    refine Does.bind (quiet_stored.keeps hs) (fun s => ?_) fun e m _ _ => prepared_error e m
    refine Does.bind ((Quiet.ofExcept _ _).keeps hs) (fun binding => ?_) fun e m _ _ => prepared_error e m
    refine Does.bind ((quiet_decisionPolicy binding).keeps hs) (fun policy => ?_)
      fun e m _ _ => prepared_error e m
    refine Does.pure fun m _ hm approval happroval => ?_
    rw [← Except.ok.inj happroval]
    exact hm
  · obtain ⟨a, ha, hcurrent⟩ := hm
    rw [← hcurrent, ← Except.ok.inj ha]
    exact (not_not.mp hgeneration).symm

/-! ## Calls -/

/-- What a call that prepared an approval leaves. -/
def Answered (a : Answer) (m : Memory) : Prop :=
  ∀ approval, a = .prepared approval → approval.generation = (view m).generation

theorem keeps_answer {ε α : Type} {x : App ε α} {P : Memory → Prop} {Q : Except ε α → Memory → Prop}
    (h : Does E ownerUid P x Q) (m : Memory) (hm : Sound m) (hP : P m) :
    Prog.Keeps (perform E ownerUid) Sound (answer x) Answered m := by
  refine Prog.Keeps.bind ((h m hm hP).mono fun result m₁ hm₁ _ => ?_)
  cases result <;> exact ⟨hm₁, fun approval happroval => by simp at happroval⟩

/-- INTERNAL: the answer of a preparation. -/
theorem keeps_preparation {ε : Type} {x : App ε PreparedApproval}
    (h : Does E ownerUid (fun _ => True) x Prepared) (m : Memory) (hm : Sound m) :
    Prog.Keeps (perform E ownerUid) Sound (preparation x) Answered m := by
  refine Prog.Keeps.bind ((h m hm trivial).mono fun result m₁ hm₁ hresult => ?_)
  cases result with
  | ok approval =>
    refine ⟨hm₁, fun approval' happroval => hresult approval' ?_⟩
    rw [Answer.prepared.inj happroval]
  | error e => exact ⟨hm₁, fun approval happroval => by simp at happroval⟩

/-- INTERNAL: **every call keeps the invariant at every action.** -/
theorem keeps_code (call : Serial.Call) (m : Memory) (hm : Sound m) (hdeciding : m.deciding = call.deciding) :
    Prog.Keeps (perform E ownerUid) Sound (code ownerUid call) Answered m := by
  cases call with
  | authenticate => exact keeps_answer fine_authenticate m hm trivial
  | lock => exact keeps_answer fine_lock m hm trivial
  | shutdown => exact keeps_answer (quiet_closeAdmission.fine.bind fun _ => fine_lock) m hm trivial
  | closeAdmission => exact keeps_answer (quiet_closeAdmission (ε := SessionError)).fine m hm trivial
  | status => exact keeps_answer fine_status m hm trivial
  | operation rest =>
    exact keeps_answer (Fine.withLock (careful_admission.fine.bind fun _ => fine_steps rest)) m hm trivial
  | prepareApproval owner id => exact keeps_preparation (does_prepareApproval owner id) m hm
  | companionPrepare id review generation deadline =>
    exact keeps_preparation (does_companionPrepare id review generation deadline) m hm
  | commitDecision prepared approve method =>
    exact keeps_answer (does_commitDecision prepared approve method) m hm hdeciding

theorem Sound.deciding {m : Memory} (h : Sound m) (deciding : Option PreparedApproval) :
    Sound { m with deciding := deciding } :=
  ⟨h.phase, h.session.granted, h.session.closed, h.session.cleaned, h.session.counted, h.session.decided,
    h.session.prepared⟩

/-- INTERNAL: a call leaves a sound memory, wherever it stops. -/
theorem runCall_sound {mem mem' : Memory} {result : Option Answer} (call : Serial.Call)
    (moments : List Moment) (h : Sound mem) (hrun : runCall E ownerUid call moments mem = (result, mem')) :
    Sound mem' ∧ ∀ a, result = some a → Answered a mem' := by
  have hcode : Prog.Keeps (perform E ownerUid) Sound (Serial.code ownerUid call) Answered _ :=
    keeps_code call _ (h.deciding call.deciding) rfl
  have hkeeps := hcode.runFor moments
  unfold runCall at hrun
  rw [hrun] at hkeeps
  exact hkeeps

/-- INTERNAL: what is kept of an answer. -/
theorem Sound.keep {m : Memory} (h : Sound m) (a : Answer) (ha : Answered a m) : Sound (m.keep a) := by
  cases a with
  | done => exact h
  | refused => exact h
  | prepared approval =>
    refine ⟨h.phase, h.session.granted, h.session.closed, h.session.cleaned, h.session.counted,
      h.session.decided, fun p n hp => ?_⟩
    rcases List.mem_append.mp hp with hold | hnew
    · exact h.session.prepared p n hold
    · obtain ⟨rfl, rfl⟩ := Prod.mk.inj (List.mem_singleton.mp hnew)
      exact (ha _ rfl).trans h.session.counted

theorem sound_fresh (store : Store) (clock : ℕ) (hphase : InPhase store.durable) :
    Sound (Serial.fresh store clock) :=
  ⟨hphase, fun d hd => by simp [view, Serial.fresh, Shared.fresh] at hd, fun _ => rfl,
    fun h => by simp [view, Serial.fresh, Shared.fresh] at h, rfl,
    fun d hd => absurd hd List.not_mem_nil, fun p n hp => absurd hp List.not_mem_nil⟩

/-- INTERNAL: **every memory that is reached is sound.** -/
theorem reached_sound {mem : Memory} (h : Serial.Reached E ownerUid mem) : Sound mem := by
  induction h with
  | start env outcome clock => exact sound_fresh _ clock (step_inPhase _ _ initial_inPhase)
  | call hreached call moments hrun ih =>
    obtain ⟨hsound, hanswer⟩ := runCall_sound call moments ih hrun
    exact hsound.keep _ (hanswer _ rfl)
  | restart hreached call moments hrun env outcome clock ih =>
    exact sound_fresh _ clock (step_inPhase _ _ (runCall_sound call moments ih hrun).1.phase)

end Decisions

end VaultAccess.Analysis.Serial
