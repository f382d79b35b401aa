import VaultAccess.Analysis.Scenario

/-!
# A run on concrete inputs

A process starts, locks once, opens a session, provisions an operation and approves one
request for it. The runs that show where a statement needs its conditions go on from here.
-/

set_option autoImplicit false

namespace VaultAccess.Analysis

open VaultAccess.Library VaultAccess.Model VaultAccess.Model.Application

section Reached

variable (E : Externals) (ownerUid : UInt32) (requestLifetime : ℕ)

/-- A run leads to the memory, nobody holds a mutex, and the threads so far have numbers below
`n`. -/
def Reached (n : ℕ) (m : Shared) : Prop :=
  ∃ events log, (runSystem E ownerUid requestLifetime events).mem = held 0 [] log m ∧
    ∀ x ∈ log, x.1 < n

variable {E ownerUid requestLifetime} {ε α : Type}

theorem held_nil (t u : ℕ) (log : List (ℕ × Mark)) (m : Shared) :
    held t [] log m = held u [] log m := by
  simp [held]

/-- INTERNAL: a thread begins and takes steps alone. -/
theorem run_steps {n : ℕ} {m m₁ : Shared} {log : List (ℕ × Mark)} {sys : System Act Ans Shared}
    {inputs : List Input} {q : Prog Act Ans Unit} (call : Call) (hmem : sys.mem = held n [] log m)
    (hlog : ∀ x ∈ log, x.1 < n)
    (h : Prog.Steps (machine E ownerUid requestLifetime) n
      (Application.code E ownerUid requestLifetime call)
      (held n [] (log ++ [(n, .began call (call.message.any (m.admitted.contains ·)))]) m) inputs q
      m₁) :
    sys.run (machine E ownerUid requestLifetime)
      (.spawn n call :: inputs.map (SystemEvent.run n)) = System.set ⟨m₁, sys.threads⟩ n q := by
  have hfresh : (held n [] log m).log.any (·.1 = n) = false := by
    rw [List.any_eq_false]
    intro x hx
    simpa using (hlog x hx).ne
  have hspawn : sys.step (machine E ownerUid requestLifetime) (.spawn n call) = System.set
      ⟨held n [] (log ++ [(n, .began call (call.message.any (m.admitted.contains ·)))]) m,
        sys.threads⟩ n (Application.code E ownerUid requestLifetime call) := by
    simp only [System.step, machine, hmem, hfresh, Bool.false_eq_true, if_false]
    rfl
  have hrun := h.run sys.threads
  unfold System.run at hrun ⊢
  rw [List.foldl_cons, hspawn, hrun]

/-- INTERNAL: **a thread begins and goes as far as it comes alone.** -/
theorem run_goes {n : ℕ} {m m₁ : Shared} {H : List Lock} {opens : Bool} {log : List (ℕ × Mark)}
    {sys : System Act Ans Shared} {goal : Prog Act Ans Unit → Prop} (call : Call)
    (hmem : sys.mem = held n [] log m) (hlog : ∀ x ∈ log, x.1 < n)
    (h : Goes ⟨E, ownerUid, requestLifetime, n⟩ opens [] m
      (Application.code E ownerUid requestLifetime call) goal H m₁) :
    ∃ events new q, OwnMarks n opens new ∧ goal q ∧
      sys.run (machine E ownerUid requestLifetime) events = System.set
        ⟨held n H (log ++ (n, .began call (call.message.any (m.admitted.contains ·))) :: new) m₁,
          sys.threads⟩ n q := by
  obtain ⟨inputs, new, q, hnew, hgoal, hsteps⟩ :=
    h (log ++ [(n, .began call (call.message.any (m.admitted.contains ·)))])
  refine ⟨_, new, q, hnew, hgoal, (run_steps call hmem hlog hsteps).trans ?_⟩
  rw [List.append_assoc]
  rfl

theorem runSystem_append (events later : List (SystemEvent Input ℕ Restart Call)) :
    runSystem E ownerUid requestLifetime (events ++ later) =
      (runSystem E ownerUid requestLifetime events).run (machine E ownerUid requestLifetime) later :=
  System.run_append _ _ _

/-- INTERNAL: the action a thread came to is performed after a while. -/
theorem run_performed {events : List (SystemEvent Input ℕ Restart Call)} {t : ℕ} {a : Act}
    {next : Ans a → Prog Act Ans Unit} {answer : Ans a} {m m₁ : Shared}
    {threads : ℕ → Option (Prog Act Ans Unit)} (elapsed : ℕ) (input : Input)
    (hsys : runSystem E ownerUid requestLifetime events = System.set ⟨m, threads⟩ t (.act a next))
    (hperform : performAct E ownerUid t a input { m with clock := m.clock + elapsed } =
      some (answer, m₁)) :
    (runSystem E ownerUid requestLifetime (events ++ [.world elapsed, .run t input])).mem = m₁ := by
  rw [runSystem_append, hsys]
  simp [System.run, System.step, System.set, System.advance, machine, hperform]

/-- INTERNAL: time passes. -/
theorem Reached.passes {n : ℕ} {m : Shared} (h : Reached E ownerUid requestLifetime n m) (elapsed : ℕ) :
    Reached E ownerUid requestLifetime n { m with clock := m.clock + elapsed } := by
  obtain ⟨events, log, hmem, hlog⟩ := h
  refine ⟨events ++ [.world elapsed], log, ?_, hlog⟩
  rw [runSystem_append]
  simp only [System.run, List.foldl_cons, List.foldl_nil, System.step, machine, hmem]
  rfl

/-- INTERNAL: a call that ends leads to the next memory. -/
theorem Reached.ends {n : ℕ} {m m₁ : Shared} (h : Reached E ownerUid requestLifetime n m) (call : Call)
    (hgoes : Goes ⟨E, ownerUid, requestLifetime, n⟩ true [] m
      (Application.code E ownerUid requestLifetime call) (· = .done ()) [] m₁) :
    Reached E ownerUid requestLifetime (n + 1) m₁ := by
  obtain ⟨events, log, hmem, hlog⟩ := h
  obtain ⟨events', new, q, hnew, -, hrun⟩ := run_goes call (hmem.trans (held_nil 0 n log m)) hlog hgoes
  refine ⟨events ++ events', log ++ (n, .began call (call.message.any (m.admitted.contains ·))) :: new,
    ?_, ?_⟩
  · rw [runSystem_append, hrun]
    exact held_nil n 0 _ m₁
  · intro x hx
    rcases List.mem_append.mp hx with hx | hx
    · exact Nat.lt_succ_of_lt (hlog x hx)
    · rcases List.mem_cons.mp hx with rfl | hx
      · exact Nat.lt_succ_self n
      · rw [(hnew x hx).1]
        exact Nat.lt_succ_self n

/-- INTERNAL: so does a call that returns and does nothing else. -/
theorem Reached.returns {n : ℕ} {m m₁ : Shared} {x : App ε α} {value : α}
    {f : Except ε α → Prog Act Ans Unit} (h : Reached E ownerUid requestLifetime n m) (call : Call)
    (hcode : Application.code E ownerUid requestLifetime call = x.run >>= f)
    (hf : f (.ok value) = .done ())
    (hx : Returns ⟨E, ownerUid, requestLifetime, n⟩ true [] m x value m₁) :
    Reached E ownerUid requestLifetime (n + 1) m₁ := by
  refine h.ends call ?_
  rw [hcode]
  refine Goes.bind hx ?_
  rw [hf]
  exact fun log => ⟨[], [], _, fun _ h => absurd h List.not_mem_nil, rfl, by
    rw [List.append_nil]
    exact .refl _ _⟩

end Reached

namespace Sample

variable (E : Externals) (requestLifetime : ℕ)

theorem locks (n : ℕ) (hn : n + 1 < u64Size) : (Op.lock).eval E 1000 env (atEpoch n recovered) =
    .ok ⟨(), some (atEpoch (n + 1) recovered)⟩ := by
  simp [Op.eval, Model.lock, invalidate, checkedAdd, atEpoch, recovered, ProviderState.initial,
    updateRequests, hn, bind, Except.bind, pure, Except.pure]

theorem stateInv_recovered (n : ℕ) : StateInv E 1000 (atEpoch n recovered) := by
  have h := (first_start E).2
  exact { h with requests := fun r hr => absurd hr List.not_mem_nil }

/-- INTERNAL: a lock of a store without requests is committed. -/
theorem call_lock (n : ℕ) (hn : n + 1 < u64Size) :
    Store.call E 1000 ⟨atEpoch n recovered, false⟩ .lock env .committed false =
      (⟨atEpoch (n + 1) recovered, false⟩, .ok ()) := by
  have himages : ImagesUnchanged E env.disk (atEpoch n recovered) :=
    imagesUnchanged E _ (Or.inl rfl)
  have hargs : CallerArgs env (atEpoch n recovered) .lock := trivial
  have htime : RecordsWhileExecuting (atEpoch n recovered) .lock := trivial
  exact (call_commits (stateInv_recovered E n) himages hargs htime (locks E n hn)).1

/-- The memory of a new process, after its first lock, and after an authentication. -/
def begun : Shared := .fresh ⟨atEpoch 1 recovered, false⟩ 0 [] []
def locked : Shared := revoked { begun with revocationEpoch := 1 } ⟨atEpoch 2 recovered, false⟩
def opened : Shared := unlocked locked ⟨atEpoch 3 recovered, false⟩

/-- The memory with one approved request, whose deadline is at 50; the session ends at 100. -/
def ready : Shared :=
  { opened with authority := { opened.authority with
      store := ⟨holdingAt E 3 (approvedAt E 3), false⟩
      requestDeadlines := Function.update (fun _ => none) requestId (some 50) } }

/-- INTERNAL: a session opens. -/
theorem reached_opened : Reached E 1000 requestLifetime 2 opened := by
  have hbegun : Reached E 1000 requestLifetime 0 begun := by
    refine ⟨[.restart ⟨env, .committed, 0⟩], [], ?_, fun _ h => absurd h List.not_mem_nil⟩
    show Shared.fresh (step E 1000 Store.initial (.restart env .committed)) 0 [] [] = _
    rw [(first_start E).1]
    simp [held, begun, Shared.fresh, atEpoch, recovered]
  have hlocked : Reached E 1000 requestLifetime 1 locked :=
    hbegun.returns Call.lock rfl rfl
      (returns_lock env (by decide) (call_lock E 1 (by decide)) rfl rfl)
  exact hlocked.returns .authenticate rfl rfl
    (returns_authenticate env (by decide) (call_lock E 2 (by decide)) rfl rfl (by decide) rfl)

/-- INTERNAL: an operation that hands over a state. -/
theorem call_of_handed {s s' : ProviderState} {op : Op} (hinv : StateInv E 1000 s)
    (himages : s.approvedImages = [] ∨ s.approvedImages = [image E])
    (hs : op.handed E 1000 env s = some s') (hargs : CallerArgs env s op)
    (htime : RecordsWhileExecuting s op) :
    ∃ value, Store.call E 1000 ⟨s, false⟩ op env .committed false = (⟨s', false⟩, .ok value) ∧
      StateInv E 1000 s' := by
  rw [handed_eq_eval] at hs
  obtain ⟨⟨value, state⟩, heval, hstate⟩ := handedState_eq_some _ _ hs
  simp only at hstate
  rw [hstate] at heval
  exact ⟨value, call_commits hinv (imagesUnchanged E s himages) hargs htime heval⟩

/-- The steps that provision the operation and approve the request. -/
def provisioning : List OtherStep :=
  [.provider (.registerImage (image E) (.ok ())),
    .provider (.provisionOperation draft verifier true true),
    .provider (.createDirect 1000 ⟨"store", none, []⟩ 10 100 true), .requestDeadline requestId 50,
    .provider (.decideDirect (bindingAt E 3) true none 11)]

/-- INTERNAL: **a request is approved in an open session.** -/
theorem reached_ready : Reached E 1000 requestLifetime 3 (ready E) ∧
    StateInv E 1000 (holdingAt E 3 (approvedAt E 3)) := by
  obtain ⟨_, hregister, hinv₁⟩ := call_of_handed E (stateInv_recovered E 3) (Or.inl rfl)
    (registers E 3) trivial trivial
  obtain ⟨_, hprovision, hinv₂⟩ := call_of_handed E hinv₁ (Or.inr rfl) (provisions E 3)
    trivial trivial
  have hfresh : FreshRequest env (atEpoch 3 (provisioned E)) := by
    intro _ _ r hr
    simp [atEpoch, provisioned, registered, recovered, ProviderState.initial] at hr
  obtain ⟨_, hcreate, hinv₃⟩ := call_of_handed E hinv₂ (Or.inr rfl) (creates E 3)
    ⟨by decide, by decide, hfresh⟩ trivial
  obtain ⟨_, hdecide, hinv₄⟩ := call_of_handed E hinv₃ (Or.inr rfl) (approves E 3)
    (by simp [CallerArgs]) trivial
  have hsteps : Returns ⟨E, 1000, requestLifetime, 2⟩ true [.gate] opened
      (otherSteps (provisioning E)) () (ready E) := by
    refine returns_bind (returns_otherOperation env rfl rfl hregister) ?_
    refine returns_bind (returns_otherOperation env rfl rfl hprovision) ?_
    refine returns_bind (returns_otherOperation env rfl rfl hcreate) ?_
    refine returns_bind (returns_otherDeadline env requestId 50) ?_
    exact returns_bind (returns_otherOperation env rfl rfl hdecide) (returns_pure ())
  exact ⟨(reached_opened E requestLifetime).returns (.other (provisioning E)) rfl rfl
    (returns_withLock env (by simp) hsteps), hinv₄⟩

/-! ## The approved request -/

/-- What the execution of the request is given. -/
def candidate : ApprovalBinding × OperationPolicy × List String :=
  (bindingAt E 3, policy E, ["store"])

theorem executable_ready : Executable (ready E) requestId 100 50 :=
  ⟨⟨rfl, rfl, rfl, show 0 < 100 by decide⟩, by simp [ready], show 0 < 50 by decide, rfl⟩

/-- INTERNAL: its claim is committed. -/
theorem call_claim : Store.call E 1000 (ready E).authority.store (.claimExecution 1000 requestId) env
    .committed false = (⟨holdingAt E 3 (claimedAt E 3), false⟩, .ok (bindingAt E 3)) ∧
    StateInv E 1000 (holdingAt E 3 (claimedAt E 3)) :=
  call_commits (reached_ready E 0).2 (imagesUnchanged E _ (Or.inr rfl))
    (show CallerArgs env (ready E).authority.store.durable (.claimExecution 1000 requestId) from trivial)
    trivial (claims_eval E 3)

/-- INTERNAL: what is delivered after the claim. -/
theorem delivers_claimed (claimed : Bool) : Delivers E 1000 env
    ⟨holdingAt E 3 (claimedAt E 3), false⟩ 1000 requestId claimed (candidate E) := by
  have hinv := (call_claim E).2
  have himages := imagesUnchanged E (holdingAt E 3 (claimedAt E 3)) (Or.inr rfl)
  refine ⟨⟨holdingAt E 3 (claimedAt E 3), ?_, ?_⟩, rfl⟩
  · simp only [Store.readState, Bool.false_eq_true, if_false, show env.disk = disk from rfl,
      hinv.tryFrom_wire disk himages, hinv.validateForOwner disk himages, if_true]
  · have hpolicy : (holdingAt E 3 (claimedAt E 3)).operations.find?
        (·.id = (claimedAt E 3).review.operation) = some (policy E) := by
      rw [show (claimedAt E 3).review.operation = (policy E).id from rfl,
        show (holdingAt E 3 (claimedAt E 3)).operations = [policy E] from rfl]
      simp
    have hargs : (policy E).normalizeArgs [] = some [] := rfl
    have hreview : { (policy E).directReview E requestId []
        (claimedAt E 3).review.expiresAtUnixSeconds with
        status := (claimedAt E 3).review.status
        requester := (claimedAt E 3).review.requester } = (claimedAt E 3).review := rfl
    simp only [executionDelivery, visibleDirect_holdingAt E 3 (claimedAt E 3) rfl rfl, hpolicy, hargs,
      show agentCurrent (holdingAt E 3 (claimedAt E 3)) (claimedAt E 3).agentOwner = true
        from rfl, show (claimedAt E 3).executionClaimed = true from rfl,
      show (claimedAt E 3).review.status = .approved from rfl,
      show (claimedAt E 3).lifecycleEpoch = (holdingAt E 3 (claimedAt E 3)).lifecycleEpoch from rfl,
      show (claimedAt E 3).approval = some (claimedAt E 3).approvalBinding from rfl,
      show (claimedAt E 3).review.oneTime = ONE_TIME from rfl,
      show (policy E).revision = (claimedAt E 3).review.policyDigest from rfl,
      show (claimedAt E 3).review.arguments = [] from rfl, bind, Except.bind, pure, Except.pure,
      Bool.not_true, Bool.and_false, Bool.false_eq_true, if_false, decide_true, Bool.true_or,
      Bool.or_self, ne_eq, not_true_eq_false, decide_false]
    rw [if_neg]
    · rfl
    · rw [Bool.false_or, decide_eq_true_eq, not_not]
      exact hreview

end Sample

end VaultAccess.Analysis
