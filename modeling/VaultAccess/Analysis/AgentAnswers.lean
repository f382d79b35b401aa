import VaultAccess.Analysis.AgentFrames
import VaultAccess.Analysis.Envelopes
import VaultAccess.Analysis.Inversion

/-!
# What the provider answers to agents

Every response of one connection is sound, whatever other threads do meanwhile: a request is
answered with an identifier that the provider drew or that the query carried, and an exit code
is projected only if it has eight bits. So every response is written, and read by the client.
-/

set_option autoImplicit false

namespace VaultAccess.Analysis.AgentFrames

open VaultAccess.Library VaultAccess.Model VaultAccess.Model.AgentSocket
open VaultAccess.Model.Application

/-! ## What a program can return -/

section Returns

variable (E : Externals) (ownerUid : UInt32)

/-- What an action can be answered with, in some memory. -/
def Possible (a : Act) (answer : Ans a) : Prop :=
  ∃ t input m m', performAct E ownerUid t a input m = some (answer, m')

/-- Every value the program can return is good. -/
def Returns {ε α : Type} (x : App ε α) (good : α → Prop) : Prop :=
  Prog.Ends (Possible E ownerUid) x.run fun result => ∀ value, result = .ok value → good value

variable {E : Externals} {ownerUid : UInt32} {ε δ α β : Type} {good : α → Prop}

theorem returns_pure {value : α} (h : good value) :
    Returns E ownerUid (pure value : App ε α) good := by
  intro value' heq
  rw [← Except.ok.inj heq]
  exact h

theorem returns_throw {e : ε} : Returns E ownerUid (throw e : App ε α) good :=
  fun _ heq => nomatch heq

theorem returns_top (x : App ε α) : Returns E ownerUid x fun _ => True :=
  (Prog.Ends.top x.run).mono fun _ _ _ _ => trivial

/-- INTERNAL: one program after another. -/
theorem returns_bind {x : App ε α} {f : α → App ε β} {good' : β → Prop} (hx : Returns E ownerUid x good)
    (hf : ∀ value, good value → Returns E ownerUid (f value) good') :
    Returns E ownerUid (x >>= f) good' := by
  unfold Returns
  rw [ExceptT.run_bind]
  apply Prog.Ends.bind hx
  intro result hresult
  cases result with
  | ok value => exact hf value (hresult value rfl)
  | error e => exact fun _ heq => nomatch heq

theorem returns_then {x : App ε α} {f : α → App ε β} {good' : β → Prop}
    (hf : ∀ value, Returns E ownerUid (f value) good') : Returns E ownerUid (x >>= f) good' :=
  returns_bind (returns_top x) fun value _ => hf value

theorem returns_ite {c : Prop} [Decidable c] {x y : App ε α} (hx : c → Returns E ownerUid x good)
    (hy : ¬ c → Returns E ownerUid y good) : Returns E ownerUid (if c then x else y) good := by
  split_ifs with hc
  · exact hx hc
  · exact hy hc

theorem returns_guard {c : Prop} [Decidable c] {e : ε} {k : Unit → App ε α}
    (hk : Returns E ownerUid (k ()) good) :
    Returns E ownerUid (if c then throw e >>= k else k ()) good :=
  returns_ite (fun _ => @returns_bind _ _ _ _ _ (fun _ => False) _ _ _ returns_throw fun _ h => h.elim)
    fun _ => hk

/-- INTERNAL: one action. -/
theorem returns_act {a : Act} {good : Ans a → Prop} (h : ∀ answer, Possible E ownerUid a answer → good answer) :
    Returns E ownerUid (act a : App ε (Ans a)) good := by
  unfold Returns act
  intro answer hanswer value heq
  rw [← Except.ok.inj heq]
  exact h answer hanswer

theorem returns_raise {result : Except ε α} (h : ∀ value, result = .ok value → good value) :
    Returns E ownerUid (raise result) good := by
  cases result with
  | ok value => exact returns_pure (h value rfl)
  | error e => exact returns_throw

/-- INTERNAL: a failure as a value. -/
theorem returns_attempt {x : App ε α} (hx : Returns E ownerUid x good) :
    Returns E ownerUid (attempt x : App δ (Except ε α)) fun result =>
      ∀ value, result = .ok value → good value := by
  unfold Returns attempt
  rw [ExceptT.run_lift]
  apply Prog.Ends.bind hx
  intro result hresult value heq
  rw [← Except.ok.inj heq]
  exact hresult

theorem returns_holding {l : Lock} {body : App ε α} (h : Returns E ownerUid body good) :
    Returns E ownerUid (holding l body) good := by
  apply returns_bind (returns_attempt h)
  intro result hresult
  apply returns_then
  intro _
  exact returns_raise hresult

theorem returns_withLock {l : Lock} {e : ε} {body : App ε α} (h : Returns E ownerUid body good) :
    Returns E ownerUid (withLock l e body) good := by
  apply returns_then
  intro found
  exact returns_ite (fun _ => returns_holding h) fun _ => returns_throw

theorem returns_withTryLock {l : Lock} {busy poisoned : ε} {body : App ε α}
    (h : Returns E ownerUid body good) :
    Returns E ownerUid (withTryLock l busy poisoned body) good := by
  apply returns_then
  intro found
  cases found with
  | acquired => exact returns_holding h
  | busy => exact returns_throw
  | poisoned => exact returns_throw

theorem returns_closingIfUnavailable {x : App AgentRejection α} (h : Returns E ownerUid x good) :
    Returns E ownerUid (closingIfUnavailable x) good := by
  apply returns_bind (returns_attempt h)
  intro result hresult
  have hraise : Returns E ownerUid (raise result) good := returns_raise hresult
  cases result with
  | ok value => exact hraise
  | error e =>
    cases e with
    | unavailable =>
      apply returns_then
      intro _
      exact hraise
    | _ => exact hraise

end Returns

/-! ## The answers -/

section Answers

variable {E : Externals} {ownerUid : UInt32}

/-- INTERNAL: a new request has a drawn identifier. -/
theorem createOwned_id {env : Env} {s : ProviderState} {uid : UInt32} {agentOwner : Option AgentOwner}
    {replayDigest : Option String} {input : DirectSubmission} {now expires : ℕ} {authorized : Bool}
    {handed : Handed DirectReview}
    (h : createOwned E env s uid agentOwner replayDigest input now expires authorized = .ok handed) :
    validRequestId handed.value.id = true := by
  simp only [createOwned, bind, Except.bind, pure, Except.pure] at h
  split at h
  · simp at h
  split at h
  · simp at h
  split at h
  · split at h
    · simp at h
    split at h
    · split at h
      · simp at h
      split at h
      · next random hrandom =>
        rw [← Except.ok.inj h]
        cases agentOwner with
        | none => exact validRequestId_newRandom random
        | some owner => exact validRequestId_newRandom random
      · simp at h
    · simp at h
  · simp at h

/-- INTERNAL: so has a signed one. -/
theorem createSigned_id {env : Env} {s : ProviderState} {owner : AgentOwner} {input : SignedSubmission}
    {now expires : ℕ} {authorized : Bool} {handed : Handed DirectReview}
    (h : createSigned E env s owner input now expires authorized = .ok handed) :
    validRequestId handed.value.id = true := by
  simp only [createSigned, bind, Except.bind] at h
  split at h
  · simp at h
  split at h
  · simp at h
  split_ifs at h
  exact createOwned_id (mapError_eq_ok _ _ _ h)

/-- INTERNAL: what a store answers is what the operation answered. -/
theorem call_value {store store' : Store} {op : Op} {env : Env} {w : WriteOutcome} {unreadable : Bool}
    {value : op.Value} (h : store.call E ownerUid op env w unreadable = (store', .ok value)) :
    ∃ s handed, op.eval E ownerUid env s = .ok handed ∧ handed.value = value := by
  unfold Store.call at h
  split_ifs at h
  · simp at h
  split at h
  · simp at h
  · next s _ =>
    split at h
    · simp at h
    · next handed heval =>
      refine ⟨s, handed, heval, ?_⟩
      split at h
      · simp only [Prod.mk.injEq, Except.ok.injEq] at h
        exact h.2
      · split at h
        · simp only [Prod.mk.injEq, Except.ok.injEq] at h
          exact h.2
        · simp at h

/-- INTERNAL: **the admission of a submission draws an identifier.** -/
theorem returns_commitSigned (requestLifetime : ℕ) (uid : UInt32) (groups : List UInt32)
    (input : SignedSubmission) :
    Returns E ownerUid (commitSigned E ownerUid requestLifetime uid groups input)
      fun found => validRequestId found.2.2.id = true := by
  apply returns_then; intro _
  apply returns_then; intro _
  apply returns_then; intro authority
  apply returns_then; intro epoch
  apply returns_guard
  apply returns_then; intro read
  apply returns_then; intro s
  apply returns_then; intro owner
  apply returns_then; intro token
  apply returns_then; intro live
  apply returns_guard
  apply returns_then; intro now
  apply returns_then; intro deadline
  apply returns_then; intro seconds
  apply returns_then; intro now
  apply returns_then; intro expires
  apply returns_then; intro sessionDeadline
  apply @returns_bind _ _ _ _ _ fun review : DirectReview => validRequestId review.id = true
  · apply returns_withLock
    apply returns_then; intro live
    apply returns_guard
    apply returns_then; intro inWindow
    apply returns_guard
    apply returns_then; intro authorized
    apply returns_bind (returns_act fun answer hanswer => hanswer)
    rintro answer ⟨t, input', m, m', hperform⟩
    apply returns_raise
    intro review hreview
    have hcall : (m.authority.store.call E ownerUid (.createSigned owner input now expires authorized)
        input'.env input'.outcome input'.unreadable).2 = .ok review := by
      have hanswer := congrArg Prod.fst (Option.some.inj hperform)
      exact hanswer.trans hreview
    obtain ⟨s, handed, heval, hvalue⟩ := call_value (Prod.ext rfl hcall)
    rw [← hvalue]
    exact createSigned_id heval
  · intro review hreview
    exact returns_pure hreview

theorem returns_submitSigned (requestLifetime : ℕ) (uid : UInt32) (groups : List UInt32)
    (input : SignedSubmission) :
    Returns E ownerUid (submitSigned E ownerUid requestLifetime uid groups input)
      fun id => validRequestId id = true := by
  apply returns_closingIfUnavailable
  apply returns_then; intro closing
  apply returns_guard
  apply returns_withTryLock
  apply returns_bind (returns_commitSigned requestLifetime uid groups input)
  rintro ⟨owner, window, review⟩ hreview
  apply returns_then; intro _
  exact returns_pure hreview

/-- INTERNAL: a projected exit code has eight bits. -/
theorem returns_project (status : DirectStatus) : Returns E ownerUid (project status) Small := by
  cases status with
  | completed exitCode =>
    apply returns_ite
    · intro hcode
      simp only [Bool.and_eq_true, decide_eq_true_eq] at hcode
      exact returns_pure hcode
    · intro _
      exact returns_throw
  | _ => exact returns_pure trivial

/-- INTERNAL: the loop of the final snapshot. -/
theorem returns_snapshot (owner : AgentOwner) (token : ℕ) (uid : UInt32) (groups : List UInt32)
    (requestId : String) (rounds : ℕ) :
    Returns E ownerUid (snapshot owner token uid groups requestId rounds) Small := by
  induction rounds with
  | zero =>
    apply returns_then; intro _
    exact returns_throw
  | succ rounds ih =>
    apply returns_then; intro status
    apply @returns_bind _ _ _ _ _ fun answer : Option AgentStatus => ∀ state, answer = some state → Small state
    · apply returns_withLock
      apply returns_then; intro passed
      apply returns_ite
      · intro _
        exact returns_pure fun _ heq => nomatch heq
      · intro _
        apply returns_then; intro live
        apply returns_guard
        apply returns_then; intro closing
        apply returns_guard
        apply returns_bind (returns_project status)
        intro state hstate
        apply returns_pure
        intro state' heq
        rw [← Option.some.inj heq]
        exact hstate
    · intro answer hanswer
      cases answer with
      | some state => exact returns_pure (hanswer state rfl)
      | none =>
        apply returns_then; intro _
        exact ih

theorem returns_signedAgentStatus (uid : UInt32) (groups : List UInt32) (query : SignedStatusQuery)
    (rounds : ℕ) :
    Returns E ownerUid (signedAgentStatus E ownerUid uid groups query rounds) Small := by
  apply returns_closingIfUnavailable
  apply returns_then; intro closing
  apply returns_guard
  apply returns_withTryLock
  apply returns_then; intro read
  apply returns_then; intro s
  apply returns_then; intro owner
  apply returns_then; intro token
  apply returns_then; intro live
  apply returns_guard
  apply returns_then; intro closing
  apply returns_guard
  apply returns_then; intro _
  apply returns_then; intro answer
  apply returns_then; intro _
  apply returns_then; intro _
  exact returns_snapshot owner token uid groups query.requestId rounds

end Answers

/-! ## One connection -/

section Serve

variable (J : Json.Reader) (E : Externals) (ownerUid : UInt32) (requestLifetime : ℕ)

theorem sound_ofRejection (category : AgentRejection) : Sound (.ofRejection category) := rfl

/-- INTERNAL: what a message is answered with. -/
theorem returns_answer (uid : UInt32) (groups : List UInt32) (rounds : ℕ) {input : AgentEnvelope}
    (hvalid : input.validate = .ok ()) :
    Returns E ownerUid (answer E ownerUid requestLifetime uid groups rounds input) Sound := by
  cases input with
  | submission input =>
    apply returns_bind (returns_submitSigned requestLifetime uid groups input)
    intro id hid
    exact returns_pure ⟨rfl, hid⟩
  | status input =>
    apply returns_bind (returns_signedAgentStatus uid groups input rounds)
    intro state hstate
    exact returns_pure ⟨rfl, (validQuery hvalid).2.2.1, hstate⟩

/-- INTERNAL: a task that may panic. -/
theorem ends_joined {α : Type} {p : Prog Act Ans α} {good : α → Prop}
    (h : p.Ends (Possible E ownerUid) good) (panic : Option ℕ) :
    (joined panic p).Ends (Possible E ownerUid) fun result => ∀ value, result = some value → good value := by
  cases panic with
  | none =>
    apply Prog.Ends.bind h
    intro value hvalue value' heq
    rw [← Option.some.inj heq]
    exact hvalue
  | some n => exact h.upTo n

/-- INTERNAL: a parsed message is valid. -/
theorem parseEnvelope_valid {data : List UInt8} {input : AgentEnvelope}
    (h : parseEnvelope J data = .ok input) : input.validate = .ok () := by
  unfold parseEnvelope at h
  split_ifs at h
  split at h
  · simp at h
  · next envelope _ =>
    cases hvalid : envelope.validate with
    | error e => simp [hvalid, bind, Except.bind] at h
    | ok value =>
      simp only [hvalid, bind, Except.bind, pure, Except.pure, Except.ok.injEq] at h
      rw [← h, hvalid]

/-- **Every response of a connection is sound**, whatever the stream brings and whatever other
threads do. -/
theorem ends_serveOne (connection : Connection) :
    (serveOne J E ownerUid requestLifetime connection).Ends (Possible E ownerUid) Sound := by
  unfold serveOne
  apply Prog.Ends.bind (ends_joined E ownerUid (Prog.Ends.top _) _)
  intro eligibility _
  match eligibility with
  | none => exact sound_ofRejection .unavailable
  | some (.error category) => exact sound_ofRejection category
  | some (.ok ()) =>
    dsimp only
    split
    · exact sound_ofRejection .malformed
    · split
      · next category _ => exact sound_ofRejection category
      · next input hparse =>
        apply Prog.Ends.bind (ends_joined E ownerUid (returns_answer E ownerUid requestLifetime
          connection.uid connection.groups connection.rounds (parseEnvelope_valid J hparse)) _)
        intro result hresult
        match result with
        | none => exact sound_ofRejection .unavailable
        | some (.error category) => exact sound_ofRejection category
        | some (.ok response) => exact hresult _ rfl response rfl

/-- The value a connection is answered with, with other threads between its actions. -/
def Answers (connection : Connection) (response : AgentResponse) : Prop :=
  ∃ t moments, (serveOne J E ownerUid requestLifetime connection).runAmid (performAct E ownerUid t)
    moments = some response

/-- INTERNAL: such a value is sound. -/
theorem Answers.sound {connection : Connection} {response : AgentResponse}
    (h : Answers J E ownerUid requestLifetime connection response) : Sound response := by
  obtain ⟨t, moments, hvalue⟩ := h
  apply (ends_serveOne J E ownerUid requestLifetime connection).runAmid _ moments hvalue
  intro a input m answer m' hperform
  exact ⟨t, input, m, m', hperform⟩

/-- What holds of the frames between agents and the provider. -/
structure Exchanged : Prop where
  /-- A frame is one line of its stream, in whatever pieces it comes. -/
  lines : ∀ (limit deadline : ℕ) (arrival : Arrival deadline) (p : List UInt8),
    readFrame limit deadline arrival.reads = .ok p ↔ Line limit p arrival.bytes
  /-- The server reads the message that a client sent. -/
  messages : ∀ (message : AgentEnvelope) (frame : List UInt8), message.validate = .ok () →
    requestFrame message = .ok frame → ∀ (deadline : ℕ) (arrival : Arrival deadline),
      arrival.bytes = frame → ∃ payload,
        readFrame MAX_REQUEST_FRAME_BYTES deadline arrival.reads = .ok payload ∧
        parseEnvelope J payload = .ok message
  /-- Every response is short enough to be written, and the client reads that response. -/
  responses : ∀ (connection : Connection) (response : AgentResponse),
    Answers J E ownerUid requestLifetime connection response →
    ∃ frame, responseFrame response = .ok frame ∧ frame.length ≤ MAX_RESPONSE_FRAME_BYTES ∧
      ∀ (deadline : ℕ) (arrival : Arrival deadline), arrival.bytes = frame → ∃ payload,
        readFrame MAX_RESPONSE_FRAME_BYTES deadline arrival.reads = .ok payload ∧
        parseResponse J payload = .ok response

/-- **Frames are one line each, and both directions deliver what was sent.** -/
theorem exchanged : Exchanged J E ownerUid requestLifetime := by
  refine ⟨fun _ _ arrival p => readFrame_iff arrival p, ?_, ?_⟩
  · intro message frame hvalid hframe deadline arrival hbytes
    exact ⟨_, readFrame_lineFrame hframe arrival hbytes, parseEnvelope_toVec J hvalid hframe⟩
  · intro connection response hanswers
    obtain ⟨frame, hframe, hparse⟩ := responseFrame_ok J (hanswers.sound J E ownerUid requestLifetime)
    refine ⟨frame, hframe, (lineFrame_ok hframe).fits, ?_⟩
    intro deadline arrival hbytes
    exact ⟨_, readFrame_lineFrame hframe arrival hbytes, hparse⟩

end Serve

/-- **A status query on its way**: a reader of compact texts, and any pieces. -/
theorem exchanged_sample : sampleQuery.validate = .ok () ∧
    ∃ frame, requestFrame (.status sampleQuery) = .ok frame ∧
      ∀ (deadline : ℕ) (arrival : Arrival deadline), arrival.bytes = frame → ∃ payload,
        readFrame MAX_REQUEST_FRAME_BYTES deadline arrival.reads = .ok payload ∧
        parseEnvelope Json.Reader.compact payload = .ok (.status sampleQuery) := by
  have hvalid : sampleQuery.validate = .ok () := by decide +kernel
  have hframe : requestFrame (.status sampleQuery) = .ok (sampleQuery.toJson.toVec ++ [0x0a]) := by
    unfold requestFrame lineFrame
    exact if_neg (by decide +kernel)
  refine ⟨hvalid, _, hframe, ?_⟩
  exact (exchanged Json.Reader.compact sampleExternals 1000 60).messages (.status sampleQuery) _
    hvalid hframe

end VaultAccess.Analysis.AgentFrames
