import VaultAccess.Library.Past
import VaultAccess.Model.Biometric
import VaultAccess.Model.Endpoint

/-!
# Touch ID keys, as a companion session shows them

What a whole run of a key session hands out and shows. One lemma says what a call can do; the
history of the run and the state it leads to then keep one invariant, and the main theorem
reads the promises of the module off it. What an error code means at the provider is proved of
the endpoint's own commands.
-/

set_option autoImplicit false

namespace VaultAccess.Analysis.Companion.Keys

open VaultAccess.Library VaultAccess.Model.Companion.Keys
open VaultAccess.Model.Companion (Packages Pin ErrorCode decode)
open VaultAccess.Model.Companion.Management (Target seconds)

/-- A call of a run with the states around it. -/
abbrev Turn := Library.Entry Session Call Answer

variable {P : Packages} {R : Replies}

/-! ## What a call can do -/

/-- The flight that a call ends. -/
def landing (s : Session) : Call → Option Flight
  | .finish token _ _ => s.flight.filter (·.token = token)
  | _ => none

/-- The flight that a turn ends. -/
def Turn.lands (x : Turn) : Option Flight := landing x.before x.call

/-- The transcript a call handed out. -/
def Turn.asks (x : Turn) : Option EnrollRequest :=
  match x.answer with
  | .transcript (.ok request) => some request
  | _ => none

/-- The target of the device a pin is for. -/
def target (pin : Pin) : Target := { kind := .approvalClient, id := pin.approvalClient }

/-- A body that uses up a ticket, with the operation and the ticket's time. -/
structure Mutates (P : Packages) (R : Replies) (s : Session) (call : Call) (ticket : Ticket)
    (pin : Pin) (flight : Flight) (request : Request) : Prop where
  operation : ∃ now, ticket.fresh ticket.prepared.operation now = true ∧
    ((ticket.prepared.operation = .enroll ∧ flight.sent = .enroll ∧
        ∃ password signature second transcript,
          call = .beginEnroll password flight.publicKey signature now second ∧
          request = .enroll ticket.prepared.actionId ticket.prepared.ticket password flight.publicKey
            signature ∧
          s.enrollKey = some flight.publicKey ∧
          ticket.prepared.transcript P pin flight.publicKey = some transcript ∧
          verify P R flight.publicKey transcript signature = true) ∨
      (ticket.prepared.operation = .revoke ∧ flight.sent = .revoke ∧
        ∃ password second, call = .beginRevoke password now second ∧
          request = .revoke (target pin) ticket.prepared.actionId ticket.prepared.ticket password))
  action : flight.actionId = ticket.prepared.actionId

/-- What a call can do to the session; the outcome and the message are left open. -/
inductive Does (P : Packages) (R : Replies) (s : Session) (call : Call) : Answer → Session → Prop where
  | kept (answer : Answer) (outcome : KeyOutcome) (message : String) (hhanded : answer.handed = none)
      (hasked : ∀ request, answer ≠ .transcript (.ok request)) (hlands : landing s call = none) :
      Does P R s call answer { s with outcome, message }
  | dropped (answer : Answer) (outcome : KeyOutcome) (message : String) (hhanded : answer.handed = none)
      (hasked : ∀ request, answer ≠ .transcript (.ok request)) (hlands : landing s call = none) :
      Does P R s call answer { s.invalidate with outcome, message }
  | cleared (answer : Answer) (pin : Option Pin) (outcome : KeyOutcome) (message : String)
      (hhanded : answer.handed = none) (hasked : ∀ request, answer ≠ .transcript (.ok request))
      (hlands : landing s call = none) :
      Does P R s call answer { s.invalidate.forget with pin, outcome, message }
  | keyed (publicKey : List UInt8) (now : ℕ) (pin : Pin) (ticket : Ticket) (transcript : List UInt8)
      (hcall : call = .enrollTranscript publicKey now) (hflight : s.flight = none)
      (hpin : s.pin = some pin) (hticket : s.ticket = some ticket)
      (htranscript : ticket.prepared.transcript P pin publicKey = some transcript) :
      Does P R s call (.transcript (.ok { keyId := keyId P publicKey, transcript }))
        { s with enrollKey := some publicKey }
  | asked (command : KeyCommand) (now : ℕ) (pin : Pin) (message : String)
      (hcall : call = .begin command now) (hflight : s.flight = none) (hpin : s.pin = some pin) :
      Does P R s call (.work (.ok { token := s.serial + 1, request := (command.sends (target pin)).2 }))
        { s.invalidate with
          serial := s.serial + 1
          flight := some {
            token := s.serial + 1
            epoch := s.epoch + 1
            sent := (command.sends (target pin)).1
            actionId := ""
            publicKey := []
            started := now }
          outcome := .none
          message }
  | mutated (pin : Pin) (ticket : Ticket) (flight : Flight) (request : Request) (message : String)
      (hflight : s.flight = none) (hpin : s.pin = some pin) (hticket : s.ticket = some ticket)
      (htoken : flight.token = s.serial + 1) (hepoch : flight.epoch = s.epoch + 1)
      (hmutates : Mutates P R s call ticket pin flight request) :
      Does P R s call (.work (.ok { token := flight.token, request }))
        { s.invalidate with
          serial := s.serial + 1
          flight := some flight
          outcome := .none
          message }
  | stale (flight : Flight) (hlands : landing s call = some flight)
      (hreads : flight.sent.mutation = false) :
      Does P R s call .unit { s with flight := none, outcome := .stale }
  | rejected (flight : Flight) (bytes : List UInt8) (now : ℕ) (code : ErrorCode)
      (hcall : call = .finish flight.token bytes now) (hflight : s.flight = some flight)
      (herror : errorOf R bytes = some code) :
      Does P R s call .unit ({ s with flight := none }.rejected flight.sent.mutation code)
  | unusable (flight : Flight) (hlands : landing s call = some flight) :
      Does P R s call .unit ({ s with flight := none }.unusable flight.sent.mutation)
  | accepted (flight : Flight) (bytes : List UInt8) (now : ℕ) (s' : Session)
      (hcall : call = .finish flight.token bytes now) (hflight : s.flight = some flight)
      (hepoch : flight.sent.mutation = true ∨ flight.epoch = s.epoch)
      (herror : errorOf R bytes = none)
      (haccept : { s with flight := none }.accept P R flight bytes now = some s') :
      Does P R s call .unit s'

/-- INTERNAL: what a launch of a body can do, from a session with nothing in flight. -/
theorem launch_cases (s : Session) (sent : Sent) (actionId : String) (publicKey : List UInt8)
    (request : Request) (now : ℕ) :
    (∃ refusal, s.launch sent actionId publicKey request now = (.error refusal, s)) ∨
    s.launch sent actionId publicKey request now =
      (.ok { token := s.serial + 1, request }, { s with
        serial := s.serial + 1
        flight := some { token := s.serial + 1, epoch := s.epoch, sent, actionId, publicKey, started := now }
        outcome := .none
        message := "Contacting provider…" }) := by
  unfold Session.launch
  split
  · exact Or.inl ⟨_, rfl⟩
  split
  · exact Or.inl ⟨_, rfl⟩
  · exact Or.inr rfl

/-- INTERNAL: what a mutation that is sent has. -/
theorem ready_ok {s : Session} {operation : Operation} {now : ℕ} {pin : Pin} {ticket : Ticket}
    (h : s.ready operation now = .ok (pin, ticket)) :
    s.flight = none ∧ s.pin = some pin ∧ s.ticket = some ticket ∧ ticket.fresh operation now = true := by
  unfold Session.ready at h
  split at h
  · cases h
  next own hpin =>
  split at h
  · cases h
  next hcan =>
  split at h
  · cases h
  next held hticket =>
  obtain ⟨rfl, rfl⟩ := Prod.mk.inj (Except.ok.inj h)
  simp only [Session.can, hticket, Option.any_some, Bool.not_eq_true', Bool.not_eq_false,
    Bool.and_eq_true, Option.isNone_iff_eq_none] at hcan
  exact ⟨hcan.1, hpin, hticket, hcan.2⟩

theorem fresh_operation {ticket : Ticket} {operation : Operation} {now : ℕ}
    (h : ticket.fresh operation now = true) : ticket.prepared.operation = operation := by
  simp only [Ticket.fresh, Bool.and_eq_true, decide_eq_true_eq] at h
  exact h.1

theorem does_refused {s : Session} {call : Call} {answer : Answer} (hhanded : answer.handed = none)
    (hasked : ∀ request, answer ≠ .transcript (.ok request)) (hlands : landing s call = none) :
    Does P R s call answer s :=
  Does.kept answer s.outcome s.message hhanded hasked hlands

/-- INTERNAL: the ticket of a mutation is used up only when its body is sent. -/
theorem does_sendMutation {s : Session} {call : Call} {pin : Pin} {ticket : Ticket} {sent : Sent}
    {publicKey : List UInt8} {request : Request} {now : ℕ} (hlands : landing s call = none)
    (hflight : s.flight = none) (hpin : s.pin = some pin) (hticket : s.ticket = some ticket)
    (hmutates : Mutates P R s call ticket pin
      { token := s.serial + 1, epoch := s.epoch + 1, sent, actionId := ticket.prepared.actionId,
        publicKey, started := now } request) :
    Does P R s call (.work (s.sendMutation sent ticket.prepared.actionId publicKey request now).1)
      (s.sendMutation sent ticket.prepared.actionId publicKey request now).2 := by
  unfold Session.sendMutation
  split
  · exact does_refused rfl (by intro _ h; cases h) hlands
  rcases launch_cases s.invalidate sent ticket.prepared.actionId publicKey request now with
    ⟨refusal, heq⟩ | heq
  · rw [heq]
    exact Does.dropped _ s.outcome s.message rfl (by intro _ h; cases h) hlands
  · rw [heq]
    exact Does.mutated pin ticket _ request _ hflight hpin hticket rfl rfl hmutates

/-- INTERNAL: a read or a preparation. -/
theorem does_begin (P : Packages) (R : Replies) (s : Session) (command : KeyCommand) (now : ℕ) :
    Does P R s (.begin command now) (s.step P R (.begin command now)).1
      (s.step P R (.begin command now)).2 := by
  simp only [Session.step, Session.begin]
  cases hpin : s.pin with
  | none =>
    simp only [Session.own, hpin, Option.map_none]
    exact does_refused rfl (by intro _ h; cases h) rfl
  | some pin =>
    simp only [Session.own, hpin, Option.map_some]
    split
    · exact does_refused rfl (by intro _ h; cases h) rfl
    next hidle =>
    rcases launch_cases s.invalidate (command.sends (target pin)).1 "" []
      (command.sends (target pin)).2 now with ⟨refusal, heq⟩ | heq
    · rw [target] at heq
      rw [heq]
      exact Does.dropped _ s.outcome s.message rfl (by intro _ h; cases h) rfl
    · rw [target] at heq
      rw [heq]
      exact Does.asked command now pin _ rfl (by simpa using hidle) hpin

/-- INTERNAL: a transcript. -/
theorem does_enrollTranscript (P : Packages) (R : Replies) (s : Session) (publicKey : List UInt8) (now : ℕ) :
    Does P R s (.enrollTranscript publicKey now) (s.step P R (.enrollTranscript publicKey now)).1
      (s.step P R (.enrollTranscript publicKey now)).2 := by
  simp only [Session.step, Session.enrollTranscript]
  split
  · exact does_refused rfl (by intro _ h; cases h) rfl
  next pin ticket hready =>
  obtain ⟨hflight, hpin, hticket, -⟩ := ready_ok hready
  split
  · exact does_refused rfl (by intro _ h; cases h) rfl
  split
  · exact does_refused rfl (by intro _ h; cases h) rfl
  next transcript htranscript =>
  exact Does.keyed publicKey now pin ticket transcript rfl hflight hpin hticket htranscript

/-- INTERNAL: an enrolment. -/
theorem does_beginEnroll (P : Packages) (R : Replies) (s : Session) (password : String) (publicKey signature : List UInt8)
    (first second : ℕ) :
    Does P R s (.beginEnroll password publicKey signature first second) (s.step P R (.beginEnroll password publicKey signature first second)).1
      (s.step P R (.beginEnroll password publicKey signature first second)).2 := by
  simp only [Session.step, Session.beginEnroll]
  split
  · exact does_refused rfl (by intro _ h; cases h) rfl
  next pin ticket hready =>
  obtain ⟨hflight, hpin, hticket, hfresh⟩ := ready_ok hready
  have hoperation := fresh_operation hfresh
  split
  · exact does_refused rfl (by intro _ h; cases h) rfl
  next hkey =>
  split
  · exact does_refused rfl (by intro _ h; cases h) rfl
  split
  · exact does_refused rfl (by intro _ h; cases h) rfl
  next transcript htranscript =>
  split
  · exact does_refused rfl (by intro _ h; cases h) rfl
  next hverify =>
  apply does_sendMutation rfl hflight hpin hticket
  constructor
  · refine ⟨first, hoperation ▸ hfresh, Or.inl ⟨hoperation, rfl, password, signature, second,
      transcript, rfl, rfl, not_not.mp hkey, htranscript, ?_⟩⟩
    simpa using hverify
  · rfl

/-- INTERNAL: a revocation. -/
theorem does_beginRevoke (P : Packages) (R : Replies) (s : Session) (password : String) (first second : ℕ) :
    Does P R s (.beginRevoke password first second) (s.step P R (.beginRevoke password first second)).1
      (s.step P R (.beginRevoke password first second)).2 := by
  simp only [Session.step, Session.beginRevoke]
  split
  · exact does_refused rfl (by intro _ h; cases h) rfl
  next pin ticket hready =>
  obtain ⟨hflight, hpin, hticket, hfresh⟩ := ready_ok hready
  have hoperation := fresh_operation hfresh
  split
  · exact does_refused rfl (by intro _ h; cases h) rfl
  apply does_sendMutation rfl hflight hpin hticket
  constructor
  · exact ⟨first, hoperation ▸ hfresh, Or.inr ⟨hoperation, rfl, password, second, rfl, rfl⟩⟩
  · rfl

/-- INTERNAL: a reply. -/
theorem does_finish (P : Packages) (R : Replies) (s : Session) (token : ℕ) (bytes : List UInt8) (now : ℕ) :
    Does P R s (.finish token bytes now) (s.step P R (.finish token bytes now)).1
      (s.step P R (.finish token bytes now)).2 := by
  simp only [Session.step, Session.finish]
  split
  next hflight =>
    apply Does.kept _ .stale s.message rfl (by intro _ h; cases h)
    simp only [landing, hflight, Option.filter_none]
  next flight hflight =>
  split
  next htoken =>
    apply Does.kept _ .stale s.message rfl (by intro _ h; cases h)
    simp [landing, hflight, Option.filter_some, htoken]
  next htoken =>
  obtain rfl := not_not.mp htoken
  have hlands : landing s (.finish flight.token bytes now) = some flight := by
    simp [landing, hflight, Option.filter_some]
  split
  next hold => exact Does.stale flight hlands (by simpa using hold.1)
  next hold =>
  split
  next code herror => exact Does.rejected flight bytes now code rfl hflight herror
  next herror =>
  cases haccept : { s with flight := none }.accept P R flight bytes now with
  | none => exact Does.unusable flight hlands
  | some s' =>
    apply Does.accepted flight bytes now s' rfl hflight _ herror haccept
    by_cases hmutation : flight.sent.mutation = true
    · exact Or.inl hmutation
    · exact Or.inr (not_not.mp fun hne => hold ⟨by simpa using hmutation, hne⟩)

/-- **What a call can do.** -/
theorem does_step (P : Packages) (R : Replies) (s : Session) (call : Call) :
    Does P R s call (s.step P R call).1 (s.step P R call).2 := by
  cases call with
  | configure provider client =>
    simp only [Session.step, Session.configure]
    split
    · exact does_refused rfl (by intro _ h; cases h) rfl
    split
    · exact does_refused rfl (by intro _ h; cases h) rfl
    · exact Does.cleared _ _ _ _ rfl (by intro _ h; cases h) rfl
  | reset => exact Does.cleared _ _ _ _ rfl (by intro _ h; cases h) rfl
  | requirePin current =>
    simp only [Session.step, Session.requirePin]
    split
    · exact does_refused rfl (by intro _ h; cases h) rfl
    split
    · exact Does.cleared _ _ _ _ rfl (by intro _ h; cases h) rfl
    · exact does_refused rfl (by intro _ h; cases h) rfl
  | begin command now => exact does_begin P R s command now
  | enrollTranscript publicKey now => exact does_enrollTranscript P R s publicKey now
  | beginEnroll password publicKey signature first second => exact does_beginEnroll P R s password publicKey signature first second
  | beginRevoke password first second => exact does_beginRevoke P R s password first second
  | snapshot first second third =>
    simp only [Session.step, Session.snapshot]
    split
    · exact Does.dropped _ s.outcome _ rfl (by intro _ h; cases h) rfl
    · exact does_refused rfl (by intro _ h; cases h) rfl
  | finish token bytes now => exact does_finish P R s token bytes now

/-! ## What an error code means at the provider -/

/-- A code that the provider answers to a mutation of a key only where the registry file is as
it was. -/
def Harmless (code : ErrorCode) : Prop :=
  (∀ E verify service actor actionId token publicKey signature r error,
    (VaultAccess.Model.Endpoint.biometricEnroll E verify service actor actionId token publicKey
      signature r).1 = .error error → error.wire = errorName code →
    (VaultAccess.Model.Endpoint.biometricEnroll E verify service actor actionId token publicKey
      signature r).2.2 = r.recheck.registry) ∧
  ∀ E service actor goal actionId token r error,
    (VaultAccess.Model.Endpoint.biometricRevoke E service actor goal actionId token r).1 =
      .error error → error.wire = errorName code →
    (VaultAccess.Model.Endpoint.biometricRevoke E service actor goal actionId token r).2.2 =
      r.recheck.registry

section Provider

open VaultAccess.Model VaultAccess.Model.Identity VaultAccess.Model.Endpoint

/-- INTERNAL: a write that fails is unavailable. -/
theorem persistRegistry_error {disk : Identity.Disk} {file : Option Json} {registry : Registry}
    {error : SessionError} (h : (persistRegistry disk file registry).1 = .error error) :
    error = .backendUnavailable := by
  unfold persistRegistry at h
  dsimp only at h
  split at h
  · cases h
    rfl
  cases disk <;> cases h <;> rfl

/-- INTERNAL: an operation that is invalid writes nothing. -/
theorem update_invalid {α : Type} {disk : Identity.Disk} {file : Option Json}
    {read : Except SessionError Registry}
    {change : Registry → Except SessionError (α × Option Registry)}
    (h : (update disk file read change).1 = .error .invalidRequest) :
    (update disk file read change).2 = file := by
  unfold update at h ⊢
  split at h
  · rfl
  split at h
  · rfl
  · rfl
  next value registry hchange =>
  rw [Prod.map_fst] at h
  cases hwritten : (persistRegistry disk file registry).1 with
  | error error =>
    rw [hwritten] at h
    cases h
    cases persistRegistry_error hwritten
  | ok written =>
    rw [hwritten] at h
    cases h

/-- INTERNAL: a key that is refused as invalid is not enrolled. -/
theorem enrollBiometricOnline_invalid {E : Externals} {disk : Identity.Disk} {file after : Option Json}
    {fingerprint : String} {publicKey : List UInt8} {generation : UInt64}
    (h : enrollBiometricOnline E disk file fingerprint publicKey generation =
      (.error .invalidRequest, after)) : after = file := by
  unfold enrollBiometricOnline at h
  split at h
  · exact (Prod.mk.inj h).2.symm
  split at h
  · exact (Prod.mk.inj h).2.symm
  · obtain ⟨hresult, rfl⟩ := Prod.mk.inj h
    exact update_invalid (congrArg Prod.fst h)

theorem eq_unavailable {code : ErrorCode} (h : Endpoint.Error.unavailable.wire = errorName code) :
    code = .unavailable := by
  cases code with
  | unavailable => rfl
  | _ => exact absurd h (by decide)

/-- INTERNAL: an answer that is too long is unavailable. -/
theorem respond_error {document : Json} {error : Endpoint.Error} (h : respond document = .error error) :
    error = .unavailable := by
  unfold respond at h
  split at h
  · cases h
    rfl
  · cases h

/-- The registry is as it was wherever the answer is a refusal other than unavailable. -/
def Spares (file : Option Json) (result : Except Endpoint.Error Json × Service × Option Json) : Prop :=
  ∀ error, result.1 = .error error → error ≠ .unavailable → result.2.2 = file

theorem spares_same {file : Option Json} {answer : Except Endpoint.Error Json} {service : Service} :
    Spares file (answer, service, file) := fun _ _ _ => rfl

theorem spares_unavailable {file after : Option Json} {answer : Except Endpoint.Error Json}
    {service : Service} (h : ∀ error, answer = .error error → error = .unavailable) :
    Spares file (answer, service, after) := by
  intro error herror hother
  exact absurd (h error herror) hother

/-- INTERNAL: an enrolment that is refused wrote nothing. -/
theorem biometricEnroll_spares (E : Externals) (verify : List UInt8 → List UInt8 → List UInt8 → Bool)
    (service : Service) (actor actionId token publicKey signature : String) (r : Readings) :
    Spares r.recheck.registry
      (biometricEnroll E verify service actor actionId token publicKey signature r) := by
  unfold biometricEnroll
  dsimp only
  split
  · exact spares_same
  split
  · exact spares_same
  split
  · exact spares_same
  split
  · exact spares_same
  split
  next hinvalid =>
    rw [enrollBiometricOnline_invalid hinvalid]
    exact spares_same
  · apply spares_unavailable
    intro error herror
    exact (Except.error.inj herror).symm
  · apply spares_unavailable
    intro error herror
    exact respond_error herror

/-- INTERNAL: a revocation that is refused wrote nothing. -/
theorem biometricRevoke_spares (E : Externals) (service : Service) (actor : Actor)
    (goal : Endpoint.Target) (actionId token : String) (r : Readings) :
    Spares r.recheck.registry (biometricRevoke E service actor goal actionId token r) := by
  unfold biometricRevoke
  dsimp only
  split
  · exact spares_same
  split
  · exact spares_same
  split
  · exact spares_same
  split
  · exact spares_same
  split
  · exact spares_same
  split
  · apply spares_unavailable
    intro error herror
    exact (Except.error.inj herror).symm
  · apply spares_unavailable
    intro error herror
    exact respond_error herror

/-- **A refusal other than unavailable leaves the registry as it was.**
SRCLINE: src/adapters/companion/management.rs:734-862 -/
theorem harmless_of_ne {code : ErrorCode} (hcode : code ≠ .unavailable) : Harmless code := by
  constructor
  · intro E verify service actor actionId token publicKey signature r error herror hwire
    apply biometricEnroll_spares E verify service actor actionId token publicKey signature r error herror
    rintro rfl
    exact hcode (eq_unavailable hwire)
  · intro E service actor goal actionId token r error herror hwire
    apply biometricRevoke_spares E service actor goal actionId token r error herror
    rintro rfl
    exact hcode (eq_unavailable hwire)

end Provider

/-! ## What a reply says -/

/-- What is shown for the key that a reply names. -/
def shows : Option String → KeyState × String
  | some id => (.enrolled, id)
  | none => (.notEnrolled, "")

/-- A reply that matches its flight, and the key it says the provider has for this device. -/
inductive States (P : Packages) (R : Replies) (pin : Pin) (flight : Flight) (bytes : List UInt8)
    (now : ℕ) : Option String → Prop where
  | detail (r : Detail) (hsent : flight.sent = .read) (hdecode : decode R.detail bytes = some r)
      (hvalid : r.valid (target pin) = true) : States P R pin flight bytes now r.identity.biometricKeyId
  | prepared (operation : Operation) (r : Prepared) (hsent : flight.sent = .prepare operation)
      (hdecode : decode R.prepared bytes = some r)
      (hvalid : r.valid operation (target pin) pin (now - flight.started) = true) :
      States P R pin flight bytes now r.biometricKeyId
  | enrolled (r : Enrolled) (hsent : flight.sent = .enroll) (hdecode : decode R.enrolled bytes = some r)
      (hvalid : r.valid P (target pin) flight = true) :
      States P R pin flight bytes now (some r.biometricKeyId)
  | revoked (r : Revoked) (hsent : flight.sent = .revoke) (hdecode : decode R.revoked bytes = some r)
      (hvalid : r.valid (target pin) flight = true) : States P R pin flight bytes now none

/-- INTERNAL: a key id is shown as it is. -/
theorem recordKey_ok {s s' : Session} {key : Option String} (h : s.recordKey key = some s') :
    s' = { s with state := (shows key).1, keyId := (shows key).2 } := by
  unfold Session.recordKey at h
  cases key with
  | none => exact (Option.some.inj h).symm
  | some id =>
    dsimp only at h
    split at h
    · exact (Option.some.inj h).symm
    · cases h

/-- What an accepted reply leaves. -/
structure Accepted (P : Packages) (R : Replies) (s s' : Session) (flight : Flight)
    (bytes : List UInt8) (now : ℕ) (pin : Pin) : Prop where
  pinned : s.pin = some pin
  samePin : s'.pin = s.pin
  sameEpoch : s'.epoch = s.epoch
  sameFlight : s'.flight = s.flight
  sameKey : s'.enrollKey = s.enrollKey
  states : ∃ key, States P R pin flight bytes now key ∧ (s'.state, s'.keyId) = shows key
  ticket : s'.ticket = s.ticket ∨ ∃ operation r, flight.sent = .prepare operation ∧
    decode R.prepared bytes = some r ∧ r.operation = operation ∧
    s'.ticket = some { prepared := r, started := flight.started }

/-- INTERNAL: an accepted reply. -/
theorem accept_ok {s s' : Session} {flight : Flight} {bytes : List UInt8} {now : ℕ}
    (h : s.accept P R flight bytes now = some s') :
    ∃ pin, Accepted P R s s' flight bytes now pin := by
  simp only [Session.accept, Session.own, Option.bind_eq_bind, Option.bind_eq_some_iff,
    Option.map_eq_some_iff, Option.pure_def] at h
  obtain ⟨pin, hpin, own, ⟨pin', hpin', rfl⟩, h⟩ := h
  obtain rfl := Option.some.inj (hpin.symm.trans hpin')
  refine ⟨pin, ?_⟩
  cases hsent : flight.sent with
  | read =>
    simp only [hsent, Option.bind_eq_some_iff, Option.guard_eq_some', Option.some.injEq] at h
    obtain ⟨r, hdecode, -, hvalid, mid, hmid, rfl⟩ := h
    obtain rfl := recordKey_ok hmid
    exact ⟨hpin, rfl, rfl, rfl, rfl, ⟨_, States.detail r hsent hdecode hvalid, rfl⟩, Or.inl rfl⟩
  | prepare operation =>
    simp only [hsent, Option.bind_eq_some_iff, Option.guard_eq_some', Option.some.injEq] at h
    obtain ⟨r, hdecode, -, hvalid, mid, hmid, rfl⟩ := h
    obtain rfl := recordKey_ok hmid
    have hoperation : r.operation = operation := by
      simp only [Prepared.valid, Bool.and_eq_true, decide_eq_true_eq] at hvalid
      exact hvalid.1.1.1.1.1.1.2
    exact ⟨hpin, rfl, rfl, rfl, rfl, ⟨_, States.prepared operation r hsent hdecode hvalid, rfl⟩,
      Or.inr ⟨operation, r, hsent, hdecode, hoperation, rfl⟩⟩
  | enroll =>
    simp only [hsent, Option.bind_eq_some_iff, Option.guard_eq_some', Option.some.injEq] at h
    obtain ⟨r, hdecode, -, hvalid, mid, hmid, rfl⟩ := h
    obtain rfl := recordKey_ok hmid
    exact ⟨hpin, rfl, rfl, rfl, rfl, ⟨_, States.enrolled r hsent hdecode hvalid, rfl⟩, Or.inl rfl⟩
  | revoke =>
    simp only [hsent, Option.bind_eq_some_iff, Option.guard_eq_some', Option.some.injEq] at h
    obtain ⟨r, hdecode, -, hvalid, mid, hmid, rfl⟩ := h
    obtain rfl := recordKey_ok hmid
    exact ⟨hpin, rfl, rfl, rfl, rfl, ⟨_, States.revoked r hsent hdecode hvalid, rfl⟩, Or.inl rfl⟩

/-- What a reply that is not accepted leaves: nothing prepared, and of the key what is there, what
is unknown, or that the provider has none. -/
structure Dropped (s s' : Session) : Prop where
  pin : s'.pin = s.pin
  epoch : s'.epoch = s.epoch + 1
  flight : s'.flight = s.flight
  enrollKey : s'.enrollKey = none
  ticket : s'.ticket = none

/-- INTERNAL: an error reply. -/
theorem rejected_dropped (s : Session) (mutation : Bool) (code : ErrorCode) :
    Dropped s (s.rejected mutation code) := by
  unfold Session.rejected
  dsimp only
  split_ifs
  all_goals exact ⟨rfl, rfl, rfl, rfl, rfl⟩

/-- INTERNAL: what an error shows. -/
theorem rejected_shows (s : Session) (mutation : Bool) (code : ErrorCode) :
    (mutation = true ∧ code = .unavailable ∧ (s.rejected mutation code).state = .unknown ∧
      (s.rejected mutation code).keyId = "") ∨
    (mutation = false ∧ code = .invalidRequest ∧ (s.rejected mutation code).state = .unsupported ∧
      (s.rejected mutation code).keyId = "") ∨
    ((mutation = true → code ≠ .unavailable) ∧ (s.rejected mutation code).state = s.state ∧
      (s.rejected mutation code).keyId = s.keyId) := by
  cases mutation <;> cases code
  all_goals first
    | exact Or.inl ⟨rfl, rfl, rfl, rfl⟩
    | exact Or.inr (Or.inl ⟨rfl, rfl, rfl, rfl⟩)
    | exact Or.inr (Or.inr ⟨by decide, rfl, rfl⟩)

theorem unusable_dropped (s : Session) (mutation : Bool) : Dropped s (s.unusable mutation) := by
  cases mutation <;> exact ⟨rfl, rfl, rfl, rfl, rfl⟩

/-- INTERNAL: what an unusable reply shows. -/
theorem unusable_shows (s : Session) (mutation : Bool) :
    (mutation = true ∧ (s.unusable mutation).state = .unknown ∧ (s.unusable mutation).keyId = "") ∨
    (mutation = false ∧ (s.unusable mutation).state = s.state ∧
      (s.unusable mutation).keyId = s.keyId) := by
  cases mutation
  · exact Or.inr ⟨rfl, rfl, rfl⟩
  · exact Or.inl ⟨rfl, rfl, rfl⟩

/-! ## What a turn does to each part -/

/-- A flight is that of a body. -/
def Fits (pin : Pin) (flight : Flight) : Request → Prop
  | .read goal => flight.sent = .read ∧ goal = target pin
  | .prepare operation goal => flight.sent = .prepare operation ∧ goal = target pin
  | .enroll actionId _ _ publicKey _ =>
    flight.sent = .enroll ∧ flight.actionId = actionId ∧ flight.publicKey = publicKey
  | .revoke goal actionId _ _ => flight.sent = .revoke ∧ flight.actionId = actionId ∧ goal = target pin

/-- A turn that hands out the body of a flight under a pin. -/
def Launches (flight : Flight) (pin : Pin) (x : Turn) : Prop :=
  x.before.pin = some pin ∧ ∃ w, x.answer.handed = some w ∧ w.token = flight.token ∧
    Fits pin flight w.request

/-- A turn of a run. -/
def Turn.Of (P : Packages) (R : Replies) (x : Turn) : Prop := Does P R x.before x.call x.answer x.after

theorem entryAt_of (P : Packages) (R : Replies) (s : Session) (call : Call) :
    Turn.Of P R (entryAt (Session.step P R) s call) := does_step P R s call

theorem landing_finish {s : Session} {flight : Flight} {bytes : List UInt8} {now : ℕ}
    (h : s.flight = some flight) : landing s (.finish flight.token bytes now) = some flight := by
  simp [landing, h, Option.filter_some]

theorem flight_of_landing {s : Session} {call : Call} {flight : Flight}
    (h : landing s call = some flight) : s.flight = some flight := by
  cases call with
  | finish token bytes now => exact (Option.filter_eq_some_iff.mp h).1
  | _ => cases h

theorem sends_fits (command : KeyCommand) (pin : Pin) (flight : Flight)
    (h : flight.sent = (command.sends (target pin)).1) :
    Fits pin flight (command.sends (target pin)).2 := by
  cases command <;> exact ⟨h, rfl⟩

/-- INTERNAL: the flight of a mutation fits its body. -/
theorem Mutates.fits {s : Session} {call : Call} {ticket : Ticket} {pin : Pin} {flight : Flight}
    {request : Request} (h : Mutates P R s call ticket pin flight request) : Fits pin flight request := by
  obtain ⟨now, -, ⟨-, hsent, password, signature, second, transcript, -, rfl, -⟩ |
    ⟨-, hsent, password, second, -, rfl⟩⟩ := h.operation
  · exact ⟨hsent, h.action, rfl⟩
  · exact ⟨hsent, h.action, rfl⟩

/-- **The flight**: it stays, one begins where there was none, or it ends. -/
theorem flight_step {x : Turn} (h : x.Of P R) :
    (x.lands = none ∧ x.answer.handed = none ∧ x.after.flight = x.before.flight) ∨
    (x.lands = none ∧ x.before.flight = none ∧ ∃ flight pin, Launches flight pin x ∧
      x.after.flight = some flight ∧ flight.epoch = x.after.epoch ∧ x.after.pin = some pin ∧
      x.after.ticket = none ∧ x.after.enrollKey = none) ∨
    (∃ flight, x.lands = some flight ∧ x.before.flight = some flight ∧ x.answer.handed = none ∧
      x.after.flight = none) := by
  obtain ⟨s, call, answer, s'⟩ := x
  simp only [Turn.Of, Turn.lands] at h ⊢
  cases h with
  | kept answer outcome message hhanded hasked hlands => exact Or.inl ⟨hlands, hhanded, rfl⟩
  | dropped answer outcome message hhanded hasked hlands => exact Or.inl ⟨hlands, hhanded, rfl⟩
  | cleared answer pin outcome message hhanded hasked hlands => exact Or.inl ⟨hlands, hhanded, rfl⟩
  | keyed publicKey now pin ticket transcript hcall => exact Or.inl ⟨by rw [hcall]; rfl, rfl, rfl⟩
  | asked command now pin message hcall hflight hpin =>
    refine Or.inr (Or.inl ⟨by rw [hcall]; rfl, hflight, _, pin, ⟨hpin, _, rfl, rfl, ?_⟩, rfl, rfl,
      hpin, rfl, rfl⟩)
    exact sends_fits command pin _ rfl
  | mutated pin ticket flight request message hflight hpin hticket htoken hepoch hmutates =>
    have hlands : landing s call = none := by
      obtain ⟨now, -, ⟨-, -, password, signature, second, transcript, rfl, -⟩ |
        ⟨-, -, password, second, rfl, -⟩⟩ := hmutates.operation
      · rfl
      · rfl
    exact Or.inr (Or.inl ⟨hlands, hflight, flight, pin, ⟨hpin, _, rfl, rfl, hmutates.fits⟩, rfl,
      hepoch, hpin, rfl, rfl⟩)
  | stale flight hlands => exact Or.inr (Or.inr ⟨flight, hlands, flight_of_landing hlands, rfl, rfl⟩)
  | rejected flight bytes now code hcall hflight =>
    have hdropped := rejected_dropped { s with flight := none } flight.sent.mutation code
    exact Or.inr (Or.inr ⟨flight, by rw [hcall, landing_finish hflight], hflight, rfl, hdropped.flight⟩)
  | unusable flight hlands =>
    exact Or.inr (Or.inr ⟨flight, hlands, flight_of_landing hlands, rfl,
      (unusable_dropped { s with flight := none } flight.sent.mutation).flight⟩)
  | accepted flight bytes now s' hcall hflight hepoch herror haccept =>
    obtain ⟨pin, haccepted⟩ := accept_ok haccept
    exact Or.inr (Or.inr ⟨flight, by rw [hcall, landing_finish hflight], hflight, rfl,
      haccepted.sameFlight⟩)

/-- **The epoch**: it rises, or the pin stays. -/
theorem epoch_step {x : Turn} (h : x.Of P R) :
    x.before.epoch < x.after.epoch ∨ (x.after.epoch = x.before.epoch ∧ x.after.pin = x.before.pin) := by
  obtain ⟨s, call, answer, s'⟩ := x
  simp only [Turn.Of] at h
  cases h with
  | kept => exact Or.inr ⟨rfl, rfl⟩
  | dropped => exact Or.inl (Nat.lt_succ_self _)
  | cleared => exact Or.inl (Nat.lt_succ_self _)
  | keyed => exact Or.inr ⟨rfl, rfl⟩
  | asked => exact Or.inl (Nat.lt_succ_self _)
  | mutated => exact Or.inl (Nat.lt_succ_self _)
  | stale => exact Or.inr ⟨rfl, rfl⟩
  | rejected flight bytes now code =>
    have hepoch := (rejected_dropped { s with flight := none } flight.sent.mutation code).epoch
    exact Or.inl (by simp [hepoch])
  | unusable flight =>
    have hepoch := (unusable_dropped { s with flight := none } flight.sent.mutation).epoch
    exact Or.inl (by simp [hepoch])
  | accepted flight bytes now s' hcall hflight hepoch herror haccept =>
    obtain ⟨pin, haccepted⟩ := accept_ok haccept
    exact Or.inr ⟨haccepted.sameEpoch, haccepted.samePin⟩

/-- A turn that accepts the preparation of a ticket, which was asked for under the same pin. -/
def Accepts (R : Replies) (ticket : Ticket) (pin : Pin) (flight : Flight) (x : Turn) : Prop :=
  ∃ bytes now, x.call = .finish flight.token bytes now ∧ x.before.flight = some flight ∧
    flight.sent = .prepare ticket.prepared.operation ∧ flight.started = ticket.started ∧
    decode R.prepared bytes = some ticket.prepared ∧ x.before.pin = some pin ∧
    x.after.ticket = some ticket

/-- A turn that hands out the transcript of a key under a ticket. -/
def Asks (P : Packages) (publicKey : List UInt8) (ticket : Ticket) (pin : Pin) (transcript : List UInt8)
    (x : Turn) : Prop :=
  (∃ now, x.call = .enrollTranscript publicKey now) ∧
    x.asks = some { keyId := keyId P publicKey, transcript } ∧ x.before.ticket = some ticket ∧
    x.before.pin = some pin ∧ ticket.prepared.transcript P pin publicKey = some transcript

theorem asks_eq_none {x : Turn} (h : ∀ request, x.answer ≠ .transcript (.ok request)) : x.asks = none := by
  unfold Turn.asks
  split
  next request heq => exact absurd heq (h request)
  · rfl

/-- **The ticket**: it is dropped, it stays with the pin, or a preparation brings it. -/
theorem ticket_step {x : Turn} (h : x.Of P R) :
    (x.after.ticket = none ∧ x.after.enrollKey = none) ∨
    (x.after.ticket = x.before.ticket ∧ x.after.pin = x.before.pin ∧
      ((x.after.enrollKey = x.before.enrollKey ∧ x.asks = none) ∨
        ∃ publicKey ticket pin transcript, Asks P publicKey ticket pin transcript x ∧
          x.after.enrollKey = some publicKey)) ∨
    (x.after.enrollKey = x.before.enrollKey ∧ x.after.pin = x.before.pin ∧
      ∃ ticket pin flight, Accepts R ticket pin flight x ∧ flight.epoch = x.before.epoch) := by
  obtain ⟨s, call, answer, s'⟩ := x
  simp only [Turn.Of] at h
  cases h with
  | kept answer outcome message hhanded hasked hlands =>
    exact Or.inr (Or.inl ⟨rfl, rfl, Or.inl ⟨rfl, asks_eq_none hasked⟩⟩)
  | dropped => exact Or.inl ⟨rfl, rfl⟩
  | cleared => exact Or.inl ⟨rfl, rfl⟩
  | keyed publicKey now pin ticket transcript hcall hflight hpin hticket htranscript =>
    exact Or.inr (Or.inl ⟨rfl, rfl, Or.inr ⟨publicKey, ticket, pin, transcript,
      ⟨⟨now, hcall⟩, rfl, hticket, hpin, htranscript⟩, rfl⟩⟩)
  | asked => exact Or.inl ⟨rfl, rfl⟩
  | mutated => exact Or.inl ⟨rfl, rfl⟩
  | stale => exact Or.inr (Or.inl ⟨rfl, rfl, Or.inl ⟨rfl, rfl⟩⟩)
  | rejected flight bytes now code =>
    have hdropped := rejected_dropped { s with flight := none } flight.sent.mutation code
    exact Or.inl ⟨hdropped.ticket, hdropped.enrollKey⟩
  | unusable flight =>
    have hdropped := unusable_dropped { s with flight := none } flight.sent.mutation
    exact Or.inl ⟨hdropped.ticket, hdropped.enrollKey⟩
  | accepted flight bytes now s' hcall hflight hepoch herror haccept =>
    obtain ⟨pin, haccepted⟩ := accept_ok haccept
    rcases haccepted.ticket with hticket | ⟨operation, r, hsent, hdecode, hoperation, hticket⟩
    · exact Or.inr (Or.inl ⟨hticket, haccepted.samePin, Or.inl ⟨haccepted.sameKey, rfl⟩⟩)
    · have hreads : ¬ flight.sent.mutation = true := by
        rw [hsent]
        simp [Sent.mutation]
      exact Or.inr (Or.inr ⟨haccepted.sameKey, haccepted.samePin,
        { prepared := r, started := flight.started }, pin, flight,
        ⟨bytes, now, hcall, hflight, by rw [hsent, hoperation], rfl, hdecode, haccepted.pinned,
          hticket⟩, hepoch.resolve_left hreads⟩)

/-- The error code of the reply a turn takes. -/
def Turn.refusal (R : Replies) (x : Turn) : Option ErrorCode :=
  match x.call with
  | .finish _ bytes _ => errorOf R bytes
  | _ => none

/-- A turn that accepts a reply, with the key the reply names. -/
def Learns (P : Packages) (R : Replies) (flight : Flight) (key : Option String) (x : Turn) : Prop :=
  ∃ bytes now pin, x.call = .finish flight.token bytes now ∧ x.before.flight = some flight ∧
    x.before.pin = some pin ∧ errorOf R bytes = none ∧ States P R pin flight bytes now key

/-- A turn whose reply is what the session shows: it names a key or none, or it is the refusal of a
read by a provider that does not know the command. -/
def Tells (P : Packages) (R : Replies) (state : KeyState) (key : String) (x : Turn) : Prop :=
  (∃ flight named, Learns P R flight named x ∧ (state, key) = shows named) ∨
    (∃ flight, x.lands = some flight ∧ flight.sent.mutation = false ∧
      x.refusal R = some .invalidRequest ∧ state = .unsupported ∧ key = "")

/-- A turn that ends no mutation, or ends it with a code that comes before any durable change. -/
def Keeps (R : Replies) (x : Turn) : Prop :=
  ∀ flight, x.lands = some flight → flight.sent.mutation = true →
    ∃ code, x.refusal R = some code ∧ Harmless code

theorem keeps_of_none {x : Turn} (h : x.lands = none) : Keeps R x := by
  intro flight hlands
  rw [h] at hlands
  cases hlands

/-- **What is shown**: nothing, what the reply of this turn tells, or what was shown. -/
theorem shown_step {x : Turn} (h : x.Of P R) :
    (x.after.state = .unknown ∧ x.after.keyId = "") ∨ Tells P R x.after.state x.after.keyId x ∨
    (x.after.state = x.before.state ∧ x.after.keyId = x.before.keyId ∧ Keeps R x) := by
  obtain ⟨s, call, answer, s'⟩ := x
  simp only [Turn.Of] at h
  cases h with
  | kept answer outcome message hhanded hasked hlands =>
    exact Or.inr (Or.inr ⟨rfl, rfl, keeps_of_none hlands⟩)
  | dropped answer outcome message hhanded hasked hlands =>
    exact Or.inr (Or.inr ⟨rfl, rfl, keeps_of_none hlands⟩)
  | cleared => exact Or.inl ⟨rfl, rfl⟩
  | keyed publicKey now pin ticket transcript hcall =>
    exact Or.inr (Or.inr ⟨rfl, rfl, keeps_of_none (by rw [Turn.lands, hcall]; rfl)⟩)
  | asked command now pin message hcall =>
    exact Or.inr (Or.inr ⟨rfl, rfl, keeps_of_none (by rw [Turn.lands, hcall]; rfl)⟩)
  | mutated pin ticket flight request message hflight =>
    refine Or.inr (Or.inr ⟨rfl, rfl, ?_⟩)
    intro other hlands
    exact absurd (hflight.symm.trans (flight_of_landing hlands)) (by simp)
  | stale flight hlands hreads =>
    refine Or.inr (Or.inr ⟨rfl, rfl, ?_⟩)
    intro other hother hmutation
    obtain rfl := Option.some.inj (hlands.symm.trans hother)
    exact absurd (hreads.symm.trans hmutation) (by simp)
  | rejected flight bytes now code hcall hflight herror =>
    have hlands : Turn.lands ⟨s, call, .unit, { s with flight := none }.rejected
        flight.sent.mutation code⟩ = some flight := by
      rw [Turn.lands, hcall, landing_finish hflight]
    have hrefusal : Turn.refusal R ⟨s, call, .unit, { s with flight := none }.rejected
        flight.sent.mutation code⟩ = some code := by
      rw [Turn.refusal, hcall]
      exact herror
    rcases rejected_shows { s with flight := none } flight.sent.mutation code with
      ⟨-, -, hstate, hkey⟩ | ⟨hreads, rfl, hstate, hkey⟩ | ⟨hcode, hstate, hkey⟩
    · exact Or.inl ⟨hstate, hkey⟩
    · exact Or.inr (Or.inl (Or.inr ⟨flight, hlands, hreads, hrefusal, hstate, hkey⟩))
    · refine Or.inr (Or.inr ⟨hstate, hkey, ?_⟩)
      intro other hother hmutation
      obtain rfl := Option.some.inj (hlands.symm.trans hother)
      exact ⟨code, hrefusal, harmless_of_ne (hcode hmutation)⟩
  | unusable flight hlands =>
    rcases unusable_shows { s with flight := none } flight.sent.mutation with
      ⟨-, hstate, hkey⟩ | ⟨hreads, hstate, hkey⟩
    · exact Or.inl ⟨hstate, hkey⟩
    · refine Or.inr (Or.inr ⟨hstate, hkey, ?_⟩)
      intro other hother hmutation
      obtain rfl := Option.some.inj (hlands.symm.trans hother)
      exact absurd (hreads.symm.trans hmutation) (by simp)
  | accepted flight bytes now s' hcall hflight hepoch herror haccept =>
    obtain ⟨pin, haccepted⟩ := accept_ok haccept
    obtain ⟨key, hstates, hshows⟩ := haccepted.states
    exact Or.inr (Or.inl (Or.inl ⟨flight, key, ⟨bytes, now, pin, hcall, hflight, haccepted.pinned,
      herror, hstates⟩, hshows⟩))

/-! ## What the history of a run keeps -/

/-- A turn that ends the flight of a body. -/
def Ends (token : ℕ) (x : Turn) : Prop := ∃ flight, x.lands = some flight ∧ flight.token = token

/-- A body was handed out and its flight has not ended since. -/
def Unended (w : Work) (past : List Turn) : Prop :=
  Since (fun _ x => x.answer.handed = some w) (fun x => ¬ Ends w.token x) past

/-- The preparation of a ticket was accepted, after it was asked for under the same pin. -/
def Brought (R : Replies) (ticket : Ticket) (pin : Pin) (earlier : List Turn) (x : Turn) : Prop :=
  ∃ flight, Accepts R ticket pin flight x ∧ ∃ y ∈ earlier, Launches flight pin y

/-- A turn after which the session holds a ticket and a pin. -/
def Holds (ticket : Ticket) (pin : Pin) (x : Turn) : Prop :=
  x.after.ticket = some ticket ∧ x.after.pin = some pin

/-- What a history says of the state it leads to. -/
structure Recorded (P : Packages) (R : Replies) (past : List Turn) (s : Session) : Prop where
  idle : ∀ flight, s.flight = some flight → s.ticket = none ∧ s.enrollKey = none
  keyless : s.ticket = none → s.enrollKey = none
  unended : ∀ w, Unended w past → ∃ flight, s.flight = some flight ∧ flight.token = w.token
  launched : ∀ flight, s.flight = some flight → flight.epoch ≤ s.epoch ∧
    ∃ x ∈ past, ∃ pin, Launches flight pin x ∧ (flight.epoch = s.epoch → s.pin = some pin)
  ticket : ∀ ticket, s.ticket = some ticket → ∃ pin, s.pin = some pin ∧
    Since (Brought R ticket pin) (Holds ticket pin) past
  key : ∀ publicKey ticket, s.enrollKey = some publicKey → s.ticket = some ticket →
    ∃ pin transcript, s.pin = some pin ∧
      Since (fun _ x => Asks P publicKey ticket pin transcript x)
        (fun x => Holds ticket pin x ∧ x.asks = none) past
  shown : (s.state = .unknown ∧ s.keyId = "") ∨
    Since (fun _ x => Tells P R s.state s.keyId x) (Keeps R) past

section Recorded

variable {past : List Turn} {x : Turn}

/-- INTERNAL: with something in flight nothing is prepared. -/
theorem Recorded.idle_step (h : Recorded P R past x.before) (hx : x.Of P R) :
    ∀ flight, x.after.flight = some flight → x.after.ticket = none ∧ x.after.enrollKey = none := by
  intro flight hflight
  rcases flight_step hx with ⟨hlands, -, hsame⟩ | ⟨-, -, _, _, -, -, -, -, hticket, hkey⟩ | ⟨_, -, -, -, hnone⟩
  · obtain ⟨hticket, hkey⟩ := h.idle flight (hsame.symm.trans hflight)
    rcases ticket_step hx with hdropped | ⟨hticket', -, ⟨hkey', -⟩ | ⟨_, _, _, _, hasks, -⟩⟩ |
      ⟨-, -, _, _, other, ⟨_, _, hcall, hother, -⟩, -⟩
    · exact hdropped
    · exact ⟨hticket'.trans hticket, hkey'.trans hkey⟩
    · exact absurd (hticket.symm.trans hasks.2.2.1) (by simp)
    · have hlanding : x.lands = some other := by rw [Turn.lands, hcall, landing_finish hother]
      exact absurd (hlands.symm.trans hlanding) (by simp)
  · exact ⟨hticket, hkey⟩
  · exact absurd (hnone.symm.trans hflight) (by simp)

/-- INTERNAL: a key waits only with its ticket. -/
theorem Recorded.keyless_step (h : Recorded P R past x.before) (hx : x.Of P R) :
    x.after.ticket = none → x.after.enrollKey = none := by
  intro hnone
  rcases ticket_step hx with ⟨-, hkey⟩ | ⟨hticket, -, ⟨hkey, -⟩ | ⟨_, _, _, _, hasks, -⟩⟩ |
    ⟨-, -, _, _, _, haccepts, -⟩
  · exact hkey
  · exact hkey.trans (h.keyless (hticket.symm.trans hnone))
  · exact absurd ((hticket.symm.trans hnone).symm.trans hasks.2.2.1) (by simp)
  · obtain ⟨_, _, -, -, -, -, -, -, hbrought⟩ := haccepts
    exact absurd (hnone.symm.trans hbrought) (by simp)

/-- INTERNAL: a body whose flight has not ended is in flight. -/
theorem Recorded.unended_step (h : Recorded P R past x.before) (hx : x.Of P R) :
    ∀ w, Unended w (past ++ [x]) → ∃ flight, x.after.flight = some flight ∧ flight.token = w.token := by
  intro w hopen
  rcases flight_step hx with ⟨-, hhanded, hsame⟩ | ⟨-, hidle, flight, pin, hlaunches, hafter, -⟩ |
    ⟨flight, hlands, hbefore, hhanded, -⟩
  · rcases since_snoc.mp hopen with hnew | ⟨hold, -⟩
    · exact absurd (hhanded.symm.trans hnew) (by simp)
    · obtain ⟨flight, hflight, htoken⟩ := h.unended w hold
      exact ⟨flight, hsame.trans hflight, htoken⟩
  · obtain ⟨-, w', hw', htoken, -⟩ := hlaunches
    rcases since_snoc.mp hopen with hnew | ⟨hold, -⟩
    · obtain rfl := Option.some.inj (hw'.symm.trans hnew)
      exact ⟨flight, hafter, htoken.symm⟩
    · obtain ⟨other, hother, -⟩ := h.unended w hold
      exact absurd (hidle.symm.trans hother) (by simp)
  · rcases since_snoc.mp hopen with hnew | ⟨hold, hquiet⟩
    · exact absurd (hhanded.symm.trans hnew) (by simp)
    · obtain ⟨other, hother, htoken⟩ := h.unended w hold
      obtain rfl := Option.some.inj (hbefore.symm.trans hother)
      exact absurd ⟨flight, hlands, htoken⟩ hquiet

/-- INTERNAL: what is in flight was launched under the pin of its epoch. -/
theorem Recorded.launched_step (h : Recorded P R past x.before) (hx : x.Of P R) :
    ∀ flight, x.after.flight = some flight → flight.epoch ≤ x.after.epoch ∧
      ∃ y ∈ past ++ [x], ∃ pin, Launches flight pin y ∧
        (flight.epoch = x.after.epoch → x.after.pin = some pin) := by
  intro flight hflight
  rcases flight_step hx with ⟨-, -, hsame⟩ | ⟨-, -, other, pin, hlaunches, hafter, hepoch, hpin, -⟩ |
    ⟨_, -, -, -, hnone⟩
  · obtain ⟨hle, y, hy, pin, hlaunches, hpin⟩ := h.launched flight (hsame.symm.trans hflight)
    have hmem : y ∈ past ++ [x] := List.mem_append_left _ hy
    rcases epoch_step hx with hlt | ⟨hepoch, hsamePin⟩
    · refine ⟨by omega, y, hmem, pin, hlaunches, ?_⟩
      intro habsurd
      omega
    · refine ⟨by omega, y, hmem, pin, hlaunches, ?_⟩
      intro heq
      exact hsamePin.trans (hpin (heq.trans hepoch))
  · obtain rfl := Option.some.inj (hafter.symm.trans hflight)
    exact ⟨le_of_eq hepoch, x, by simp, pin, hlaunches, fun _ => hpin⟩
  · exact absurd (hnone.symm.trans hflight) (by simp)

/-- INTERNAL: a ticket is held under the pin it was prepared for. -/
theorem Recorded.ticket_step (h : Recorded P R past x.before) (hx : x.Of P R) :
    ∀ ticket, x.after.ticket = some ticket → ∃ pin, x.after.pin = some pin ∧
      Since (Brought R ticket pin) (Holds ticket pin) (past ++ [x]) := by
  intro ticket hticket
  rcases Keys.ticket_step hx with ⟨hnone, -⟩ | ⟨hsame, hpin, -⟩ |
    ⟨-, hpin, other, pin, flight, haccepts, hepoch⟩
  · exact absurd (hnone.symm.trans hticket) (by simp)
  · obtain ⟨pin, hbefore, hsince⟩ := h.ticket ticket (hsame.symm.trans hticket)
    have hafter := hpin.trans hbefore
    exact ⟨pin, hafter, since_snoc.mpr (Or.inr ⟨hsince, hticket, hafter⟩)⟩
  · have hbrought := haccepts
    obtain ⟨_, _, -, hflight, -, -, -, hbefore, hafter⟩ := haccepts
    obtain rfl := Option.some.inj (hafter.symm.trans hticket)
    obtain ⟨-, y, hy, pin', hlaunches, hpin'⟩ := h.launched flight hflight
    obtain rfl := Option.some.inj (hbefore.symm.trans (hpin' hepoch))
    exact ⟨pin, hpin.trans hbefore, since_snoc.mpr (Or.inl ⟨flight, hbrought, y, hy, hlaunches⟩)⟩

/-- INTERNAL: the key that waits is the last whose transcript was handed out. -/
theorem Recorded.key_step (h : Recorded P R past x.before) (hx : x.Of P R) :
    ∀ publicKey ticket, x.after.enrollKey = some publicKey → x.after.ticket = some ticket →
      ∃ pin transcript, x.after.pin = some pin ∧
        Since (fun _ y => Asks P publicKey ticket pin transcript y)
          (fun y => Holds ticket pin y ∧ y.asks = none) (past ++ [x]) := by
  intro publicKey ticket hkey hticket
  rcases Keys.ticket_step hx with ⟨hnone, -⟩ |
    ⟨hsame, hpin, ⟨hkey', hquiet⟩ | ⟨asked, held, pin, transcript, hasks, hkey'⟩⟩ |
    ⟨hkey', -, other, pin, flight, haccepts, -⟩
  · exact absurd (hnone.symm.trans hticket) (by simp)
  · obtain ⟨pin, transcript, hbefore, hsince⟩ :=
      h.key publicKey ticket (hkey'.symm.trans hkey) (hsame.symm.trans hticket)
    have hafter := hpin.trans hbefore
    exact ⟨pin, transcript, hafter, since_snoc.mpr (Or.inr ⟨hsince, ⟨hticket, hafter⟩, hquiet⟩)⟩
  · obtain rfl := Option.some.inj (hkey'.symm.trans hkey)
    obtain rfl := Option.some.inj ((hsame.trans hasks.2.2.1).symm.trans hticket)
    exact ⟨pin, transcript, hpin.trans hasks.2.2.2.1, since_snoc.mpr (Or.inl hasks)⟩
  · -- a preparation is accepted with nothing waiting
    obtain ⟨_, _, -, hflight, -⟩ := haccepts
    obtain ⟨-, hnone⟩ := h.idle flight hflight
    exact absurd ((hkey'.trans hnone).symm.trans hkey) (by simp)

/-- INTERNAL: what is shown was told. -/
theorem Recorded.shown_step (h : Recorded P R past x.before) (hx : x.Of P R) :
    (x.after.state = .unknown ∧ x.after.keyId = "") ∨
      Since (fun _ y => Tells P R x.after.state x.after.keyId y) (Keeps R) (past ++ [x]) := by
  rcases Keys.shown_step hx with hunknown | htells | ⟨hstate, hkey, hkeeps⟩
  · exact Or.inl hunknown
  · exact Or.inr (since_snoc.mpr (Or.inl htells))
  · rw [hstate, hkey]
    apply h.shown.imp_right
    intro hsince
    exact since_snoc.mpr (Or.inr ⟨hsince, hkeeps⟩)

/-- **One more turn.** -/
theorem Recorded.step (h : Recorded P R past x.before) (hx : x.Of P R) :
    Recorded P R (past ++ [x]) x.after where
  idle := h.idle_step hx
  keyless := h.keyless_step hx
  unended := h.unended_step hx
  launched := h.launched_step hx
  ticket := h.ticket_step hx
  key := h.key_step hx
  shown := h.shown_step hx

end Recorded

/-- INTERNAL: a session that was just made. -/
theorem recorded_initial : Recorded P R [] Session.initial where
  idle := by
    intro flight h
    cases h
  keyless := fun _ => rfl
  unended := by
    intro w h
    exact absurd h not_since_nil
  launched := by
    intro flight h
    cases h
  ticket := by
    intro ticket h
    cases h
  key := by
    intro publicKey ticket h
    cases h
  shown := Or.inl ⟨rfl, rfl⟩

/-! ## The run -/

/-- The ticket a body uses up: its operation, its action and its token. -/
def spends : Request → Option (Operation × String × String)
  | .enroll actionId ticket _ _ _ => some (.enroll, actionId, ticket)
  | .revoke _ actionId ticket _ => some (.revoke, actionId, ticket)
  | _ => none

/-- The ticket a turn uses up. -/
def Turn.spent (x : Turn) : Option (Operation × String × String) :=
  x.answer.handed.bind fun w => spends w.request

/-- The clock's reading where a mutation looks at its ticket. -/
def reading : Call → Option ℕ
  | .beginEnroll _ _ _ first _ => some first
  | .beginRevoke _ first _ => some first
  | _ => none

/-- INTERNAL: a body that uses up a ticket is a mutation of the ticket that is held. -/
theorem mutates_of_spent {x : Turn} {what : Operation × String × String} (hx : x.Of P R)
    (h : x.spent = some what) :
    ∃ pin ticket flight request, x.before.pin = some pin ∧ x.before.ticket = some ticket ∧
      (∃ w, x.answer.handed = some w ∧ w.request = request) ∧ x.after.ticket = none ∧
      Mutates P R x.before x.call ticket pin flight request ∧
      what = (ticket.prepared.operation, ticket.prepared.actionId, ticket.prepared.ticket) := by
  obtain ⟨s, call, answer, s'⟩ := x
  simp only [Turn.Of, Turn.spent] at hx h ⊢
  cases hx with
  | kept answer outcome message hhanded =>
    rw [hhanded] at h
    cases h
  | dropped answer outcome message hhanded =>
    rw [hhanded] at h
    cases h
  | cleared answer pin outcome message hhanded =>
    rw [hhanded] at h
    cases h
  | asked command =>
    cases command <;> cases h
  | mutated pin ticket flight request message hflight hpin hticket htoken hepoch hmutates =>
    refine ⟨pin, ticket, flight, request, hpin, hticket, ⟨_, rfl, rfl⟩, rfl, hmutates, ?_⟩
    obtain ⟨now, -, ⟨hoperation, -, password, signature, second, transcript, -, rfl, -⟩ |
      ⟨hoperation, -, password, second, -, rfl⟩⟩ := hmutates.operation
    · rw [hoperation]
      exact (Option.some.inj h).symm
    · rw [hoperation]
      exact (Option.some.inj h).symm
  | _ => cases h

/-- What a turn of a run promises, given the turns before it. -/
structure Promises (P : Packages) (R : Replies) (front : List Turn) (x : Turn) : Prop where
  single : ∀ w, x.answer.handed = some w → x.before.flight = none ∧ ∀ earlier, ¬ Unended earlier front
  uses : ∀ operation actionId token, x.spent = some (operation, actionId, token) →
    ∃ ticket pin now, x.before.ticket = some ticket ∧ x.before.pin = some pin ∧
      ticket.prepared.operation = operation ∧ ticket.prepared.actionId = actionId ∧
      ticket.prepared.ticket = token ∧ reading x.call = some now ∧
      ticket.fresh operation now = true ∧ Since (Brought R ticket pin) (Holds ticket pin) front
  once : ∀ operation actionId token, x.spent = some (operation, actionId, token) →
    ∀ earlier y mid operation' actionId', front = earlier ++ y :: mid →
      y.spent = some (operation', actionId', token) →
      ∃ z ∈ mid, ∃ ticket pin flight, ticket.prepared.ticket = token ∧ Accepts R ticket pin flight z
  enrols : ∀ w actionId token password publicKey signature, x.answer.handed = some w →
    w.request = .enroll actionId token password publicKey signature →
    ∃ ticket pin transcript, x.before.ticket = some ticket ∧ ticket.prepared.ticket = token ∧
      x.before.pin = some pin ∧ verify P R publicKey transcript signature = true ∧
      Since (fun _ y => Asks P publicKey ticket pin transcript y)
        (fun y => Holds ticket pin y ∧ y.asks = none) front
  ends : ∀ flight, x.lands = some flight → flight.sent.mutation = true →
    (∃ y ∈ front, ∃ pin, Launches flight pin y) ∧
    ((∃ named, Learns P R flight named x ∧ (x.after.state, x.after.keyId) = shows named) ∨
      ((∃ code, x.refusal R = some code ∧ Harmless code) ∧ x.after.state = x.before.state ∧
        x.after.keyId = x.before.keyId) ∨
      (x.after.state = .unknown ∧ x.after.keyId = ""))
  shown : (x.before.state = .unknown ∧ x.before.keyId = "") ∨
    Since (fun _ y => Tells P R x.before.state x.before.keyId y) (Keeps R) front

section Promises

variable {front : List Turn} {x : Turn}

/-- INTERNAL: a body is handed out with nothing in flight. -/
theorem Recorded.single (h : Recorded P R front x.before) (hx : x.Of P R) (w : Work)
    (hhanded : x.answer.handed = some w) :
    x.before.flight = none ∧ ∀ earlier, ¬ Unended earlier front := by
  have hidle : x.before.flight = none := by
    rcases flight_step hx with ⟨-, hnone, -⟩ | ⟨-, hidle, -⟩ | ⟨_, -, -, hnone, -⟩
    · exact absurd (hnone.symm.trans hhanded) (by simp)
    · exact hidle
    · exact absurd (hnone.symm.trans hhanded) (by simp)
  constructor
  · exact hidle
  · intro earlier hunended
    obtain ⟨flight, hflight, -⟩ := h.unended earlier hunended
    exact absurd (hidle.symm.trans hflight) (by simp)

/-- INTERNAL: the ticket of a mutation. -/
theorem Recorded.uses (h : Recorded P R front x.before) (hx : x.Of P R) (operation : Operation)
    (actionId token : String) (hspent : x.spent = some (operation, actionId, token)) :
    ∃ ticket pin now, x.before.ticket = some ticket ∧ x.before.pin = some pin ∧
      ticket.prepared.operation = operation ∧ ticket.prepared.actionId = actionId ∧
      ticket.prepared.ticket = token ∧ reading x.call = some now ∧
      ticket.fresh operation now = true ∧ Since (Brought R ticket pin) (Holds ticket pin) front := by
  obtain ⟨pin, ticket, flight, request, hpin, hticket, -, -, hmutates, hwhat⟩ := mutates_of_spent hx hspent
  obtain ⟨rfl, hrest⟩ := Prod.mk.inj hwhat
  obtain ⟨rfl, rfl⟩ := Prod.mk.inj hrest
  obtain ⟨pin', hpin', hsince⟩ := h.ticket ticket hticket
  obtain rfl := Option.some.inj (hpin.symm.trans hpin')
  obtain ⟨now, hfresh, hcall⟩ := hmutates.operation
  have hreading : reading x.call = some now := by
    rcases hcall with ⟨-, -, password, signature, second, transcript, hcall, -⟩ |
      ⟨-, -, password, second, hcall, -⟩
    · rw [hcall, reading]
    · rw [hcall, reading]
  exact ⟨ticket, pin, now, hticket, hpin, rfl, rfl, rfl, hreading, hfresh, hsince⟩

/-- INTERNAL: a ticket that was used is used again only after another reply brought it. -/
theorem Recorded.once (h : Recorded P R front x.before) (hx : x.Of P R) (operation : Operation)
    (actionId token : String) (hspent : x.spent = some (operation, actionId, token))
    {earlier mid : List Turn} {y : Turn} (hfront : front = earlier ++ y :: mid) (hy : y.Of P R)
    {what : Operation × String × String} (hbefore : y.spent = some what) :
    ∃ z ∈ mid, ∃ ticket pin flight, ticket.prepared.ticket = token ∧ Accepts R ticket pin flight z := by
  obtain ⟨ticket, pin, now, -, -, -, -, htoken, -, -, hsince⟩ := h.uses hx operation actionId token hspent
  obtain ⟨-, -, -, -, -, -, -, hnone, -⟩ := mutates_of_spent hy hbefore
  rw [hfront] at hsince
  obtain ⟨z, hz, before, flight, haccepts, -⟩ : ∃ z ∈ mid, ∃ before, Brought R ticket pin before z := by
    apply hsince.between
    · rintro before ⟨flight, ⟨_, _, -, -, -, -, -, -, hafter⟩, -⟩
      exact absurd (hnone.symm.trans hafter) (by simp)
    · rintro ⟨hafter, -⟩
      exact absurd (hnone.symm.trans hafter) (by simp)
  exact ⟨z, hz, ticket, pin, flight, htoken, haccepts⟩

/-- INTERNAL: an enrolment is signed over the last transcript. -/
theorem Recorded.enrols (h : Recorded P R front x.before) (hx : x.Of P R) (w : Work)
    (actionId token password : String) (publicKey signature : List UInt8)
    (hhanded : x.answer.handed = some w)
    (hrequest : w.request = .enroll actionId token password publicKey signature) :
    ∃ ticket pin transcript, x.before.ticket = some ticket ∧ ticket.prepared.ticket = token ∧
      x.before.pin = some pin ∧ verify P R publicKey transcript signature = true ∧
      Since (fun _ y => Asks P publicKey ticket pin transcript y)
        (fun y => Holds ticket pin y ∧ y.asks = none) front := by
  have hspent : x.spent = some (.enroll, actionId, token) := by
    rw [Turn.spent, hhanded, Option.bind_some, hrequest, spends]
  obtain ⟨pin, ticket, flight, request, hpin, hticket, ⟨w', hw', rfl⟩, -, hmutates, hwhat⟩ :=
    mutates_of_spent hx hspent
  obtain rfl := Option.some.inj (hhanded.symm.trans hw')
  obtain ⟨hoperation, hrest⟩ := Prod.mk.inj hwhat
  obtain ⟨rfl, rfl⟩ := Prod.mk.inj hrest
  obtain ⟨now, -, ⟨-, -, password', signature', second, transcript, hcall, hrequest', hkey,
    htranscript, hverify⟩ | ⟨hother, -⟩⟩ := hmutates.operation
  · obtain ⟨-, -, -, rfl, rfl⟩ := Request.enroll.inj (hrequest.symm.trans hrequest')
    obtain ⟨pin', transcript', hpin', hsince⟩ := h.key flight.publicKey ticket hkey hticket
    obtain rfl := Option.some.inj (hpin.symm.trans hpin')
    have hsame : transcript' = transcript := by
      obtain ⟨_, y, _, -, ⟨-, -, -, -, hasked⟩, -⟩ := hsince
      exact Option.some.inj (hasked.symm.trans htranscript)
    rw [hsame] at hsince
    exact ⟨ticket, pin, transcript, hticket, rfl, hpin, hverify, hsince⟩
  · exact absurd (hoperation.trans hother) (by decide)

/-- INTERNAL: what is shown where a mutation ends. -/
theorem Recorded.ends (h : Recorded P R front x.before) (hx : x.Of P R) (flight : Flight)
    (hlands : x.lands = some flight) (hmutation : flight.sent.mutation = true) :
    (∃ y ∈ front, ∃ pin, Launches flight pin y) ∧
    ((∃ named, Learns P R flight named x ∧ (x.after.state, x.after.keyId) = shows named) ∨
      ((∃ code, x.refusal R = some code ∧ Harmless code) ∧ x.after.state = x.before.state ∧
        x.after.keyId = x.before.keyId) ∨
      (x.after.state = .unknown ∧ x.after.keyId = "")) := by
  constructor
  · obtain ⟨-, y, hy, pin, hlaunches, -⟩ := h.launched flight (flight_of_landing hlands)
    exact ⟨y, hy, pin, hlaunches⟩
  · rcases Keys.shown_step hx with hunknown | (⟨other, named, hlearns, hshows⟩ | ⟨other, hother, hreads, -⟩) |
      ⟨hstate, hkey, hkeeps⟩
    · exact Or.inr (Or.inr hunknown)
    · have hsame : x.before.flight = some other := by
        obtain ⟨_, _, _, -, hflight, -⟩ := hlearns
        exact hflight
      obtain rfl := Option.some.inj (hsame.symm.trans (flight_of_landing hlands))
      exact Or.inl ⟨named, hlearns, hshows⟩
    · obtain rfl := Option.some.inj (hother.symm.trans hlands)
      exact absurd (hreads.symm.trans hmutation) (by simp)
    · exact Or.inr (Or.inl ⟨hkeeps flight hlands hmutation, hstate, hkey⟩)

end Promises

/-- **Keys are changed once and shown as told.** In every run one body is in flight at a time; a
body that changes the key uses up the ticket that is held, of its operation, in its time and under
its pin; an enrolment carries a signature of the last transcript of that ticket; and what is shown
of the key was told by the provider since any change that may have happened.
SRCLINE: biometric.rs:109-512 -/
theorem keys_shown_as_told (P : Packages) (R : Replies) (calls : List Call) :
    Each (Promises P R) (Session.initial.run P R calls) := by
  intro front x back hrun
  have hof : ∀ y : Turn, y ∈ Session.initial.run P R calls → y.Of P R := by
    intro y hy
    obtain ⟨before, after, hsplit⟩ := List.append_of_mem hy
    rw [(trace_split hsplit).1]
    exact entryAt_of P R y.before y.call
  have hx : x.Of P R := hof x (by rw [hrun]; simp)
  have hrecorded : Recorded P R front x.before := by
    have h := @trace_history _ _ _ (Session.step P R) (Recorded P R)
      (fun past s call h => Recorded.step (x := entryAt (Session.step P R) s call) h
        (entryAt_of P R s call)) _ _ [] _ _ _ hrun recorded_initial
    rwa [List.nil_append] at h
  constructor
  · exact hrecorded.single hx
  · exact hrecorded.uses hx
  · intro operation actionId token hspent earlier y mid operation' actionId' hfront hbefore
    have hmem : y ∈ Session.initial.run P R calls := by
      rw [hrun, hfront]
      simp
    exact hrecorded.once hx operation actionId token hspent hfront (hof y hmem) hbefore
  · exact hrecorded.enrols hx
  · exact hrecorded.ends hx
  · exact hrecorded.shown

/-! ## A ticket that is repeated -/

def sampleProvider : String := "0123456789abcdef0123456789abcdef0123456789abcdef0123456789abcdef"
def sampleClient : String := "89abcdef0123456789abcdef0123456789abcdef0123456789abcdef01234567"
def sampleAction : String := "BBBBBBBBBBBBBBBBBBBBBBBBBBBBBBBBBBBBBBBBBBB"
def sampleTicket : String := "feedfeedfeedfeedfeedfeedfeedfeedfeedfeedfeedfeedfeedfeedfeedfeed"

def samplePrepared : Prepared where
  version := 2
  operation := .revoke
  target := { kind := .approvalClient, id := sampleClient }
  actionId := sampleAction
  ticket := sampleTicket
  generation := 1
  validForSeconds := 55
  providerIdentity := sampleProvider
  biometricKeyId := none

def samplePreparedReply : List UInt8 :=
  Json.toVec (.obj [("action_id", .str sampleAction), ("biometric_key_id", .null),
    ("generation", .int 1), ("operation", .str "revoke"),
    ("provider_identity", .str sampleProvider),
    ("target", .obj [("id", .str sampleClient), ("kind", .str "approval_client")]),
    ("ticket", .str sampleTicket), ("valid_for_seconds", .int 55), ("version", .int 2)])

def sampleErrorReply : List UInt8 :=
  Json.toVec (.obj [("error", .str "rate_limited"), ("version", .int 1)])

/-- What `serde` decodes the replies above to (the error reply is the one that starts with its
`error` member). -/
def sampleReplies : Replies where
  errorResponse := fun bytes =>
    if bytes[2]? = some 0x65 then some { version := 1, error := .rateLimited } else none
  detail := fun _ => none
  prepared := fun _ => some samplePrepared
  enrolled := fun _ => none
  revoked := fun _ => none
  verifies := fun _ _ _ => false

/-- A revocation asks for no hash and no key. -/
def samplePackages : Packages where
  sha256 := fun _ => Vector.replicate 32 0
  fromDer := fun _ => false
  fromSec1Bytes := fun _ => false
  errorResponse := fun _ => none
  sessionResponse := fun _ => none
  listResponse := fun _ => none
  historyResponse := fun _ => none
  reviewResponse := fun _ => none
  reviewResponseV2 := fun _ => none
  rawReview := fun _ => none
  statusResponse := fun _ => none

/-- A revocation that is prepared and sent. -/
def sampleRevocation (token : ℕ) : List Call :=
  [.begin .prepareRevoke 0, .finish token samplePreparedReply 0, .beginRevoke "password" 0 0]

/-- The provider limits the first revocation and repeats its prepare reply. -/
def sampleRepetition : List Call :=
  .configure sampleProvider sampleClient :: sampleRevocation 1 ++
    .finish 2 sampleErrorReply 0 :: sampleRevocation 3

/-- The same ticket stands in two bodies. -/
theorem repeated_key_ticket :
    (Session.initial.run samplePackages sampleReplies sampleRepetition).map Turn.spent =
      [none, none, none, some (.revoke, sampleAction, sampleTicket), none, none, none,
        some (.revoke, sampleAction, sampleTicket)] := by
  decide +kernel

end VaultAccess.Analysis.Companion.Keys
