import VaultAccess.Model.Session

/-!
# Calls of a companion session

What each call of a provider session can change. The review, the pin and the authority
do not change within one epoch; a flight and a decision outlive an epoch. Each call has
one lemma with all its cases, and the proofs about runs use these only.
-/

set_option autoImplicit false

namespace VaultAccess.Analysis.Companion

open VaultAccess.Library VaultAccess.Model.Companion

/-! ## What the calls return -/

@[simp] theorem handed_work_error (error : String) : (Answer.work (.error error)).handed = none := rfl

@[simp] theorem handed_work_ok (w : Work) : (Answer.work (.ok w)).handed = some w := rfl

@[simp] theorem handed_proof_error (refusal : Refusal) :
    (Answer.proof (.error refusal)).handed = none := rfl

@[simp] theorem handed_proof_ok (w : Work) : (Answer.proof (.ok w)).handed = some w := rfl

/-- The decision a call handed out, with the token of its flight. -/
def decisionOf (e : Entry Session Call Answer) : Option (ℕ × String × Option String) :=
  e.answer.handed.bind fun w => w.request.decides.map fun d => (w.token, d.1, d.2)

/-- INTERNAL: which commands are refused while a decision is unresolved. -/
theorem refuses_eq_none_of_unresolved {s : Session} {command : Command} {id password r : String}
    (hunresolved : s.unresolved = some r) (h : s.refuses command id password = none) :
    command = .status ∧ id = r := by
  unfold Session.refuses at h
  split_ifs at h with hbusy hid hpassword huncertain
  rw [hunresolved] at huncertain
  simp only [Option.isSome_some, ne_eq, Option.some.injEq, true_and, not_or, not_not] at huncertain
  exact ⟨huncertain.1, huncertain.2.symm⟩

/-- INTERNAL: no transcript is computed while a decision is unresolved. -/
theorem signingTranscript_unresolved (P : Packages) {s : Session} {r : String}
    (hunresolved : s.unresolved = some r) (reading : Reading) :
    ∃ refusal, s.signingTranscript P reading = .error refusal := by
  unfold Session.signingTranscript
  rw [hunresolved]
  split_ifs
  · exact ⟨_, rfl⟩
  · exact ⟨_, rfl⟩
  · exact ⟨_, rfl⟩
  · simp at *

/-- INTERNAL: no proof is sent while a decision is unresolved. -/
theorem proves_unresolved (P : Packages) {s : Session} {r : String}
    (hunresolved : s.unresolved = some r) (handle : ℕ) (keyId : String) (signature : List UInt8)
    (reading : Reading) : ∃ refusal, s.proves P handle keyId signature reading = .error refusal := by
  obtain ⟨refusal, hrefusal⟩ := signingTranscript_unresolved P hunresolved reading
  unfold Session.proves
  rw [hrefusal]
  by_cases hhandle : s.prepared ≠ some handle ∨ handle ≠ s.epoch
  · rw [if_pos hhandle]
    split_ifs <;> exact ⟨_, rfl⟩
  · rw [if_neg hhandle]
    exact ⟨refusal, rfl⟩

/-! ## What a call can change -/

/-- The decision, the flight and the pin are kept. -/
structure Carries (s s' : Session) : Prop where
  unresolved : s'.unresolved = s.unresolved
  flight : s'.flight = s.flight
  pin : s'.pin = s.pin

/-- The epoch, the review and the authority are kept. -/
structure Quiet (s s' : Session) : Prop where
  epoch : s'.epoch = s.epoch
  reviewed : s'.reviewed = s.reviewed
  authority : s'.authority = s.authority

/-- A later epoch, without a review. -/
structure Turned (s s' : Session) : Prop where
  epoch : s.epoch < s'.epoch
  reviewed : s'.reviewed = none

theorem turned_invalidate (s : Session) : Turned s s.invalidate := ⟨Nat.lt_succ_self _, rfl⟩

theorem carries_invalidate (s : Session) : Carries s s.invalidate := ⟨rfl, rfl, rfl⟩

/-- INTERNAL: a session reply that shows another authority begins an epoch. -/
theorem acceptSession_cases {s s' : Session} {reply : SessionResponse}
    (h : s.acceptSession reply = some s') : Carries s s' ∧ (Quiet s s' ∨ Turned s s') := by
  unfold Session.acceptSession at h
  by_cases hversion : reply.version ≠ 1
  · rw [if_pos hversion] at h
    exact absurd h (by simp)
  · rw [if_neg hversion] at h
    obtain rfl := Option.some.inj h
    by_cases hauthority : s.authority ≠ some (reply.state, reply.generation)
    · simp only [if_pos hauthority]
      exact ⟨⟨rfl, rfl, rfl⟩, Or.inr ⟨Nat.lt_succ_self _, rfl⟩⟩
    · simp only [if_neg hauthority]
      exact ⟨⟨rfl, rfl, rfl⟩, Or.inl ⟨rfl, rfl, (not_not.mp hauthority).symm⟩⟩

/-- INTERNAL: history is for display. -/
theorem acceptHistory_cases {s s' : Session} {reply : HistoryResponse}
    (h : s.acceptHistory reply = some s') : Carries s s' ∧ Quiet s s' := by
  unfold Session.acceptHistory at h
  split_ifs at h
  obtain rfl := Option.some.inj h
  exact ⟨⟨rfl, rfl, rfl⟩, ⟨rfl, rfl, rfl⟩⟩

/-- INTERNAL: a list without the reviewed request begins an epoch. -/
theorem acceptList_cases {s s' : Session} {reply : ListResponse}
    (h : s.acceptList reply = some s') : Carries s s' ∧ (Quiet s s' ∨ Turned s s') := by
  unfold Session.acceptList at h
  split_ifs at h
  · obtain rfl := Option.some.inj h
    exact ⟨⟨rfl, rfl, rfl⟩, Or.inr ⟨Nat.lt_succ_self _, rfl⟩⟩
  · obtain rfl := Option.some.inj h
    exact ⟨⟨rfl, rfl, rfl⟩, Or.inl ⟨rfl, rfl, rfl⟩⟩

/-- INTERNAL: a review reply sets the review. -/
theorem acceptReview_cases {s s' : Session} {flight : Flight} {reply : ReviewResponse}
    {signed : Option (Json × Option ApprovalBinding)}
    (h : s.acceptReview flight reply signed = some s') :
    Carries s s' ∧ s'.epoch = s.epoch ∧
      s'.reviewed = some { response := reply, started := flight.started, signed } := by
  unfold Session.acceptReview at h
  by_cases hreply : reply.version ≠ (if flight.v2 then 2 else 1) ∨ reply.review.valid = false ∨
      reply.review.id ≠ flight.id ∨ reply.ticket.any (!validHex ·) = true ∨
      (reply.ticket.isSome ∧ reply.review.status ≠ .pending) ∨
      s.authority ≠ some (.unlocked, reply.generation)
  · rw [if_pos hreply] at h
    exact absurd h (by simp)
  · rw [if_neg hreply] at h
    obtain rfl := Option.some.inj h
    exact ⟨⟨rfl, rfl, rfl⟩, rfl, rfl⟩

theorem proofAnswered_cases (s : Session) (flight : Flight) (status : Status) :
    Carries s (s.proofAnswered flight status) ∧ Quiet s (s.proofAnswered flight status) := by
  unfold Session.proofAnswered
  split_ifs <;> exact ⟨⟨rfl, rfl, rfl⟩, ⟨rfl, rfl, rfl⟩⟩

/-- INTERNAL: an accepted status reply clears only the decision it is for, and only when
that is not pending. -/
theorem acceptStatus_cases {s s' : Session} {flight : Flight} {reply : StatusResponse}
    (h : s.acceptStatus flight reply = some s') :
    s'.flight = s.flight ∧ s'.pin = s.pin ∧ Quiet s s' ∧
      (s'.unresolved = s.unresolved ∨
        (reply.status ≠ .pending ∧ s.unresolved = some flight.id)) := by
  obtain ⟨hcarries, hquiet⟩ := proofAnswered_cases s flight reply.status
  unfold Session.acceptStatus at h
  by_cases hversion : reply.version ≠ (if flight.proof then 2 else 1)
  · rw [if_pos hversion] at h
    exact absurd h (by simp)
  · rw [if_neg hversion] at h
    obtain rfl := Option.some.inj h
    refine ⟨hcarries.flight, hcarries.pin, ⟨hquiet.epoch, hquiet.reviewed, hquiet.authority⟩, ?_⟩
    by_cases hclears : reply.status ≠ .pending ∧ s.unresolved = some flight.id
    · exact Or.inr hclears
    · exact Or.inl (if_neg hclears)

/-- The command of a flight whose reply shows a status. -/
def Command.showsStatus (command : Command) : Bool := command.isDecision || command = .status

/-- The reply to a review flight, with the part that is signed. -/
def reviewReply (P : Packages) (flight : Flight) (bytes : List UInt8) :
    Option (ReviewResponse × Option (Json × Option ApprovalBinding)) :=
  if flight.v2 then (decodeReview P bytes).map fun reply => (reply.1, some (reply.2.1, reply.2.2))
  else (decode P.reviewResponse bytes).map fun reply => (reply, none)

/-- **What an accepted reply does**, by the command of its flight. -/
theorem accept_cases {P : Packages} {s s' : Session} {flight : Flight} {bytes : List UInt8}
    (h : s.accept P flight bytes = some s') :
    (Command.showsStatus flight.command = false ∧ flight.command ≠ .review ∧ Carries s s' ∧
        (Quiet s s' ∨ Turned s s')) ∨
      (flight.command = .review ∧ Carries s s' ∧ s'.epoch = s.epoch ∧
        ∃ reply signed, reviewReply P flight bytes = some (reply, signed) ∧
          s'.reviewed = some { response := reply, started := flight.started, signed }) ∨
      (Command.showsStatus flight.command = true ∧ s'.flight = s.flight ∧ s'.pin = s.pin ∧
        Quiet s s' ∧
        (s'.unresolved = s.unresolved ∨
          (s.unresolved = some flight.id ∧
            ∃ reply, decode P.statusResponse bytes = some reply ∧ reply.status ≠ .pending))) := by
  have hstatus : (decode P.statusResponse bytes).bind (s.acceptStatus flight) = some s' →
      s'.flight = s.flight ∧ s'.pin = s.pin ∧ Quiet s s' ∧
        (s'.unresolved = s.unresolved ∨
          (s.unresolved = some flight.id ∧
            ∃ reply, decode P.statusResponse bytes = some reply ∧ reply.status ≠ .pending)) := by
    intro hbind
    obtain ⟨reply, hdecode, hreply⟩ := Option.bind_eq_some_iff.mp hbind
    obtain ⟨hflight, hpin, hquiet, hunresolved | ⟨hpending, hid⟩⟩ := acceptStatus_cases hreply
    · exact ⟨hflight, hpin, hquiet, Or.inl hunresolved⟩
    · exact ⟨hflight, hpin, hquiet, Or.inr ⟨hid, reply, hdecode, hpending⟩⟩
  unfold Session.accept at h
  cases hcommand : flight.command with
  | session =>
    rw [hcommand] at h
    obtain ⟨reply, -, hreply⟩ := Option.bind_eq_some_iff.mp h
    exact Or.inl ⟨rfl, by decide, acceptSession_cases hreply⟩
  | unlock =>
    rw [hcommand] at h
    obtain ⟨reply, -, hreply⟩ := Option.bind_eq_some_iff.mp h
    exact Or.inl ⟨rfl, by decide, acceptSession_cases hreply⟩
  | history =>
    rw [hcommand] at h
    obtain ⟨reply, -, hreply⟩ := Option.bind_eq_some_iff.mp h
    obtain ⟨hcarries, hquiet⟩ := acceptHistory_cases hreply
    exact Or.inl ⟨rfl, by decide, hcarries, Or.inl hquiet⟩
  | list =>
    rw [hcommand] at h
    obtain ⟨reply, -, hreply⟩ := Option.bind_eq_some_iff.mp h
    exact Or.inl ⟨rfl, by decide, acceptList_cases hreply⟩
  | review =>
    rw [hcommand] at h
    have hreply : ∃ reply signed, reviewReply P flight bytes = some (reply, signed) ∧
        s.acceptReview flight reply signed = some s' := by
      unfold reviewReply
      dsimp only at h
      split_ifs at h ⊢
      · obtain ⟨reply, hdecode, hreply⟩ := Option.bind_eq_some_iff.mp h
        exact ⟨_, _, by rw [hdecode]; rfl, hreply⟩
      · obtain ⟨reply, hdecode, hreply⟩ := Option.bind_eq_some_iff.mp h
        exact ⟨_, _, by rw [hdecode]; rfl, hreply⟩
    obtain ⟨reply, signed, hdecode, hreply⟩ := hreply
    obtain ⟨hcarries, hepoch, hreviewed⟩ := acceptReview_cases hreply
    exact Or.inr (Or.inl ⟨rfl, hcarries, hepoch, reply, signed, hdecode, hreviewed⟩)
  | approve =>
    rw [hcommand] at h
    exact Or.inr (Or.inr ⟨rfl, hstatus h⟩)
  | deny =>
    rw [hcommand] at h
    exact Or.inr (Or.inr ⟨rfl, hstatus h⟩)
  | status =>
    rw [hcommand] at h
    exact Or.inr (Or.inr ⟨rfl, hstatus h⟩)

/-- INTERNAL: what an error reply does. The decision is cleared only by a definite
rejection of a decision's flight. -/
theorem rejected_cases (s : Session) (flight : Flight) (error : ErrorCode) :
    (s.rejected flight error).flight = s.flight ∧ (s.rejected flight error).pin = s.pin ∧
      Turned s (s.rejected flight error) ∧
      ((s.rejected flight error).unresolved = s.unresolved ∨
        (flight.command.isDecision = true ∧ error.definiteRejection = true)) := by
  have hproof : Carries s (s.proofRejected flight error) ∧
      (s.proofRejected flight error).epoch = s.epoch := by
    unfold Session.proofRejected
    split_ifs <;> exact ⟨⟨rfl, rfl, rfl⟩, rfl⟩
  obtain ⟨hcarries, hepoch⟩ := hproof
  have hturned : s.epoch < (s.proofRejected flight error).epoch + 1 := by omega
  unfold Session.rejected
  dsimp only
  split_ifs with hhistory hunsupported hdefinite
  · exact ⟨hcarries.flight, hcarries.pin, ⟨hturned, rfl⟩, Or.inl hcarries.unresolved⟩
  · exact ⟨hcarries.flight, hcarries.pin, ⟨hturned, rfl⟩, Or.inl hcarries.unresolved⟩
  · exact ⟨hcarries.flight, hcarries.pin, ⟨hturned, rfl⟩, Or.inr (Bool.and_eq_true_iff.mp hdefinite)⟩
  · exact ⟨hcarries.flight, hcarries.pin, ⟨hturned, rfl⟩, Or.inl hcarries.unresolved⟩
  · exact ⟨hcarries.flight, hcarries.pin, ⟨hturned, rfl⟩, Or.inl hcarries.unresolved⟩

theorem unusable_cases (s : Session) (flight : Flight) :
    Carries s (s.unusable flight) ∧ Turned s (s.unusable flight) := by
  unfold Session.unusable
  split_ifs <;> exact ⟨⟨rfl, rfl, rfl⟩, ⟨Nat.lt_succ_self _, rfl⟩⟩

/-- **What a reply does**: it is stale, or its flight is over and the reply is an error,
unusable or accepted. -/
theorem finish_cases (P : Packages) (s : Session) (token : ℕ) (bytes : List UInt8) :
    (s.finish P token bytes = { s with outcome := .stale }) ∨
      ∃ flight, s.flight = some flight ∧ flight.token = token ∧
        ((flight.command.isDecision = false ∧ flight.epoch ≠ s.epoch ∧
            s.finish P token bytes =
              { s with flight := none, authority := none, requests := [], outcome := .stale }) ∨
          (∃ error, errorOf P bytes = some error ∧
            s.finish P token bytes = { s with flight := none }.rejected flight error) ∨
          (errorOf P bytes = none ∧
            s.finish P token bytes = { s with flight := none }.unusable flight) ∨
          (errorOf P bytes = none ∧ ∃ s', { s with flight := none }.accept P flight bytes = some s' ∧
            s.finish P token bytes = { s' with outcome := .accepted })) := by
  unfold Session.finish
  cases hflight : s.flight with
  | none => exact Or.inl rfl
  | some flight =>
    dsimp only
    by_cases htoken : flight.token ≠ token
    · rw [if_pos htoken]
      exact Or.inl rfl
    · rw [if_neg htoken]
      refine Or.inr ⟨flight, rfl, not_not.mp htoken, ?_⟩
      by_cases hstale : (!flight.command.isDecision && decide (flight.epoch ≠ s.epoch)) = true
      · rw [if_pos hstale]
        simp only [Bool.and_eq_true, Bool.not_eq_true', decide_eq_true_eq] at hstale
        exact Or.inl ⟨hstale.1, hstale.2, rfl⟩
      · rw [if_neg hstale]
        cases herror : errorOf P bytes with
        | some error => exact Or.inr (Or.inl ⟨error, rfl, rfl⟩)
        | none =>
          cases haccept : { s with flight := none }.accept P flight bytes with
          | none => exact Or.inr (Or.inr (Or.inl ⟨rfl, rfl⟩))
          | some s' => exact Or.inr (Or.inr (Or.inr ⟨rfl, s', rfl, rfl⟩))

/-- INTERNAL: a new setup begins an epoch; it is refused while something is open. -/
theorem configure_cases (s : Session) (uncertainId : String) :
    (s.configure uncertainId).2 = s ∨
      (s.flight = none ∧ s.unresolved = none ∧ Turned s (s.configure uncertainId).2 ∧
        (s.configure uncertainId).2.flight = none) := by
  unfold Session.configure
  by_cases hopen : (s.flight.isSome || s.unresolved.isSome) = true
  · rw [if_pos hopen]
    exact Or.inl rfl
  · rw [if_neg hopen]
    simp only [Bool.or_eq_true, not_or, Bool.not_eq_true, Option.isSome_eq_false_iff,
      Option.isNone_iff_eq_none] at hopen
    refine Or.inr ⟨hopen.1, hopen.2, ?_⟩
    dsimp only
    split_ifs
    · exact ⟨turned_invalidate s, hopen.1⟩
    · exact ⟨⟨Nat.lt_succ_self _, rfl⟩, hopen.1⟩
    · exact ⟨⟨Nat.lt_succ_self _, rfl⟩, hopen.1⟩

/-- INTERNAL: another pin begins an epoch. -/
theorem setPin_cases (s : Session) (provider client : String) :
    (s.setPin provider client).2.unresolved = s.unresolved ∧
      (s.setPin provider client).2.flight = s.flight ∧
      ((Quiet s (s.setPin provider client).2 ∧ (s.setPin provider client).2.pin = s.pin) ∨
        Turned s (s.setPin provider client).2) := by
  unfold Session.setPin
  split_ifs
  · exact ⟨rfl, rfl, Or.inl ⟨⟨rfl, rfl, rfl⟩, rfl⟩⟩
  · exact ⟨rfl, rfl, Or.inl ⟨⟨rfl, rfl, rfl⟩, rfl⟩⟩
  · cases Pin.new provider client with
    | none => exact ⟨rfl, rfl, Or.inl ⟨⟨rfl, rfl, rfl⟩, rfl⟩⟩
    | some pin =>
      dsimp only
      by_cases hpin : s.pin ≠ some pin
      · rw [if_pos hpin]
        exact ⟨rfl, rfl, Or.inr ⟨Nat.lt_succ_self _, rfl⟩⟩
      · rw [if_neg hpin]
        exact ⟨rfl, rfl, Or.inl ⟨⟨rfl, rfl, rfl⟩, (not_not.mp hpin).symm⟩⟩

/-- INTERNAL: an expired review begins an epoch. -/
theorem snapshot_cases (s : Session) (first second : Reading) :
    Carries s (s.snapshot first second).2 ∧
      (Quiet s (s.snapshot first second).2 ∨ Turned s (s.snapshot first second).2) := by
  unfold Session.snapshot
  dsimp only
  split_ifs
  · exact ⟨⟨rfl, rfl, rfl⟩, Or.inr ⟨Nat.lt_succ_self _, rfl⟩⟩
  · exact ⟨⟨rfl, rfl, rfl⟩, Or.inl ⟨rfl, rfl, rfl⟩⟩

theorem prepareBiometric_cases (P : Packages) (s : Session) (reading : Reading) :
    Carries s (s.prepareBiometric P reading).2 ∧ Quiet s (s.prepareBiometric P reading).2 := by
  unfold Session.prepareBiometric
  split <;> exact ⟨⟨rfl, rfl, rfl⟩, ⟨rfl, rfl, rfl⟩⟩

/-- A body that is not a decision: the review is kept, or an epoch begins. -/
structure Reads (command : Command) (request : Request) (s s' : Session) : Prop where
  undecided : request.decides = none
  reading : command.isDecision = false
  unresolved : s'.unresolved = s.unresolved
  epoch : (command ≠ .review ∧ command ≠ .unlock ∧ Quiet s s') ∨ Turned s s'

/-- A decision: it takes the review with its ticket, and its request is unresolved. -/
structure Decides (request : Request) (s s' : Session) : Prop where
  review : ∃ r ticket, s.reviewed = some r ∧ r.response.ticket = some ticket ∧
    request.decides = some (r.response.review.id, some ticket) ∧
    s'.unresolved = some r.response.review.id
  epoch : Turned s s'

/-- INTERNAL: a decision either finds its review or begins an epoch. -/
theorem decision_cases {s s' : Session} {reading : Reading} {result : Except String (Request × String)}
    (request : String → String → Request)
    (hrequest : ∀ requestId ticket, (request requestId ticket).decides = some (requestId, some ticket))
    (h : (match s.canDecide reading, s.reviewed, s.reviewed.bind (·.response.ticket) with
      | true, some r, some ticket =>
        (Except.ok (request r.response.review.id ticket, r.response.review.id),
          s.decided r.response.review.id)
      | _, _, _ => (.error "A fresh complete review is required.", s.invalidate)) = (result, s')) :
    s'.flight = s.flight ∧ s'.pin = s.pin ∧
      ((∃ error, result = .error error ∧ Turned s s') ∨
        ∃ request requestId, result = .ok (request, requestId) ∧ Decides request s s') := by
  split at h
  · rename_i r ticket _ hreviewed hticket
    rw [hreviewed] at hticket
    obtain ⟨rfl, rfl⟩ := Prod.mk.inj h
    exact ⟨rfl, rfl, Or.inr ⟨_, _, rfl, ⟨r, ticket, hreviewed, hticket, hrequest _ _, rfl⟩,
      Nat.lt_succ_self _, rfl⟩⟩
  · obtain ⟨rfl, rfl⟩ := Prod.mk.inj h
    exact ⟨rfl, rfl, Or.inl ⟨_, rfl, turned_invalidate s⟩⟩

/-- INTERNAL: what a request is about. -/
theorem compose_cases {s s' : Session} {command : Command} {id password : String}
    {reading : Reading} {result : Except String (Request × String)}
    (h : s.compose command id password reading = (result, s')) :
    s'.flight = s.flight ∧ s'.pin = s.pin ∧
      ((∃ error, result = .error error ∧ (Quiet s s' ∨ Turned s s')) ∨
        (∃ request requestId, result = .ok (request, requestId) ∧ Reads command request s s') ∨
        (∃ request requestId, result = .ok (request, requestId) ∧ command.isDecision = true ∧
          Decides request s s')) := by
  cases command with
  | session =>
    obtain ⟨rfl, rfl⟩ := Prod.mk.inj h
    exact ⟨rfl, rfl, Or.inr (Or.inl ⟨_, _, rfl, rfl, rfl, rfl,
      Or.inl ⟨by decide, by decide, rfl, rfl, rfl⟩⟩)⟩
  | list =>
    obtain ⟨rfl, rfl⟩ := Prod.mk.inj h
    exact ⟨rfl, rfl, Or.inr (Or.inl ⟨_, _, rfl, rfl, rfl, rfl,
      Or.inl ⟨by decide, by decide, rfl, rfl, rfl⟩⟩)⟩
  | history =>
    simp only [Session.compose] at h
    split_ifs at h
    · obtain ⟨rfl, rfl⟩ := Prod.mk.inj h
      exact ⟨rfl, rfl, Or.inl ⟨_, rfl, Or.inl ⟨rfl, rfl, rfl⟩⟩⟩
    · obtain ⟨rfl, rfl⟩ := Prod.mk.inj h
      exact ⟨rfl, rfl, Or.inr (Or.inl ⟨_, _, rfl, rfl, rfl, rfl,
        Or.inl ⟨by decide, by decide, rfl, rfl, rfl⟩⟩)⟩
  | review =>
    obtain ⟨rfl, rfl⟩ := Prod.mk.inj h
    exact ⟨rfl, rfl, Or.inr (Or.inl ⟨_, _, rfl, rfl, rfl, rfl, Or.inr (turned_invalidate s)⟩)⟩
  | status =>
    obtain ⟨rfl, rfl⟩ := Prod.mk.inj h
    exact ⟨rfl, rfl, Or.inr (Or.inl ⟨_, _, rfl, rfl, rfl, rfl,
      Or.inl ⟨by decide, by decide, rfl, rfl, rfl⟩⟩)⟩
  | unlock =>
    obtain ⟨rfl, rfl⟩ := Prod.mk.inj h
    exact ⟨rfl, rfl, Or.inr (Or.inl ⟨_, _, rfl, rfl, rfl, rfl, Or.inr ⟨Nat.lt_succ_self _, rfl⟩⟩)⟩
  | approve =>
    obtain ⟨hflight, hpin, ⟨error, hresult, hturned⟩ | ⟨request, requestId, hresult, hdecides⟩⟩ :=
      decision_cases (fun requestId ticket => .approve requestId ticket password) (fun _ _ => rfl) h
    · exact ⟨hflight, hpin, Or.inl ⟨error, hresult, Or.inr hturned⟩⟩
    · exact ⟨hflight, hpin, Or.inr (Or.inr ⟨request, requestId, hresult, rfl, hdecides⟩)⟩
  | deny =>
    obtain ⟨hflight, hpin, ⟨error, hresult, hturned⟩ | ⟨request, requestId, hresult, hdecides⟩⟩ :=
      decision_cases (fun requestId ticket => .deny requestId ticket) (fun _ _ => rfl) h
    · exact ⟨hflight, hpin, Or.inl ⟨error, hresult, Or.inr hturned⟩⟩
    · exact ⟨hflight, hpin, Or.inr (Or.inr ⟨request, requestId, hresult, rfl, hdecides⟩)⟩

/-- INTERNAL: a body that is sent has a new token and is in flight. -/
theorem send_cases {s s' : Session} {command : Command} {request : Request} {requestId : String}
    {reading : Reading} {result : Except String Work}
    (h : s.send command request requestId reading = (result, s')) :
    s'.pin = s.pin ∧ Quiet s s' ∧
      (((∃ error, result = .error error) ∧ s'.flight = s.flight) ∨
        ∃ flight, result = .ok { token := flight.token, request } ∧ s'.flight = some flight ∧
          flight.command = command ∧ flight.epoch = s.epoch ∧ s'.unresolved = s.unresolved) := by
  unfold Session.send at h
  split_ifs at h
  · obtain ⟨rfl, rfl⟩ := Prod.mk.inj h
    exact ⟨rfl, ⟨rfl, rfl, rfl⟩, Or.inl ⟨⟨_, rfl⟩, rfl⟩⟩
  · obtain ⟨rfl, rfl⟩ := Prod.mk.inj h
    exact ⟨rfl, ⟨rfl, rfl, rfl⟩, Or.inl ⟨⟨_, rfl⟩, rfl⟩⟩
  · obtain ⟨rfl, rfl⟩ := Prod.mk.inj h
    exact ⟨rfl, ⟨rfl, rfl, rfl⟩, Or.inl ⟨⟨_, rfl⟩, rfl⟩⟩
  · obtain ⟨rfl, rfl⟩ := Prod.mk.inj h
    exact ⟨rfl, ⟨rfl, rfl, rfl⟩, Or.inr ⟨_, rfl, rfl, rfl, rfl, rfl⟩⟩

theorem Turned.quiet {a b c : Session} (h : Turned a b) (hquiet : Quiet b c) : Turned a c :=
  ⟨hquiet.epoch ▸ h.epoch, hquiet.reviewed.trans h.reviewed⟩

theorem Quiet.trans {a b c : Session} (h : Quiet a b) (hquiet : Quiet b c) : Quiet a c :=
  ⟨hquiet.epoch.trans h.epoch, hquiet.reviewed.trans h.reviewed, hquiet.authority.trans h.authority⟩

/-- **What a request does**: it is refused, or a read or a decision is in flight. -/
theorem begin_cases {s s' : Session} {command : Command} {id password : String}
    {first second : Reading} {result : Except String Work}
    (h : s.begin command id password first second = (result, s')) :
    s'.pin = s.pin ∧
      ((∃ error, result = .error error ∧ s'.flight = s.flight ∧ (Quiet s s' ∨ Turned s s')) ∨
        ∃ flight request, result = .ok { token := flight.token, request } ∧
          s'.flight = some flight ∧ flight.command = command ∧ flight.epoch = s'.epoch ∧
          (Reads command request s s' ∨ command.isDecision = true ∧ Decides request s s')) := by
  unfold Session.begin at h
  split at h
  · obtain ⟨rfl, rfl⟩ := Prod.mk.inj h
    exact ⟨rfl, Or.inl ⟨_, rfl, rfl, Or.inl ⟨rfl, rfl, rfl⟩⟩⟩
  · split at h
    · rename_i error middle hcompose
      obtain ⟨rfl, rfl⟩ := Prod.mk.inj h
      obtain ⟨hflight, hpin, ⟨_, -, hepoch⟩ | ⟨_, _, heq, -⟩ | ⟨_, _, heq, -⟩⟩ := compose_cases hcompose
      · exact ⟨hpin, Or.inl ⟨_, rfl, hflight, hepoch⟩⟩
      · exact absurd heq (by simp)
      · exact absurd heq (by simp)
    · rename_i request requestId middle hcompose
      obtain ⟨hpin', hquiet, hsent⟩ := send_cases h
      obtain ⟨hflight, hpin, ⟨_, heq, -⟩ | ⟨request', id', heq, hreads⟩ |
        ⟨request', id', heq, hdecision, hdecides⟩⟩ := compose_cases hcompose
      · exact absurd heq (by simp)
      · obtain ⟨rfl, rfl⟩ := Prod.mk.inj (Except.ok.inj heq)
        refine ⟨hpin'.trans hpin, ?_⟩
        rcases hsent with ⟨⟨error, rfl⟩, hflight'⟩ | ⟨flight, rfl, hflight', hcommand, hepoch, hunresolved⟩
        · refine Or.inl ⟨error, rfl, hflight'.trans hflight, ?_⟩
          exact hreads.epoch.imp (fun hq => hq.2.2.trans hquiet) (fun ht => ht.quiet hquiet)
        · refine Or.inr ⟨flight, _, rfl, hflight', hcommand, hepoch.trans hquiet.epoch.symm, Or.inl ?_⟩
          exact ⟨hreads.undecided, hreads.reading, hunresolved.trans hreads.unresolved,
            hreads.epoch.imp (fun hq => ⟨hq.1, hq.2.1, hq.2.2.trans hquiet⟩)
              (fun ht => ht.quiet hquiet)⟩
      · obtain ⟨rfl, rfl⟩ := Prod.mk.inj (Except.ok.inj heq)
        refine ⟨hpin'.trans hpin, ?_⟩
        rcases hsent with ⟨⟨error, rfl⟩, hflight'⟩ | ⟨flight, rfl, hflight', hcommand, hepoch, hunresolved⟩
        · exact Or.inl ⟨error, rfl, hflight'.trans hflight, Or.inr (hdecides.epoch.quiet hquiet)⟩
        · obtain ⟨r, ticket, hreviewed, hticket, hrequest, hid⟩ := hdecides.review
          exact Or.inr ⟨flight, _, rfl, hflight', hcommand, hepoch.trans hquiet.epoch.symm,
            Or.inr ⟨hdecision, ⟨r, ticket, hreviewed, hticket, hrequest, hunresolved.trans hid⟩,
              hdecides.epoch.quiet hquiet⟩⟩

/-! ## Signing -/

/-- INTERNAL: a transcript is computed from the review, its binding and the pin. -/
theorem signingTranscript_ok {P : Packages} {s : Session} {reading : Reading} {requestId : String}
    {signing : SigningTranscript} (h : s.signingTranscript P reading = .ok (requestId, signing)) :
    s.flight = none ∧ s.unresolved = none ∧ ∃ r signed ticket, s.reviewed = some r ∧
      r.signed = some signed ∧ r.response.ticket = some ticket ∧ requestId = r.response.review.id ∧
      s.authority = some (.unlocked, r.response.generation) ∧
      approvalTranscript P (r.received signed) s.pin = .ok signing := by
  unfold Session.signingTranscript at h
  split_ifs at h with hconfigured hflight hunresolved
  have hnone : s.flight = none ∧ s.unresolved = none := by
    simp only [Bool.not_eq_true, Option.isSome_eq_false_iff, Option.isNone_iff_eq_none] at hflight hunresolved
    exact ⟨hflight, hunresolved⟩
  refine ⟨hnone.1, hnone.2, ?_⟩
  split at h
  · rename_i r hdecide hreviewed
    split at h
    · exact absurd h (by simp)
    · rename_i signed hsigned
      cases htranscript : approvalTranscript P (r.received signed) s.pin with
      | error refusal =>
        rw [htranscript] at h
        exact absurd h (by simp [bind, Except.bind])
      | ok transcript =>
        rw [htranscript] at h
        obtain ⟨rfl, rfl⟩ := Prod.mk.inj (Except.ok.inj h)
        simp only [Session.canDecide, hreviewed, Option.any_some, Bool.and_eq_true,
          decide_eq_true_eq] at hdecide
        obtain ⟨ticket, hticket⟩ := Option.isSome_iff_exists.mp hdecide.2.1.1.1.1
        exact ⟨r, signed, ticket, hreviewed, hsigned, hticket, rfl, hdecide.2.1.1.2, htranscript⟩
  · exact absurd h (by simp)

/-- INTERNAL: a proof is checked against the transcript of the current review. -/
theorem proves_ok {P : Packages} {s : Session} {handle : ℕ} {keyId keyId' requestId : String}
    {signature : List UInt8} {reading : Reading} {r : Reviewed}
    (h : s.proves P handle keyId signature reading = .ok (r, requestId, keyId')) :
    s.prepared = some handle ∧ handle = s.epoch ∧ s.reviewed = some r ∧
      ∃ signing, s.signingTranscript P reading = .ok (requestId, signing) ∧
        keyId' = signing.keyId ∧ keyId = signing.keyId := by
  unfold Session.proves at h
  by_cases hhandle : s.prepared ≠ some handle ∨ handle ≠ s.epoch
  · rw [if_pos hhandle] at h
    split_ifs at h
  · rw [if_neg hhandle] at h
    obtain ⟨hprepared, hepoch⟩ := not_or.mp hhandle
    split at h
    · exact absurd h (by simp)
    · rename_i id signing hsigning
      split_ifs at h with hkey
      split at h
      · exact absurd h (by simp)
      · rename_i r' hreviewed
        obtain ⟨rfl, hrest⟩ := Prod.mk.inj (Except.ok.inj h)
        obtain ⟨rfl, rfl⟩ := Prod.mk.inj hrest
        exact ⟨not_not.mp hprepared, not_not.mp hepoch, hreviewed, signing, hsigning, rfl,
          not_not.mp hkey⟩

/-- **What a proof does**: it is refused, or the decision it carries is in flight. -/
theorem beginBiometric_cases {P : Packages} {s s' : Session} {handle : ℕ} {keyId : String}
    {signature : List UInt8} {first second : Reading} {result : Except Refusal Work}
    (h : s.beginBiometric P handle keyId signature first second = (result, s')) :
    s'.pin = s.pin ∧
      ((∃ refusal, result = .error refusal ∧ Carries s s' ∧ (Quiet s s' ∨ Turned s s')) ∨
        ∃ flight request r, result = .ok { token := flight.token, request } ∧
          s'.flight = some flight ∧ flight.command = .approve ∧ Decides request s s' ∧
          s.proves P handle keyId signature first = .ok (r, r.response.review.id, keyId) ∧
          request = .proof r.response.review.id r.response.ticket keyId
            (VaultAccess.Model.encodeUrlSafe signature)) := by
  unfold Session.beginBiometric at h
  split at h
  · obtain ⟨rfl, rfl⟩ := Prod.mk.inj h
    exact ⟨rfl, Or.inl ⟨_, rfl, ⟨rfl, rfl, rfl⟩, Or.inl ⟨rfl, rfl, rfl⟩⟩⟩
  · rename_i r requestId keyId' hproves
    obtain ⟨hprepared, hepoch, hreviewed, signing, hsigning, hkey', hkey⟩ := proves_ok hproves
    obtain ⟨-, -, r', signed, ticket, hreviewed', hsigned, hticket, hid, -⟩ := signingTranscript_ok hsigning
    obtain rfl := Option.some.inj (hreviewed.symm.trans hreviewed')
    obtain rfl : keyId' = keyId := hkey'.trans hkey.symm
    subst hid
    dsimp only at h
    split_ifs at h
    · obtain ⟨rfl, rfl⟩ := Prod.mk.inj h
      exact ⟨rfl, Or.inl ⟨_, rfl, ⟨rfl, rfl, rfl⟩, Or.inr ⟨Nat.lt_succ_self _, rfl⟩⟩⟩
    · obtain ⟨rfl, rfl⟩ := Prod.mk.inj h
      exact ⟨rfl, Or.inr ⟨_, _, r, rfl, rfl, rfl,
        ⟨⟨r, ticket, hreviewed, hticket, by rw [Request.decides, hticket], rfl⟩, Nat.lt_succ_self _, rfl⟩,
        hproves, rfl⟩⟩

/-! ## Epochs -/

/-- A command whose flight leaves the review to the same epoch. -/
def Gentle (command : Command) : Prop :=
  command ≠ .review ∧ command ≠ .unlock ∧ command.isDecision = false

/-- The review, the pin and the authority are kept, and every flight that is new is a
gentle one of this epoch. -/
structure Still (s s' : Session) : Prop where
  quiet : Quiet s s'
  pin : s'.pin = s.pin
  flight : ∀ f, s'.flight = some f → s.flight = some f ∨ (f.epoch = s.epoch ∧ Gentle f.command)

theorem still_of_carries {s s' : Session} (hcarries : Carries s s') (hquiet : Quiet s s') :
    Still s s' :=
  ⟨hquiet, hcarries.pin, fun _ hf => Or.inl (hcarries.flight ▸ hf)⟩

/-- How one call takes a session to the next: nothing that is signed changes, an epoch
begins, a late reply drops the authority, or a reply brings a review. -/
inductive Advances (P : Packages) (s : Session) (call : Call) (s' : Session) : Prop where
  | still (h : Still s s')
  | turned (h : Turned s s')
  | late (flight : Flight) (hflight : s.flight = some flight) (hlate : flight.epoch ≠ s.epoch)
      (hepoch : s'.epoch = s.epoch) (hreviewed : s'.reviewed = s.reviewed)
  | reviewed (t : ℕ) (bytes : List UInt8) (flight : Flight) (reply : ReviewResponse)
      (signed : Option (Json × Option ApprovalBinding)) (hcall : call = .finish t bytes)
      (hflight : s.flight = some flight) (htoken : flight.token = t)
      (hcommand : flight.command = .review)
      (hreply : reviewReply P flight bytes = some (reply, signed))
      (houtcome : s'.outcome = .accepted) (hepoch : s'.epoch = s.epoch)
      (hreviewed : s'.reviewed = some { response := reply, started := flight.started, signed })

/-- INTERNAL: what a reply can do to the epoch. -/
theorem finish_advances (P : Packages) (s : Session) (t : ℕ) (bytes : List UInt8) :
    Advances P s (.finish t bytes) (s.finish P t bytes) := by
  rcases finish_cases P s t bytes with hstale | ⟨flight, hflight, htoken, hcases⟩
  · rw [hstale]
    exact .still ⟨⟨rfl, rfl, rfl⟩, rfl, fun _ hf => Or.inl hf⟩
  rcases hcases with ⟨-, hepoch, heq⟩ | ⟨error, -, heq⟩ | ⟨-, heq⟩ | ⟨-, s', haccept, heq⟩
  · rw [heq]
    exact .late flight hflight hepoch rfl rfl
  · obtain ⟨-, -, hturned, -⟩ := rejected_cases { s with flight := none } flight error
    rw [heq]
    exact .turned ⟨hturned.epoch, hturned.reviewed⟩
  · obtain ⟨-, hturned⟩ := unusable_cases { s with flight := none } flight
    rw [heq]
    exact .turned ⟨hturned.epoch, hturned.reviewed⟩
  · have hlanded : s'.flight = none → ∀ f, s'.flight = some f → s.flight = some f ∨
        (f.epoch = s.epoch ∧ Gentle f.command) :=
      fun hnone _ hf => absurd (hnone.symm.trans hf) (by simp)
    rw [heq]
    rcases accept_cases haccept with ⟨-, -, hcarries, hquiet | hturned⟩ |
      ⟨hcommand, hcarries, hepoch, reply, signed, hreply, hreviewed⟩ | ⟨-, hnone, hpin, hquiet, -⟩
    · exact .still ⟨⟨hquiet.epoch, hquiet.reviewed, hquiet.authority⟩, hcarries.pin,
        hlanded hcarries.flight⟩
    · exact .turned ⟨hturned.epoch, hturned.reviewed⟩
    · exact .reviewed t bytes flight reply signed rfl hflight htoken hcommand hreply rfl hepoch
        hreviewed
    · exact .still ⟨⟨hquiet.epoch, hquiet.reviewed, hquiet.authority⟩, hpin, hlanded hnone⟩

/-- **What one call can do to the epoch.** -/
theorem step_advances (P : Packages) (s : Session) (call : Call) :
    Advances P s call (s.step P call).2 := by
  have hkept : ∀ {s' : Session}, Carries s s' → Quiet s s' ∨ Turned s s' → Advances P s call s' := by
    intro s' hcarries hepoch
    rcases hepoch with hquiet | hturned
    · exact .still (still_of_carries hcarries hquiet)
    · exact .turned hturned
  cases call with
  | configure uncertainId =>
    rcases configure_cases s uncertainId with heq | ⟨-, -, hturned, -⟩
    · simp only [Session.step, Prod.map_snd, id_eq, heq]
      exact .still ⟨⟨rfl, rfl, rfl⟩, rfl, fun _ hf => Or.inl hf⟩
    · exact .turned hturned
  | invalidate => exact .turned (turned_invalidate s)
  | pin provider client =>
    obtain ⟨-, hflight, ⟨hquiet, hpin⟩ | hturned⟩ := setPin_cases s provider client
    · exact .still ⟨hquiet, hpin, fun f hf => Or.inl (hflight ▸ hf)⟩
    · exact .turned hturned
  | snapshot first second =>
    obtain ⟨hcarries, hepoch⟩ := snapshot_cases s first second
    exact hkept hcarries hepoch
  | begin command id password first second =>
    obtain ⟨hpin, ⟨error, -, hflight, hquiet | hturned⟩ |
      ⟨flight, request, -, hflight, hcommand, hepoch, hreads | ⟨-, hdecides⟩⟩⟩ :=
      begin_cases (Prod.mk.eta (p := s.begin command id password first second)).symm
    · exact .still ⟨hquiet, hpin, fun f hf => Or.inl (hflight ▸ hf)⟩
    · exact .turned hturned
    · rcases hreads.epoch with ⟨hreview, hunlock, hquiet⟩ | hturned
      · refine .still ⟨hquiet, hpin, fun f hf => Or.inr ?_⟩
        obtain rfl := Option.some.inj (hf.symm.trans hflight)
        exact ⟨hepoch.trans hquiet.epoch, hcommand ▸ ⟨hreview, hunlock, hreads.reading⟩⟩
      · exact .turned hturned
    · exact .turned hdecides.epoch
  | prepareBiometric reading =>
    obtain ⟨hcarries, hquiet⟩ := prepareBiometric_cases P s reading
    exact hkept hcarries (Or.inl hquiet)
  | beginBiometric handle keyId signature first second =>
    obtain ⟨-, ⟨refusal, -, hcarries, hepoch⟩ | ⟨flight, request, r, -, -, -, hdecides, -⟩⟩ :=
      beginBiometric_cases
        (Prod.mk.eta (p := s.beginBiometric P handle keyId signature first second)).symm
    · exact hkept hcarries hepoch
    · exact .turned hdecides.epoch
  | finish t bytes => exact finish_advances P s t bytes

/-- INTERNAL: epochs only grow. -/
theorem step_epoch_le (P : Packages) (s : Session) (call : Call) :
    s.epoch ≤ (s.step P call).2.epoch := by
  cases step_advances P s call with
  | still h => exact h.quiet.epoch.ge
  | turned h => exact h.epoch.le
  | late _ _ _ hepoch _ => exact hepoch.ge
  | reviewed _ _ _ _ _ _ _ _ _ _ _ hepoch _ => exact hepoch.ge

end VaultAccess.Analysis.Companion
