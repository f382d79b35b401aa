import VaultAccess.Analysis.Sessions

/-!
# Decisions of a companion session

What a whole run of a provider session hands out. A sent decision stays unresolved
until its flight is definitely rejected or a reply for the same request shows that it
is no longer pending; until then no other decision leaves the session. A ticket is
consumed with the review that brought it. A signing handle is the epoch, so that it
stands for the review, the pin and the authority of that epoch.
-/

set_option autoImplicit false

namespace VaultAccess.Analysis.Companion

open VaultAccess.Library VaultAccess.Model.Companion

/-! ## The unresolved decision -/

/-- An entry that resolves the decision for `r` sent with `token`: a definite rejection
of its flight, or an accepted reply for `r` whose status is not pending. -/
def Resolves (P : Packages) (r : String) (token : ℕ) (x : Library.Entry Session Call Answer) : Prop :=
  ∃ t bytes flight, x.call = .finish t bytes ∧ x.before.flight = some flight ∧ flight.token = t ∧
    ((t = token ∧ ∃ code, errorOf P bytes = some code ∧ code.definiteRejection = true) ∨
      (Command.showsStatus flight.command = true ∧ flight.id = r ∧ x.after.outcome = .accepted ∧
        ∃ reply, decode P.statusResponse bytes = some reply ∧ reply.status ≠ .pending))

/-- An entry that accepts a review reply with ticket `t`. -/
def Brings (P : Packages) (t : String) (x : Library.Entry Session Call Answer) : Prop :=
  ∃ token bytes flight reply signed, x.call = .finish token bytes ∧ x.before.flight = some flight ∧
    flight.token = token ∧ flight.command = .review ∧
    reviewReply P flight bytes = some (reply, signed) ∧ reply.ticket = some t ∧
    x.after.outcome = .accepted

/-- The decision for `r` is unresolved, and the only decision in flight is its own. -/
structure Awaits (r : String) (token : ℕ) (s : Session) : Prop where
  unresolved : s.unresolved = some r
  flight : ∀ f, s.flight = some f → f.command.isDecision = true → f.token = token

theorem Awaits.congr {r : String} {token : ℕ} {s s' : Session} (h : Awaits r token s)
    (hunresolved : s'.unresolved = s.unresolved) (hflight : s'.flight = s.flight) :
    Awaits r token s' :=
  ⟨hunresolved.trans h.unresolved, fun f hf => h.flight f (hflight ▸ hf)⟩

theorem Awaits.landed {r : String} {token : ℕ} {s s' : Session} (h : Awaits r token s)
    (hunresolved : s'.unresolved = s.unresolved) (hflight : s'.flight = none) :
    Awaits r token s' :=
  ⟨hunresolved.trans h.unresolved, fun f hf => absurd (hflight ▸ hf) (by simp)⟩

/-- INTERNAL: while a decision is unresolved only its status is asked for. -/
theorem begin_awaits {s s' : Session} {r : String} {token : ℕ} (h : Awaits r token s)
    {command : Command} {id password : String} {first second : Reading}
    {result : Except String Work}
    (hbegin : s.begin command id password first second = (result, s')) :
    Awaits r token s' ∧ ∀ w, result = .ok w → w.request.decides = none := by
  unfold Session.begin at hbegin
  split at hbegin
  · obtain ⟨rfl, rfl⟩ := Prod.mk.inj hbegin
    exact ⟨h, fun w hw => absurd hw (by simp)⟩
  · rename_i hrefuses
    obtain ⟨rfl, rfl⟩ := refuses_eq_none_of_unresolved h.unresolved hrefuses
    simp only [Session.compose, Session.send] at hbegin
    split_ifs at hbegin with hsize hdecision hserial
    · exact absurd hdecision (by decide)
    · obtain ⟨rfl, rfl⟩ := Prod.mk.inj hbegin
      exact ⟨h, fun w hw => absurd hw (by simp)⟩
    · obtain ⟨rfl, rfl⟩ := Prod.mk.inj hbegin
      exact ⟨h, fun w hw => absurd hw (by simp)⟩
    · obtain ⟨rfl, rfl⟩ := Prod.mk.inj hbegin
      refine ⟨⟨h.unresolved, fun f hf hdecision => ?_⟩, fun w hw => ?_⟩
      · obtain rfl := Option.some.inj hf
        exact absurd hdecision Bool.false_ne_true
      · obtain rfl := Except.ok.inj hw
        rfl

/-- INTERNAL: a reply leaves an unresolved decision, or resolves it. -/
theorem finish_awaits (P : Packages) {s : Session} {r : String} {token : ℕ} (h : Awaits r token s)
    (t : ℕ) (bytes : List UInt8) :
    Awaits r token (s.finish P t bytes) ∨
      Resolves P r token (entryAt (Session.step P) s (.finish t bytes)) := by
  rcases finish_cases P s t bytes with hstale | ⟨flight, hflight, htoken, hcases⟩
  · exact Or.inl (h.congr (by rw [hstale]) (by rw [hstale]))
  rcases hcases with ⟨-, -, heq⟩ | ⟨error, herror, heq⟩ | ⟨-, heq⟩ | ⟨-, s', haccept, heq⟩
  · exact Or.inl (h.landed (by rw [heq]) (by rw [heq]))
  · obtain ⟨hnone, -, -, hkept | ⟨hdecision, hdefinite⟩⟩ :=
      rejected_cases { s with flight := none } flight error
    · exact Or.inl (h.landed (by rw [heq, hkept]) (by rw [heq, hnone]))
    · -- the flight is a decision's, so that it is the awaited one
      have hown : t = token := htoken.symm.trans (h.flight flight hflight hdecision)
      exact Or.inr ⟨t, bytes, flight, rfl, hflight, htoken,
        Or.inl ⟨hown, error, herror, hdefinite⟩⟩
  · obtain ⟨hcarries, -⟩ := unusable_cases { s with flight := none } flight
    exact Or.inl (h.landed (by rw [heq, hcarries.unresolved]) (by rw [heq, hcarries.flight]))
  · rcases accept_cases haccept with ⟨-, -, hcarries, -⟩ | ⟨-, hcarries, -⟩ |
      ⟨hshows, hnone, -, -, hkept | ⟨hid, reply, hreply, hpending⟩⟩
    · exact Or.inl (h.landed (by rw [heq]; exact hcarries.unresolved)
        (by rw [heq]; exact hcarries.flight))
    · exact Or.inl (h.landed (by rw [heq]; exact hcarries.unresolved)
        (by rw [heq]; exact hcarries.flight))
    · exact Or.inl (h.landed (by rw [heq]; exact hkept) (by rw [heq]; exact hnone))
    · have hr : flight.id = r := Option.some.inj (hid.symm.trans h.unresolved)
      refine Or.inr ⟨t, bytes, flight, rfl, hflight, htoken, Or.inr ⟨hshows, hr, ?_, reply, hreply, hpending⟩⟩
      show (s.finish P t bytes).outcome = .accepted
      rw [heq]

/-- **One call while a decision is unresolved**: no decision is handed out, and the
decision stays unresolved unless the call resolves it. -/
theorem step_awaits (P : Packages) {s : Session} {r : String} {token : ℕ} (h : Awaits r token s)
    (call : Call) :
    decisionOf (entryAt (Session.step P) s call) = none ∧
      (Awaits r token (s.step P call).2 ∨ Resolves P r token (entryAt (Session.step P) s call)) := by
  cases call with
  | configure uncertainId =>
    refine ⟨rfl, Or.inl ?_⟩
    rcases configure_cases s uncertainId with heq | ⟨-, hnone, -⟩
    · exact h.congr (congrArg Session.unresolved heq) (congrArg Session.flight heq)
    · exact absurd (hnone.symm.trans h.unresolved) (by simp)
  | invalidate => exact ⟨rfl, Or.inl (h.congr rfl rfl)⟩
  | pin provider client =>
    obtain ⟨hunresolved, hflight, -⟩ := setPin_cases s provider client
    exact ⟨rfl, Or.inl (h.congr hunresolved hflight)⟩
  | snapshot first second =>
    obtain ⟨hcarries, -⟩ := snapshot_cases s first second
    exact ⟨rfl, Or.inl (h.congr hcarries.unresolved hcarries.flight)⟩
  | begin command id password first second =>
    obtain ⟨hawaits, hreads⟩ := begin_awaits h
      (Prod.mk.eta (p := s.begin command id password first second)).symm
    refine ⟨?_, Or.inl hawaits⟩
    simp only [decisionOf, entryAt, Session.step, Prod.map_fst]
    cases hresult : (s.begin command id password first second).1 with
    | error error => rfl
    | ok w => simp [hreads w hresult]
  | prepareBiometric reading =>
    obtain ⟨hcarries, -⟩ := prepareBiometric_cases P s reading
    exact ⟨rfl, Or.inl (h.congr hcarries.unresolved hcarries.flight)⟩
  | beginBiometric handle keyId signature first second =>
    obtain ⟨refusal, hrefusal⟩ := proves_unresolved P h.unresolved handle keyId signature first
    have heq : s.beginBiometric P handle keyId signature first second = (.error refusal, s) := by
      unfold Session.beginBiometric
      rw [hrefusal]
    simp only [decisionOf, entryAt, Session.step, heq]
    exact ⟨rfl, Or.inl h⟩
  | finish t bytes => exact ⟨rfl, finish_awaits P h t bytes⟩

/-- INTERNAL: a decision that was handed out is awaited, and it took the review. -/
theorem decisionOf_eq_some {P : Packages} {s : Session} {call : Call} {token : ℕ} {r : String}
    {ticket : Option String}
    (h : decisionOf (entryAt (Session.step P) s call) = some (token, r, ticket)) :
    Awaits r token (s.step P call).2 ∧ (s.step P call).2.reviewed = none ∧
      ∃ review, s.reviewed = some review ∧ review.response.ticket = ticket := by
  cases call with
  | configure uncertainId => exact absurd h (by simp [decisionOf, entryAt, Session.step, Answer.handed])
  | invalidate => exact absurd h (by simp [decisionOf, entryAt, Session.step, Answer.handed])
  | pin provider client => exact absurd h (by simp [decisionOf, entryAt, Session.step, Answer.handed])
  | snapshot first second => exact absurd h (by simp [decisionOf, entryAt, Session.step, Answer.handed])
  | prepareBiometric reading => exact absurd h (by simp [decisionOf, entryAt, Session.step, Answer.handed])
  | finish t bytes => exact absurd h (by simp [decisionOf, entryAt, Session.step, Answer.handed])
  | begin command id password first second =>
    obtain ⟨result, s', hbegin⟩ : ∃ result s', s.begin command id password first second = (result, s') :=
      ⟨_, _, rfl⟩
    simp only [decisionOf, entryAt, Session.step, hbegin, Prod.map_apply] at h ⊢
    obtain ⟨-, ⟨error, rfl, -⟩ | ⟨flight, request, rfl, hflight, hcommand, -, hreads | ⟨-, hdecides⟩⟩⟩ :=
      begin_cases hbegin
    · exact absurd h (by simp)
    · exact absurd h (by simp [hreads.undecided])
    · obtain ⟨review, t, hreviewed, hticket, hrequest, hunresolved⟩ := hdecides.review
      simp only [handed_work_ok, Option.bind_some, hrequest, Option.map_some, Option.some.injEq,
        Prod.mk.injEq] at h
      obtain ⟨rfl, rfl, rfl⟩ := h
      refine ⟨⟨hunresolved, fun f hf _ => ?_⟩, hdecides.epoch.reviewed, review, hreviewed, hticket⟩
      rw [Option.some.inj (hf.symm.trans hflight)]
  | beginBiometric handle keyId signature first second =>
    obtain ⟨result, s', hbegin⟩ :
        ∃ result s', s.beginBiometric P handle keyId signature first second = (result, s') :=
      ⟨_, _, rfl⟩
    simp only [decisionOf, entryAt, Session.step, hbegin, Prod.map_apply] at h ⊢
    obtain ⟨-, ⟨refusal, rfl, -⟩ | ⟨flight, request, -, rfl, hflight, -, hdecides, -⟩⟩ :=
      beginBiometric_cases hbegin
    · exact absurd h (by simp)
    · obtain ⟨review, t, hreviewed, hticket, hrequest, hunresolved⟩ := hdecides.review
      simp only [handed_proof_ok, Option.bind_some, hrequest, Option.map_some, Option.some.injEq,
        Prod.mk.injEq] at h
      obtain ⟨rfl, rfl, rfl⟩ := h
      refine ⟨⟨hunresolved, fun f hf _ => ?_⟩, hdecides.epoch.reviewed, review, hreviewed, hticket⟩
      rw [Option.some.inj (hf.symm.trans hflight)]

/-! ## Tickets -/

/-- The session does not hold the ticket. -/
def Spent (t : String) (s : Session) : Prop :=
  ∀ review, s.reviewed = some review → review.response.ticket ≠ some t

/-- INTERNAL: a ticket comes back only with another review reply. -/
theorem step_spent (P : Packages) {t : String} {s : Session} (h : Spent t s) (call : Call) :
    Spent t (s.step P call).2 ∨ Brings P t (entryAt (Session.step P) s call) := by
  cases step_advances P s call with
  | still hstill => exact Or.inl fun review hreview => h review (hstill.quiet.reviewed ▸ hreview)
  | turned hturned =>
    exact Or.inl fun review hreview => absurd (hturned.reviewed.symm.trans hreview) (by simp)
  | late _ _ _ _ hreviewed => exact Or.inl fun review hreview => h review (hreviewed ▸ hreview)
  | reviewed token bytes flight reply signed hcall hflight htoken hcommand hreply houtcome _
      hreviewed =>
    by_cases hticket : reply.ticket = some t
    · exact Or.inr ⟨token, bytes, flight, reply, signed, hcall, hflight, htoken, hcommand, hreply,
        hticket, houtcome⟩
    · refine Or.inl fun review hreview => ?_
      obtain rfl := Option.some.inj (hreviewed.symm.trans hreview)
      exact hticket

/-- **A decision is sent once**: between two decisions of a run the first one is resolved,
and where they carry the same ticket, another review reply brought it.
SRCLINE: session.rs:62-606 -/
theorem decisions_single_shot (P : Packages) (calls : List Call)
    (front mid back : List (Library.Entry Session Call Answer)) (e e' : Library.Entry Session Call Answer)
    (hrun : Session.initial.run P calls = front ++ e :: (mid ++ e' :: back))
    (token token' : ℕ) (r r' : String) (ticket ticket' : Option String)
    (he : decisionOf e = some (token, r, ticket)) (he' : decisionOf e' = some (token', r', ticket')) :
    (∃ x ∈ mid, Resolves P r token x) ∧
      ∀ t, ticket = some t → ticket' = some t → ∃ x ∈ mid, Brings P t x := by
  obtain ⟨hentry, rest, hrest⟩ := trace_split hrun
  obtain ⟨hentry', -⟩ := trace_split hrest.symm
  rw [hentry] at he
  rw [hentry'] at he'
  obtain ⟨hawaits, hspent, -⟩ := decisionOf_eq_some he
  obtain ⟨-, -, review, hreviewed, hticket'⟩ := decisionOf_eq_some he'
  have hafter : e.after = (Session.step P e.before e.call).2 := congrArg Library.Entry.after hentry
  refine ⟨?_, fun t ht ht' => ?_⟩
  · rcases trace_until (Awaits r token) (Resolves P r token)
      (fun s call h => (step_awaits P h call).2) hrest.symm (hafter ▸ hawaits) with hopen | hresolved
    · exact absurd ((step_awaits P hopen e'.call).1.symm.trans he') (by simp)
    · exact hresolved
  · have hnone : Spent t e.after := by
      intro held hheld
      rw [hafter, hspent] at hheld
      exact absurd hheld (by simp)
    rcases trace_until (Spent t) (Brings P t) (fun s call h => step_spent P h call) hrest.symm hnone
      with hopen | hbrought
    · exact absurd (hticket'.trans ht') (hopen review hreviewed)
    · exact hbrought

/-- A request id, a digest, a ticket, and the digest of the review below. -/
def sampleId : String := "AAAAAAAAAAAAAAAAAAAAAAAAAAAAAAAAAAAAAAAAAAA"
def sampleDigest : String := "0123456789abcdef0123456789abcdef0123456789abcdef0123456789abcdef"
def sampleTicket : String := "feedfeedfeedfeedfeedfeedfeedfeedfeedfeedfeedfeedfeedfeedfeedfeed"
def sampleReviewDigest : String := "40d51d432947a94e3ed76c1e76f8aba99d752372a2c3fdd520066c17d321ca3f"

def sampleReview : Review where
  id := sampleId
  requester := "agent"
  operation := "deploy"
  effect := "Deploys"
  target := "host"
  arguments := []
  credentials := []
  executableDigest := sampleDigest
  policyDigest := sampleDigest
  argumentsDigest := sampleDigest
  expiresAtUnixSeconds := 300
  oneTime := "once"
  status := .pending

/-- The `review` member as the provider sends it. -/
def sampleRawReview : Json := .obj
  [("arguments", .arr []), ("arguments_digest", .str sampleDigest), ("credentials", .arr []),
    ("effect", .str "Deploys"), ("executable_digest", .str sampleDigest),
    ("expires_at_unix_seconds", .int 300), ("id", .str sampleId), ("one_time", .str "once"),
    ("operation", .str "deploy"), ("policy_digest", .str sampleDigest), ("requester", .str "agent"),
    ("status", .obj [("status", .str "pending")]), ("target", .str "host")]

def sampleSessionReply : List UInt8 :=
  Json.toVec (.obj [("generation", .int 1), ("state", .str "unlocked"), ("version", .int 1)])

def sampleReviewReply : List UInt8 :=
  Json.toVec (.obj [("generation", .int 1), ("review", sampleRawReview), ("ticket", .str sampleTicket),
    ("version", .int 1)])

def sampleErrorReply : List UInt8 :=
  Json.toVec (.obj [("error", .str "rate_limited"), ("version", .int 1)])

def sampleBinding : ApprovalBinding where
  version := 2
  domain := APPROVAL_DOMAIN
  action := APPROVE_ACTION
  providerIdentity := sampleDigest
  approvalClient := sampleDigest
  keyId := some sampleDigest
  biometricAllowed := true
  requestId := sampleId
  recordDigest := sampleDigest
  policyDigest := sampleDigest
  argumentsDigest := sampleDigest
  expiresAtUnixSeconds := 300
  generation := 1
  ticket := sampleTicket
  ticketDeadlineUnixMs := 250000
  reviewDigest := sampleReviewDigest

def sampleReviewReplyV2 : List UInt8 :=
  Json.toVec (.obj [("approval_binding", .obj
    [("action", .str APPROVE_ACTION), ("approval_client", .str sampleDigest),
      ("arguments_digest", .str sampleDigest), ("biometric_allowed", .bool true),
      ("domain", .str APPROVAL_DOMAIN), ("expires_at_unix_seconds", .int 300), ("generation", .int 1),
      ("key_id", .str sampleDigest), ("policy_digest", .str sampleDigest),
      ("provider_identity", .str sampleDigest), ("record_digest", .str sampleDigest),
      ("request_id", .str sampleId), ("review_digest", .str sampleReviewDigest),
      ("ticket", .str sampleTicket), ("ticket_deadline_unix_ms", .int 250000), ("version", .int 2)]),
    ("generation", .int 1), ("review", sampleRawReview), ("ticket", .str sampleTicket),
    ("version", .int 2)])

/-- The packages on the replies above: what `serde` decodes them to (the error reply is
the one that starts with its `error` member), and the SHA-256 of the review's canonical
text. -/
def samplePackages : Packages where
  sha256 := fun _ => #v[64, 213, 29, 67, 41, 71, 169, 78, 62, 215, 108, 30, 118, 248, 171,
    169, 157, 117, 35, 114, 162, 195, 253, 213, 32, 6, 108, 23, 211, 33, 202, 63]
  fromDer := fun _ => true
  fromSec1Bytes := fun _ => true
  errorResponse := fun bytes =>
    if bytes[2]? = some 0x65 then some { version := 1, error := .rateLimited } else none
  sessionResponse := fun _ => some { version := 1, state := .unlocked, generation := 1 }
  listResponse := fun _ => none
  historyResponse := fun _ => none
  reviewResponse := fun _ =>
    some { version := 1, review := sampleReview, ticket := some sampleTicket, generation := 1 }
  reviewResponseV2 := fun _ =>
    some { version := 2, review := sampleReview, ticket := some sampleTicket, generation := 1,
           approvalBinding := some sampleBinding }
  rawReview := fun _ => some sampleRawReview
  statusResponse := fun _ => none

/-- Both clocks at 200 seconds. -/
def sampleReading : Reading := { instant := 200000000000, unixSeconds := 200 }

/-- A review that is fetched and denied. -/
def sampleDenial (token : ℕ) : List Call :=
  [.begin .session "" "" sampleReading sampleReading, .finish token sampleSessionReply,
    .begin .review sampleId "" sampleReading sampleReading, .finish (token + 1) sampleReviewReply,
    .begin .deny "" "" sampleReading sampleReading]

/-- The provider rejects the first denial and repeats its review with the same ticket. -/
def sampleRepetition : List Call :=
  .configure "" :: sampleDenial 1 ++ .finish 3 sampleErrorReply :: sampleDenial 4

theorem decisions_sampleRepetition :
    (Session.initial.run samplePackages sampleRepetition).map decisionOf =
      [none, none, none, none, none, some (3, sampleId, some sampleTicket)] ++
        [none, none, none, none, none, some (6, sampleId, some sampleTicket)] := by
  decide +kernel

/-- INTERNAL: the two decisions of the run. -/
theorem exists_decisions_sampleRepetition :
    ∃ (front mid back : List (Library.Entry Session Call Answer)) (e e' : Library.Entry Session Call Answer),
      Session.initial.run samplePackages sampleRepetition = front ++ e :: (mid ++ e' :: back) ∧
        decisionOf e = some (3, sampleId, some sampleTicket) ∧
        decisionOf e' = some (6, sampleId, some sampleTicket) := by
  have hrun : Session.initial.run samplePackages sampleRepetition =
      [_, _, _, _, _] ++ _ :: ([_, _, _, _, _] ++ _ :: []) := rfl
  have hdecisions := decisions_sampleRepetition
  rw [hrun] at hdecisions
  simp only [List.cons_append, List.nil_append, List.map_cons, List.map_nil, List.cons.injEq] at hdecisions
  obtain ⟨-, -, -, -, -, hfirst, -, -, -, -, -, hsecond, -⟩ := hdecisions
  exact ⟨_, _, _, _, _, hrun, hfirst, hsecond⟩

/-- The same ticket stands in two decision bodies. -/
theorem repeated_ticket :
    ∃ (front mid back : List (Library.Entry Session Call Answer)) (e e' : Library.Entry Session Call Answer),
      Session.initial.run samplePackages sampleRepetition = front ++ e :: (mid ++ e' :: back) ∧
        decisionOf e = some (3, sampleId, some sampleTicket) ∧
        decisionOf e' = some (6, sampleId, some sampleTicket) :=
  exists_decisions_sampleRepetition

theorem decisions_single_shot_repetition :
    ∃ mid : List (Library.Entry Session Call Answer), (∃ x ∈ mid, Resolves samplePackages sampleId 3 x) ∧
      ∃ x ∈ mid, Brings samplePackages sampleTicket x := by
  obtain ⟨front, mid, back, e, e', hrun, hfirst, hsecond⟩ := exists_decisions_sampleRepetition
  have h := decisions_single_shot samplePackages sampleRepetition front mid back e e' hrun 3 6
    sampleId sampleId (some sampleTicket) (some sampleTicket) hfirst hsecond
  exact ⟨mid, h.1, h.2 sampleTicket rfl rfl⟩

/-! ## Handles -/

/-- While the epoch is the handle, the review, the pin and the authority are those the
handle was given for, and only gentle flights of this epoch are out. -/
structure Holds (handle : ℕ) (s₀ s : Session) : Prop where
  epoch_le : handle ≤ s.epoch
  same : s.epoch = handle → Quiet s₀ s ∧ s.pin = s₀.pin ∧
    ∀ f, s.flight = some f → f.epoch = handle ∧ Gentle f.command

/-- INTERNAL: every call keeps what a handle stands for, or makes it stale. -/
theorem step_holds (P : Packages) {handle : ℕ} {s₀ s : Session} (h : Holds handle s₀ s)
    (call : Call) : Holds handle s₀ (s.step P call).2 := by
  refine ⟨h.epoch_le.trans (step_epoch_le P s call), fun hepoch => ?_⟩
  have hle := step_epoch_le P s call
  have hnow : s.epoch = handle := Nat.le_antisymm (hle.trans hepoch.le) h.epoch_le
  obtain ⟨hquiet, hpin, hflights⟩ := h.same hnow
  cases step_advances P s call with
  | still hstill =>
    refine ⟨hquiet.trans hstill.quiet, hstill.pin.trans hpin, fun f hf => ?_⟩
    rcases hstill.flight f hf with hold | ⟨hnew, hgentle⟩
    · exact hflights f hold
    · exact ⟨hnew.trans hnow, hgentle⟩
  | turned hturned =>
    have hlt := hturned.epoch
    omega
  | late flight hflight hlate _ _ =>
    exact absurd ((hflights flight hflight).1.trans hnow.symm) hlate
  | reviewed _ _ flight _ _ _ hflight _ hcommand _ _ _ _ =>
    exact absurd hcommand (hflights flight hflight).2.1

/-- INTERNAL: a transcript depends on the review and the pin only. -/
theorem signingTranscript_congr {P : Packages} {s s' : Session} {reading reading' : Reading}
    {a b : String × SigningTranscript} (hreviewed : s'.reviewed = s.reviewed) (hpin : s'.pin = s.pin)
    (h : s.signingTranscript P reading = .ok a) (h' : s'.signingTranscript P reading' = .ok b) :
    b = a := by
  obtain ⟨-, -, r, signed, -, hr, hsigned, -, hid, -, htranscript⟩ := signingTranscript_ok h
  obtain ⟨-, -, r', signed', -, hr', hsigned', -, hid', -, htranscript'⟩ := signingTranscript_ok h'
  rw [hreviewed, hr] at hr'
  obtain rfl := Option.some.inj hr'
  obtain rfl := Option.some.inj (hsigned.symm.trans hsigned')
  rw [hpin, htranscript] at htranscript'
  exact Prod.ext (hid'.trans hid.symm) (Except.ok.inj htranscript').symm

/-- INTERNAL: what a handle is given for. -/
theorem prepareBiometric_ok {P : Packages} {s s' : Session} {reading : Reading}
    {request : SigningRequest} (h : s.prepareBiometric P reading = (.ok request, s')) :
    request.handle = s.epoch ∧ Holds request.handle s s' ∧
      s.signingTranscript P reading =
        .ok (request.requestId, { keyId := request.keyId, transcript := request.transcript }) := by
  unfold Session.prepareBiometric at h
  split at h
  · exact absurd (Prod.mk.inj h).1 (by simp)
  · rename_i requestId signing hsigning
    obtain ⟨hrequest, rfl⟩ := Prod.mk.inj h
    obtain rfl := Except.ok.inj hrequest
    obtain ⟨hflight, -⟩ := signingTranscript_ok hsigning
    refine ⟨rfl, ⟨Nat.le_refl _, fun _ => ⟨⟨rfl, rfl, rfl⟩, rfl, fun f hf => ?_⟩⟩, hsigning⟩
    exact absurd (hflight.symm.trans hf) (by simp)

/-- INTERNAL: a handle of another epoch is refused. -/
theorem beginBiometric_stale (P : Packages) {s : Session} {handle : ℕ} (h : handle ≠ s.epoch)
    (keyId : String) (signature : List UInt8) (first second : Reading) :
    (s.beginBiometric P handle keyId signature first second).1 =
      .error (if s.flight.isSome then .busy else .staleHandle) := by
  have hproves : s.proves P handle keyId signature first =
      .error (if s.flight.isSome then .busy else .staleHandle) := by
    unfold Session.proves
    rw [if_pos (Or.inr h)]
    split_ifs <;> rfl
  unfold Session.beginBiometric
  rw [hproves]

/-- **A handle signs for one review**: when the proof of a handle is sent, the transcript
that is computed again is the one that was signed, and the body carries the request and
the ticket of the same review; and once the review, the pin or the authority was another
in between, the handle is stale.
SRCLINE: session.rs:265-408 -/
theorem handles_sign_once (P : Packages) (calls : List Call)
    (front mid back : List (Library.Entry Session Call Answer)) (e e' : Library.Entry Session Call Answer)
    (hrun : Session.initial.run P calls = front ++ e :: (mid ++ e' :: back))
    (reading : Reading) (request : SigningRequest) (he : e.call = .prepareBiometric reading)
    (hanswer : e.answer = .signing (.ok request)) (keyId : String) (signature : List UInt8)
    (first second : Reading)
    (he' : e'.call = .beginBiometric request.handle keyId signature first second) :
    (∀ w, e'.answer = .proof (.ok w) →
      e'.before.signingTranscript P first =
        .ok (request.requestId, { keyId := request.keyId, transcript := request.transcript }) ∧
      Quiet e.before e'.before ∧ e'.before.pin = e.before.pin ∧
      ∃ r ticket, e'.before.reviewed = some r ∧ r.response.review.id = request.requestId ∧
        r.response.ticket = some ticket ∧
        w.request = .proof request.requestId (some ticket) request.keyId
          (VaultAccess.Model.encodeUrlSafe signature)) ∧
      ∀ x ∈ mid, (x.after.reviewed ≠ e.before.reviewed ∨ x.after.pin ≠ e.before.pin ∨
          x.after.authority ≠ e.before.authority) →
        e'.answer = .proof (.error (if e'.before.flight.isSome then .busy else .staleHandle)) := by
  obtain ⟨hentry, rest, hrest⟩ := trace_split hrun
  obtain ⟨hentry', -⟩ := trace_split hrest.symm
  have hprepare : e.before.prepareBiometric P reading = (.ok request, e.after) := by
    have hfst : Answer.signing (e.before.prepareBiometric P reading).1 = .signing (.ok request) := by
      rw [← hanswer, congrArg Library.Entry.answer hentry, he]
      rfl
    refine Prod.ext (Answer.signing.inj hfst) ?_
    show _ = e.after
    rw [congrArg Library.Entry.after hentry, he]
    rfl
  obtain ⟨hhandle, hholds, hsigning⟩ := prepareBiometric_ok hprepare
  have hanswer' : e'.answer = .proof
      (e'.before.beginBiometric P request.handle keyId signature first second).1 := by
    rw [congrArg Library.Entry.answer hentry', he']
    rfl
  refine ⟨fun w hw => ?_, fun x hx hchanged => ?_⟩
  · have hlater : Holds request.handle e.before e'.before :=
      trace_invariant (Holds request.handle e.before) (fun s call h => step_holds P h call)
        hrest.symm hholds
    have hsent : e'.before.beginBiometric P request.handle keyId signature first second = (.ok w, _) :=
      Prod.ext (Answer.proof.inj (hanswer'.symm.trans hw)) rfl
    obtain ⟨-, ⟨refusal, habsurd, -⟩ | ⟨flight, sent, r, hok, -, -, -, hproves, hsent'⟩⟩ :=
      beginBiometric_cases hsent
    · exact absurd habsurd (by simp)
    obtain rfl := Except.ok.inj hok
    obtain ⟨-, hepoch, hreviewed, signing, hagain, -, hkey⟩ := proves_ok hproves
    obtain ⟨hquiet, hpin, -⟩ := hlater.same hepoch.symm
    have hsame := signingTranscript_congr hquiet.reviewed hpin hsigning hagain
    obtain ⟨hid, rfl⟩ := Prod.mk.inj hsame
    obtain ⟨-, -, r', signed, ticket, hr', -, hticket, -⟩ := signingTranscript_ok hagain
    obtain rfl := Option.some.inj (hreviewed.symm.trans hr')
    refine ⟨hagain.trans (by rw [hid]), hquiet, hpin, r, ticket, hreviewed, hid, hticket, ?_⟩
    rw [hsent', hid, hticket, hkey]
  · obtain ⟨before, after, rfl⟩ := List.append_of_mem hx
    have hsplit : Library.trace (Session.step P) e.after rest = before ++ x :: (after ++ e' :: back) := by
      rw [← hrest, List.append_assoc, List.cons_append]
    obtain ⟨hxentry, rest', hrest'⟩ := trace_split hsplit
    have hx : Holds request.handle e.before x.after := by
      have hbefore : Holds request.handle e.before x.before :=
        trace_invariant (Holds request.handle e.before) (fun s call h => step_holds P h call)
          hsplit hholds
      rw [congrArg Library.Entry.after hxentry]
      exact step_holds P hbefore x.call
    have hlater : request.handle < x.after.epoch := by
      refine Nat.lt_of_le_of_ne hx.epoch_le fun hepoch => ?_
      obtain ⟨hquiet, hpin, -⟩ := hx.same hepoch.symm
      rcases hchanged with hreviewed | hpin' | hauthority
      · exact hreviewed hquiet.reviewed
      · exact hpin' hpin
      · exact hauthority hquiet.authority
    have hstale : request.handle < e'.before.epoch :=
      trace_invariant (request.handle < Session.epoch ·)
        (fun s call h => Nat.lt_of_lt_of_le h (step_epoch_le P s call)) hrest'.symm hlater
    rw [hanswer', beginBiometric_stale P (Nat.ne_of_lt hstale)]

/-- A version 2 review that is signed for and approved with the proof. -/
def sampleProof : List Call :=
  [.configure "", .pin sampleDigest sampleDigest,
    .begin .session "" "" sampleReading sampleReading, .finish 1 sampleSessionReply,
    .begin .review sampleId "" sampleReading sampleReading, .finish 2 sampleReviewReplyV2,
    .prepareBiometric sampleReading,
    .beginBiometric 4 sampleDigest [0x30, 6, 2, 1, 1, 2, 1, 1] sampleReading sampleReading]

/-- The handle a call returned. -/
def handleOf (e : Library.Entry Session Call Answer) : Option ℕ :=
  match e.answer with
  | .signing (.ok request) => some request.handle
  | _ => none

theorem handles_sampleProof :
    (Session.initial.run samplePackages sampleProof).map (fun e => (handleOf e, (decisionOf e).isSome)) =
      [(none, false), (none, false), (none, false), (none, false), (none, false), (none, false),
        (some 4, false), (none, true)] := by
  decide +kernel

/-- INTERNAL: an entry with a handle. -/
theorem exists_of_handleOf {e : Library.Entry Session Call Answer} {handle : ℕ} (h : handleOf e = some handle) :
    ∃ request, e.answer = .signing (.ok request) ∧ request.handle = handle := by
  unfold handleOf at h
  split at h
  · rename_i request hanswer
    exact ⟨request, hanswer, Option.some.inj h⟩
  · exact absurd h (by simp)

/-- INTERNAL: a proof that hands a decision out was sent. -/
theorem exists_proof_of_decisionOf {P : Packages} {s : Session} {handle : ℕ} {keyId : String}
    {signature : List UInt8} {first second : Reading}
    (h : (decisionOf (entryAt (Session.step P) s
      (.beginBiometric handle keyId signature first second))).isSome = true) :
    ∃ w, (entryAt (Session.step P) s (.beginBiometric handle keyId signature first second)).answer =
      .proof (.ok w) := by
  simp only [decisionOf, entryAt, Session.step, Prod.map_fst] at h ⊢
  cases hresult : (s.beginBiometric P handle keyId signature first second).1 with
  | error refusal =>
    rw [hresult] at h
    exact absurd h (by simp)
  | ok w => exact ⟨w, rfl⟩

theorem handles_sign_once_proof :
    ∃ (request : SigningRequest) (w : Work) (e' : Library.Entry Session Call Answer),
      e'.answer = .proof (.ok w) ∧
      e'.before.signingTranscript samplePackages sampleReading =
        .ok (request.requestId, { keyId := request.keyId, transcript := request.transcript }) := by
  have hrun : Session.initial.run samplePackages sampleProof =
      [_, _, _, _, _, _] ++ _ :: ([] ++ _ :: []) := rfl
  have hhandles := handles_sampleProof
  rw [hrun] at hhandles
  simp only [List.cons_append, List.nil_append, List.map_cons, List.map_nil, List.cons.injEq,
    Prod.mk.injEq] at hhandles
  obtain ⟨-, -, -, -, -, -, ⟨hhandle, -⟩, ⟨-, hsent⟩, -⟩ := hhandles
  obtain ⟨request, hanswer, hfour⟩ := exists_of_handleOf hhandle
  obtain ⟨w, hok⟩ := exists_proof_of_decisionOf hsent
  have h := handles_sign_once samplePackages sampleProof _ _ _ _ _ hrun sampleReading request rfl hanswer
    sampleDigest [0x30, 6, 2, 1, 1, 2, 1, 1] sampleReading sampleReading (by rw [hfour]; rfl)
  exact ⟨request, w, _, hok, (h.1 w hok).1⟩

end VaultAccess.Analysis.Companion
