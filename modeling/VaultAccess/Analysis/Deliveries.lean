import VaultAccess.Analysis.Revisions
import VaultAccess.Analysis.Validation
import Mathlib.Data.List.Induction

/-!
# Approved requests and the operations they name

A request is stored with the review of the policy it was submitted for. `execution_delivery`
rebuilds the review from the policy stored when the request is executed, and demands that the two
are equal. Where the revision is the same, they differ in the texts a revision leaves out and in
nothing else.
-/

set_option autoImplicit false

namespace VaultAccess.Analysis

open VaultAccess.Library VaultAccess.Library.Text VaultAccess.Model

/-! ## Arguments are their own normal form -/

/-- INTERNAL: the decimal text of a 64-bit integer is read back. -/
theorem parseI64_toString (n : Int64) : parseI64 (toString n.toInt) = some n := by
  have hlt := Int64.toInt_lt n
  have hle := Int64.le_toInt n
  have hdigits : ∀ k : ℕ, (Nat.toDigits 10 k).all isAsciiDigit = true := fun k =>
    List.all_eq_true.mpr fun c hc => isAsciiDigit_of_mem_toDigits k c hc
  have hempty : ∀ k : ℕ, (Nat.toDigits 10 k).isEmpty = false := fun k => by
    simp
  have hvalue : ∀ k : ℕ, (Nat.toDigits 10 k).foldl (fun (n : ℕ) c => n * 10 + (c.toNat - '0'.toNat)) 0 = k := by
    intro k
    have h := @Nat.ofDigitChars_ten_toDigits k
    rw [Nat.ofDigitChars_eq_foldl] at h
    simpa only [Nat.mul_comm] using h
  unfold parseI64
  rw [toList_toString_int]
  split_ifs with hneg
  · simp only [hempty, hdigits, hvalue, Bool.not_true, Bool.or_self, Bool.false_eq_true, if_false,
      if_true]
    rw [if_pos (by omega), show -((n.toInt.natAbs : ℕ) : Int) = n.toInt by omega, Int64.ofInt_toInt]
  · obtain ⟨c, rest, hcons, hc⟩ := Json.toDigits_cons n.toInt.natAbs
    have hminus : c ≠ '-' := by
      rintro rfl
      simp [isAsciiDigit] at hc
    have hplus : c ≠ '+' := by
      rintro rfl
      simp [isAsciiDigit] at hc
    split
    rename_i negative digits hsign
    split at hsign
    · rename_i heq
      exact absurd (List.cons.inj (hcons.symm.trans heq)).1 hminus
    · rename_i heq
      exact absurd (List.cons.inj (hcons.symm.trans heq)).1 hplus
    obtain ⟨rfl, rfl⟩ := Prod.mk.inj hsign
    simp only [hempty, hdigits, hvalue, Bool.not_true, Bool.or_self, Bool.false_eq_true, if_false]
    rw [if_pos (by omega), show ((n.toInt.natAbs : ℕ) : Int) = n.toInt by omega, Int64.ofInt_toInt]

/-- INTERNAL: an accepted value is accepted again in its normal form, which is its own. -/
theorem normalizeArg_again (p : OperationPolicy) (spec : ArgumentSpec) (value arg : String)
    (haccepted : p.validatesArg spec value = true) (h : normalizeArg spec value = some arg) :
    p.validatesArg spec arg = true ∧ normalizeArg spec arg = some arg := by
  cases spec with
  | target =>
    simp only [normalizeArg, Option.some.injEq] at h
    subst h
    exact ⟨haccepted, rfl⟩
  | choice choices =>
    simp only [normalizeArg, Option.some.injEq] at h
    subst h
    exact ⟨haccepted, rfl⟩
  | integer minimum maximum =>
    simp only [normalizeArg, Option.map_eq_some_iff] at h
    obtain ⟨n, hparse, rfl⟩ := h
    simp only [OperationPolicy.validatesArg, hparse, Option.any_some] at haccepted
    simp only [OperationPolicy.validatesArg, normalizeArg, parseI64_toString, Option.any_some,
      Option.map_some, and_true]
    exact haccepted

/-- INTERNAL: so are all the values of a request. -/
theorem normalizeArgs_each (p : OperationPolicy) (specs : List ArgumentSpec) (values args : List String)
    (hlength : values.length = specs.length)
    (haccepted : ∀ x ∈ specs.zip values, p.validatesArg x.1 x.2 = true)
    (h : (specs.zip values).mapM (fun x => normalizeArg x.1 x.2) = some args) :
    args.length = specs.length ∧ (∀ x ∈ specs.zip args, p.validatesArg x.1 x.2 = true) ∧
      (specs.zip args).mapM (fun x => normalizeArg x.1 x.2) = some args := by
  rw [mapM_eq_some_iff] at h ⊢
  induction specs generalizing values args with
  | nil =>
    cases h
    exact ⟨rfl, by simp, .nil⟩
  | cons spec specs ih =>
    cases values with
    | nil => simp at hlength
    | cons value values =>
      rw [List.zip_cons_cons, List.forall₂_cons_left_iff] at h
      obtain ⟨arg, args, hone, hrest, rfl⟩ := h
      rw [List.zip_cons_cons] at haccepted
      obtain ⟨hfirst, hsame⟩ := normalizeArg_again p spec value arg
        (haccepted _ List.mem_cons_self) hone
      obtain ⟨hlen, hall, hagain⟩ := ih values args (by simpa using hlength)
        (fun x hx => haccepted x (List.mem_cons_of_mem _ hx)) hrest
      refine ⟨by simp [hlen], ?_, ?_⟩
      · rw [List.zip_cons_cons]
        intro x hx
        rcases List.mem_cons.mp hx with rfl | hx
        · exact hfirst
        · exact hall x hx
      · rw [List.zip_cons_cons]
        exact .cons hsame hagain

/-- **Normalized arguments are accepted again and are their own normal form.** -/
theorem normalizeArgs_idem (p : OperationPolicy) (values args : List String)
    (hvalid : validateDraft p.draft = true) (h : p.normalizeArgs values = some args) :
    p.normalizeArgs args = some args := by
  obtain ⟨-, htexts⟩ := normalizeArgs_spec p values args hvalid h
  obtain ⟨-, -, -, hssh⟩ := arguments_bounds p.draft hvalid
  have hshort : (args.any fun v => decide (MAX_VALUE_LEN < v.utf8ByteSize)) = false := by
    rw [List.any_eq_false]
    intro v hv
    have htext := htexts v hv
    simp only [reviewText, Bool.and_eq_true, decide_eq_true_eq] at htext
    have hlength : v.utf8ByteSize ≤ MAX_VALUE_LEN := htext.1.2
    simpa using hlength
  unfold OperationPolicy.normalizeArgs at h ⊢
  split_ifs at h with hrefused
  simp only [Bool.or_eq_true, not_or, Bool.not_eq_true', Bool.not_eq_false] at hrefused
  have haccepted := hrefused.2
  by_cases hs : p.ssh.isSome = true
  · have hnil : p.arguments = [] := hssh hs
    rw [hnil] at h ⊢
    simp only [List.zip_nil_left, List.mapM_nil, Option.pure_def, Option.some.injEq] at h ⊢
    subst h
    simp [OperationPolicy.validatesArgs, hs]
  · simp only [OperationPolicy.validatesArgs, if_neg hs, Bool.and_eq_true, decide_eq_true_eq,
      List.all_eq_true] at haccepted
    obtain ⟨hlen, hall, hagain⟩ := normalizeArgs_each p p.arguments values args haccepted.1
      (fun x hx => haccepted.2 x hx) h
    have hvalidates : p.validatesArgs args = true := by
      simp only [OperationPolicy.validatesArgs, if_neg hs, Bool.and_eq_true, decide_eq_true_eq,
        List.all_eq_true]
      exact ⟨hlen, fun x hx => hall x hx⟩
    rw [if_neg (by simp [hshort, hvalidates])]
    exact hagain

/-- INTERNAL: two policies with one authority accept the same arguments. -/
theorem normalizeArgs_congr {p q : OperationPolicy} (h : SameAuthority p q) (values : List String) :
    p.normalizeArgs values = q.normalizeArgs values := by
  have hssh : p.ssh.isSome = q.ssh.isSome := by
    rw [← Option.isSome_map, h.ssh, Option.isSome_map]
  have harg : ∀ spec value, p.validatesArg spec value = q.validatesArg spec value := by
    intro spec value
    cases spec <;> simp [OperationPolicy.validatesArg, h.targets]
  unfold OperationPolicy.normalizeArgs OperationPolicy.validatesArgs
  simp only [hssh, h.arguments, harg]

/-! ## What a run stores -/

section Runs

variable {E : Externals} {ownerUid : UInt32}

/-- The policy was stored at some moment of the run. -/
def StoredIn (E : Externals) (ownerUid : UInt32) (events : List Event) (p : OperationPolicy) : Prop :=
  ∃ before, before <+: events ∧ p ∈ (run E ownerUid Store.initial before).durable.operations

/-- The record shows the review of a policy that satisfies `P`, for arguments it normalized. -/
def Submitted (E : Externals) (P : OperationPolicy → Prop) (id : String) (d : DirectRecord) : Prop :=
  ∃ p values args expires, P p ∧ p.normalizeArgs values = some args ∧
    { d.review with status := .pending } =
      ownedReview d.agentOwner (p.directReview E id args expires)

/-- What holds of every stored state: policies are intact, and requests show what a policy
showed when they were submitted. -/
structure Faithful (E : Externals) (P : OperationPolicy → Prop) (s : ProviderState) : Prop where
  phase : InPhase s
  intact : ∀ p ∈ s.operations, Intact E p
  known : ∀ p ∈ s.operations, P p
  submitted : ∀ r ∈ s.requests, ∀ d, r.direct = some d → Submitted E P r.id d

/-- INTERNAL: an intact policy is read back as it is, or not at all. -/
theorem eq_of_tryFrom_intact {disk : Disk} {p p' : OperationPolicy} (hp : Intact E p)
    (h : p.tryFrom E disk = some p') : p' = p := by
  by_cases himage : p.image.approved.validateIntegrity E disk = true
  · rw [tryFrom_of_intact E disk p hp himage, Option.some.injEq] at h
    exact h.symm
  · simp [OperationPolicy.tryFrom, OperationPolicy.rebuilt, himage] at h

/-- INTERNAL: what an event reads is the durable state. -/
theorem reads_self {P : OperationPolicy → Prop} {store : Store} {event : Event} {s : ProviderState}
    (hinv : Faithful E P store.durable) (h : event.reads E ownerUid store = some s) :
    s = store.durable := by
  obtain ⟨hs, hdecoded, -⟩ := reads_eq store event s h
  simp only [StoredProviderState.tryFrom, Option.bind_eq_bind, Option.bind_eq_some_iff,
    Option.pure_def, show store.durable.wire.agentAudit = some store.durable.agentAudit from rfl,
    Option.isNone_some, Bool.and_false, Bool.false_eq_true, if_false] at hdecoded
  obtain ⟨operations, hoperations, requests, -, hdecoded⟩ := hdecoded
  have heq : operations = store.durable.operations := by
    rw [mapM_eq_some_iff] at hoperations
    have hsame := forall₂_imp_mem hoperations
      fun p hp p' hp' => (eq_of_tryFrom_intact (hinv.intact p hp) hp').symm
    rw [List.forall₂_eq_eq_eq] at hsame
    exact hsame.symm
  have hoperations' : s.operations = store.durable.operations := by
    by_cases hschema : store.durable.wire.schemaVersion = STATE_SCHEMA_VERSION
    · rw [if_pos hschema, Option.bind_some, Option.some.injEq] at hdecoded
      rw [← hdecoded]
      exact heq
    · rw [if_neg hschema] at hdecoded
      simp at hdecoded
  rw [hs, hoperations']

/-- INTERNAL: a change of a request leaves alone what it shows. -/
theorem Submitted.step {P : OperationPolicy → Prop} {legit : Prop} {id : String}
    {d d' : DirectRecord} (h : Submitted E P id d) (hstep : DirectStep legit d d') :
    Submitted E P id d' := by
  have hreview : { d'.review with status := .pending } = { d.review with status := .pending } :=
    congrArg DirectRecord.review hstep.core_eq
  have howner : d'.agentOwner = d.agentOwner := congrArg (·.agentOwner) hstep.core_eq
  unfold Submitted
  rw [hreview, howner]
  exact h

/-- INTERNAL: a change of the state changes each request, or adds one that shows a stored policy. -/
theorem Faithful.submissions {P : OperationPolicy → Prop} {legit : Prop} {env : Env}
    {s s' : ProviderState} (h : Faithful E P s) (hstep : StateStep E ownerUid env legit s s') :
    ∀ r ∈ s'.requests, ∀ d, r.direct = some d → Submitted E P r.id d := by
  have hchanged : ∀ l, List.Forall₂ (RequestStep legit) s.requests l →
      ∀ r ∈ l, ∀ d, r.direct = some d → Submitted E P r.id d := by
    intro l hl r hr d hd
    obtain ⟨r₀, hr₀, hone⟩ := exists_left_of_forall₂ hl r hr
    cases hone with
    | same => exact h.submitted r hr₀ d hd
    | change d₀ d' hd₀ hchange =>
      rw [Option.some.injEq] at hd
      subst hd
      exact (h.submitted r₀ hr₀ d₀ hd₀).step hchange
  cases hstep with
  | pair => exact h.submitted
  | revoke id binding now requests _ _ hrequests => exact hchanged _ (hrequests.imp fun _ _ h => h.1)
  | create uid agentOwner replayDigest policy values args now expires random _ hpolicy hargs =>
    intro r hr d hd
    rcases List.mem_append.mp hr with hold | hnew
    · exact h.submitted r hold d hd
    · rw [List.mem_singleton.mp hnew] at hd ⊢
      rw [← Option.some.inj hd]
      refine ⟨policy, values, args, expires, h.known policy hpolicy, hargs, ?_⟩
      cases agentOwner <;> rfl
  | updateOne p r r' hfind hone _ =>
    exact hchanged _ (forall₂_setFirst p _ (fun _ => .same) s.requests r r' hfind hone)
  | updateAll requests hrequests => exact hchanged _ (hrequests.imp fun _ _ h => h.1)
  | invalidate requests hrequests _ => exact hchanged _ (hrequests.imp fun _ _ h => h.1)
  | query => exact h.submitted
  | provision => exact h.submitted
  | register => exact h.submitted

/-- INTERNAL: a change of the state keeps policies intact. -/
theorem intact_step {legit : Prop} {env : Env} {s s' : ProviderState}
    (h : ∀ p ∈ s.operations, Intact E p) (hstep : StateStep E ownerUid env legit s s') :
    ∀ p ∈ s'.operations, Intact E p := by
  cases hstep with
  | provision draft image policy _ hpolicy =>
    intro p hp
    rcases mem_upsertOperation policy p _ hp with rfl | hmem
    · exact (intact_of_fromDraft E env.disk draft image p hpolicy).1
    · exact h p hmem
  | pair => exact h
  | revoke => exact h
  | create => exact h
  | updateOne => exact h
  | updateAll => exact h
  | invalidate => exact h
  | query => exact h
  | register => exact h

/-- INTERNAL: **every event keeps requests faithful to the policies stored so far.** -/
theorem Faithful.step {P : OperationPolicy → Prop} {store : Store} (event : Event)
    (h : Faithful E P store.durable)
    (hknown : ∀ p ∈ (Model.step E ownerUid store event).durable.operations, P p) :
    Faithful E P (Model.step E ownerUid store event).durable := by
  refine ⟨step_inPhase store event h.phase, ?_, hknown, ?_⟩
  all_goals
    rcases @step_durable E ownerUid store event with hsame | ⟨s', hs', -, hnext⟩
  · rw [hsame]
    exact h.intact
  · obtain ⟨s, hreads, -, hstep⟩ := @handsOver_step E ownerUid False store event s' h.phase
      (fun _ hl => hl.elim) hs'
    rw [reads_self h hreads] at hstep
    rw [hnext]
    exact intact_step h.intact hstep
  · rw [hsame]
    exact h.submitted
  · obtain ⟨s, hreads, -, hstep⟩ := @handsOver_step E ownerUid False store event s' h.phase
      (fun _ hl => hl.elim) hs'
    rw [reads_self h hreads] at hstep
    rw [hnext]
    exact h.submissions hstep

theorem Faithful.mono {P Q : OperationPolicy → Prop} {s : ProviderState} (hPQ : ∀ p, P p → Q p)
    (h : Faithful E P s) : Faithful E Q s := by
  refine ⟨h.phase, h.intact, fun p hp => hPQ p (h.known p hp), fun r hr d hd => ?_⟩
  obtain ⟨p, values, args, expires, hp, hargs, hreview⟩ := h.submitted r hr d hd
  exact ⟨p, values, args, expires, hPQ p hp, hargs, hreview⟩

/-- INTERNAL: **every state of every run is faithful to the policies stored before it.** -/
theorem run_faithful (E : Externals) (ownerUid : UInt32) (events : List Event) :
    Faithful E (StoredIn E ownerUid events) (run E ownerUid Store.initial events).durable := by
  induction events using List.reverseRecOn with
  | nil =>
    exact ⟨initial_inPhase, fun p hp => absurd hp List.not_mem_nil,
      fun p hp => absurd hp List.not_mem_nil, fun r hr => absurd hr List.not_mem_nil⟩
  | append_singleton events event ih =>
    have hrun : run E ownerUid Store.initial (events ++ [event]) =
        step E ownerUid (run E ownerUid Store.initial events) event := by
      simp only [run, List.foldl_append, List.foldl_cons, List.foldl_nil]
    have hmore : ∀ p, StoredIn E ownerUid events p → StoredIn E ownerUid (events ++ [event]) p :=
      fun p ⟨before, hbefore, hp⟩ => ⟨before, hbefore.trans (List.prefix_append _ _), hp⟩
    rw [hrun]
    refine (ih.mono hmore).step event fun p hp => ⟨events ++ [event], List.prefix_refl _, ?_⟩
    rw [hrun]
    exact hp

theorem StoredIn.intact {events : List Event} {p : OperationPolicy}
    (h : StoredIn E ownerUid events p) : Intact E p := by
  obtain ⟨before, -, hp⟩ := h
  exact (run_faithful E ownerUid before).intact p hp

/-- INTERNAL: every stored request passed the validator. -/
theorem run_validated (E : Externals) (ownerUid : UInt32) (events : List Event) :
    ∀ r ∈ (run E ownerUid Store.initial events).durable.requests,
      r.validate E (run E ownerUid Store.initial events).durable.pairings
        (run E ownerUid Store.initial events).durable.lifecycleEpoch = true := by
  refine run_invariant (step E ownerUid) (fun store => ∀ r ∈ store.durable.requests,
    r.validate E store.durable.pairings store.durable.lifecycleEpoch = true) ?_ Store.initial events
    (fun r hr => absurd hr List.not_mem_nil)
  intro store event h
  rcases @step_durable E ownerUid store event with hsame | ⟨s', -, hvalid, hnext⟩
  · rw [hsame]
    exact h
  · rw [hnext]
    simp only [ProviderState.validateForOwner, Bool.and_eq_true, List.all_eq_true] at hvalid
    exact hvalid.2

/-- INTERNAL: a review that was submitted, with its status and its requester. -/
theorem submitted_review {r R : DirectReview} {agentOwner : Option AgentOwner}
    (h : { r with status := .pending } = ownedReview agentOwner R) :
    r = { R with status := r.status, requester := r.requester } := by
  obtain ⟨⟩ := r
  obtain ⟨⟩ := R
  cases agentOwner with
  | none =>
    simp only [ownedReview, DirectReview.mk.injEq] at h
    simp [h]
  | some owner =>
    simp only [ownedReview, DirectReview.mk.injEq] at h
    simp [h]

/-- INTERNAL: **what is stored of an approved request**: the review of the policy it was submitted
for, the approval of that review, and the current epoch. -/
theorem approved_record {events : List Event} {owner : UInt32} {id : String} {d : DirectRecord}
    (hvisible : visibleDirect ownerUid (run E ownerUid Store.initial events).durable owner id = some d)
    (happroved : d.review.status = .approved) :
    (∃ p values args expires, StoredIn E ownerUid events p ∧ p.normalizeArgs values = some args ∧
      d.review = { p.directReview E id args expires with
        status := d.review.status, requester := d.review.requester }) ∧
      d.approval = some d.approvalBinding ∧ (d.executionClaimed = false →
        d.lifecycleEpoch = (run E ownerUid Store.initial events).durable.lifecycleEpoch) := by
  have hdirect := hvisible
  unfold visibleDirect ProviderState.direct at hdirect
  rw [Option.filter_eq_some_iff, Option.bind_eq_some_iff] at hdirect
  obtain ⟨⟨r, hr, hd⟩, -⟩ := hdirect
  obtain ⟨hmem, rfl⟩ := mem_of_request _ _ r hr
  obtain ⟨p, values, args, expires, hp, hargs, hreview⟩ :=
    (run_faithful E ownerUid events).submitted r hmem d hd
  have hreview' := submitted_review hreview
  have hvalid := run_validated E ownerUid events r hmem
  simp only [RequestRecord.validate, hd, Bool.and_eq_true, consistentStatus,
    decide_eq_true_eq] at hvalid
  obtain ⟨⟨⟨-, hstatus⟩, hrecord⟩, hepoch⟩ := hvalid
  refine ⟨⟨p, values, args, expires, hp, hargs, hreview'⟩, ?_, ?_⟩
  · have honce : d.review.oneTime = ONE_TIME := by rw [hreview']; rfl
    simp only [DirectRecord.validate, Bool.and_eq_true, happroved, honce,
      show decide (ONE_TIME = LEGACY_ONE_TIME) = false by decide] at hrecord
    obtain ⟨⟨⟨⟨⟨⟨⟨⟨⟨⟨⟨-, hall⟩, hsome⟩, -⟩, -⟩, -⟩, -⟩, -⟩, -⟩, -⟩, -⟩, -⟩ := hrecord
    cases happroval : d.approval with
    | none => simp [happroval] at hsome
    | some binding =>
      simp only [happroval, Option.all_some, decide_eq_true_eq] at hall
      rw [hall]
  · intro hunclaimed
    simpa [RequestRecord.epochValid, hstatus, happroved, DirectStatus.lifecycle,
      RequestLifecycleStatus.isUnexecuted, hunclaimed] using hepoch

end Runs

/-! ## What a delivery depends on -/

/-- The texts a policy shows are those of the review: the description, unless the operation
creates a secret, and the labels of the credentials. -/
def ShownAs (policy : OperationPolicy) (review : DirectReview) : Prop :=
  (policy.create = none → policy.description = review.effect) ∧
    policy.reviewCredentials.map (·.label) = review.credentials.map (·.label)

/-- INTERNAL: credentials are their labels and their uses. -/
theorem credentials_eq_iff {l l' : List ReviewCredential} (huses : l.map (·.useType) = l'.map (·.useType)) :
    l = l' ↔ l.map (·.label) = l'.map (·.label) := by
  refine ⟨fun h => by rw [h], fun hlabels => ?_⟩
  induction l generalizing l' with
  | nil =>
    cases l' with
    | nil => rfl
    | cons c' l' => simp at hlabels
  | cons c l ih =>
    cases l' with
    | nil => simp at hlabels
    | cons c' l' =>
      simp only [List.map_cons, List.cons.injEq] at huses hlabels
      obtain ⟨label, use⟩ := c
      obtain ⟨label', use'⟩ := c'
      simp only at huses hlabels
      rw [ih huses.2 hlabels.2, huses.1, hlabels.1]

/-- INTERNAL: **two policies with one authority and one revision show the same review exactly if
they show the same texts.** -/
theorem directReview_eq_iff (E : Externals) {p q : OperationPolicy} (h : SameAuthority p q)
    (hrevision : p.revision = q.revision) (id : String) (arguments : List String) (expires : ℕ) :
    p.directReview E id arguments expires = q.directReview E id arguments expires ↔
      ShownAs p (q.directReview E id arguments expires) := by
  have htarget : (p.directReview E id arguments expires).target =
      (q.directReview E id arguments expires).target := by
    simp only [OperationPolicy.directReview, h.create, h.arguments]
    cases hc : q.create with
    | some c => rfl
    | none =>
      have hssh := h.ssh
      cases hs : p.ssh with
      | none => cases hs' : q.ssh with
        | none => rfl
        | some s' => simp [hs, hs'] at hssh
      | some s => cases hs' : q.ssh with
        | none => simp [hs, hs'] at hssh
        | some s' => simpa [hs, hs'] using congrArg (Option.map SshReview.target) hssh
  have heffect : (p.directReview E id arguments expires).effect =
      (q.directReview E id arguments expires).effect ↔
      (p.create = none → p.description = (q.directReview E id arguments expires).effect) := by
    simp only [OperationPolicy.directReview, h.create]
    cases q.create <;> simp
  have hcredentials := credentials_eq_iff h.uses
  constructor
  · intro heq
    exact ⟨heffect.mp (congrArg (·.effect) heq), hcredentials.mp (congrArg (·.credentials) heq)⟩
  · rintro ⟨hdescription, hlabels⟩
    have heffect' := heffect.mpr hdescription
    have hcredentials' := hcredentials.mpr hlabels
    unfold OperationPolicy.directReview at heffect' htarget ⊢
    simp only [DirectReview.mk.injEq, true_and, and_true]
    exact ⟨h.id, heffect', h.create, htarget, h.ssh, hcredentials', congrArg (·.sha256) h.image,
      hrevision⟩

/-- INTERNAL: what is delivered has the effect that was reviewed. -/
theorem effect_of_delivery {E : Externals} {ownerUid : UInt32} {s : ProviderState} {owner : UInt32}
    {id : String} {claimed : Bool} {answer : ApprovalBinding × OperationPolicy × List String}
    {d : DirectRecord} {policy : OperationPolicy}
    (h : executionDelivery E ownerUid s owner id claimed = .ok answer)
    (hvisible : visibleDirect ownerUid s owner id = some d)
    (hpolicy : s.operations.find? (·.id = d.review.operation) = some policy) :
    (if policy.create.isSome then CREATE_EFFECT else policy.description) = d.review.effect := by
  simp only [executionDelivery, hvisible, hpolicy, bind, Except.bind, pure, Except.pure] at h
  split at h
  · simp at h
  split at h
  · simp at h
  split at h
  · simp at h
  split at h
  · simp at h
  split at h
  · split at h
    · simp at h
    · rename_i hsame
      simp only [ne_eq, Bool.or_eq_true, decide_eq_true_eq, not_or, not_not] at hsame
      exact congrArg (·.effect) hsame.2
  · simp at h

/-- INTERNAL: reviews that are compared up to their status and requester. -/
theorem reviews_eq_iff {Q R r : DirectReview}
    (h : r = { R with status := r.status, requester := r.requester })
    (hstatus : Q.status = R.status) (hrequester : Q.requester = R.requester) :
    { Q with status := r.status, requester := r.requester } = r ↔ Q = R := by
  obtain ⟨⟩ := Q
  obtain ⟨⟩ := R
  obtain ⟨⟩ := r
  simp only [DirectReview.mk.injEq, true_and, and_true] at h hstatus hrequester ⊢
  simp [h, hstatus, hrequester]

/-- INTERNAL: one more operation. -/
theorem Commits.snoc {E : Externals} {ownerUid : UInt32} {env : Env} {s s' s'' : ProviderState}
    {ops : List Op} {op : Op} (h : Commits E ownerUid env s ops s')
    (hs : op.handed E ownerUid env s' = some s'') (himages : ImagesUnchanged E env.disk s')
    (hargs : CallerArgs env s' op) (htime : RecordsWhileExecuting s' op) :
    Commits E ownerUid env s (ops ++ [op]) s'' := by
  induction h with
  | nil s => exact .cons _ _ _ _ _ hs himages hargs htime (.nil _)
  | cons s s₁ s₂ op' ops hs' himages' hargs' htime' _ ih =>
    exact .cons _ _ _ _ _ hs' himages' hargs' htime' (ih hs himages hargs htime)

namespace Replaced

open Sample

section Run

variable (E : Externals)

/-- An operation with one credential, under the description it shows. -/
def draftOf (description : String) : OperationPolicyDraft where
  id := "deploy"
  description := description
  imageId := "tool"
  targets := ["prod"]
  arguments := [.target]
  credentials := [⟨"2f1c8a40-6d3e-4b57-9c21-08e5f7a1b6d4", "Deploy key", .login,
    [⟨.password, "TOKEN"⟩], none⟩]
  ssh := none
  create := none
  requirePassword := false

def policyOf (description : String) : OperationPolicy :=
  OperationPolicy.ofCanonical E (draftOf description) (image E).resolved

def submittedFor : DirectRecord :=
  newRecord E 1000 none none ((policyOf E "Deploy").directReview E requestId ["prod"] 100) 10 1

def approvedFor : DirectRecord := decided (submittedFor E) true none 11
def claimedFor : DirectRecord := { approvedFor E with executionClaimed := true }
def bindingFor : ApprovalBinding := (submittedFor E).approvalBinding

/-- The state with the operation under a description. -/
def offering (description : String) : ProviderState :=
  { registered E with operations := [policyOf E description] }

/-- The state with the operation and the request. -/
def keeping (description : String) (d : DirectRecord) : ProviderState :=
  { offering E description with requests := [⟨requestId, d.review.status.lifecycle, some d⟩] }

/-- The operations of the run: the fifth replaces the operation. -/
def replacement (description : String) : List Op :=
  [.registerImage (image E) (.ok ()), .provisionOperation (draftOf "Deploy") verifier true true,
    .createDirect 1000 ⟨"deploy", none, ["prod"]⟩ 10 100 true, .decideDirect (bindingFor E) true none 11,
    .provisionOperation (draftOf description) verifier false true, .claimExecution 1000 requestId]

def replacementEvents (description : String) : List Event :=
  .restart env .committed :: committed env (replacement E description)

/-- INTERNAL: the policy of the draft. -/
theorem fromDraft_draftOf {description : String} (h : validateDraft (draftOf description) = true) :
    OperationPolicy.fromDraft E disk (draftOf description) (image E) = some (policyOf E description) := by
  have hcanonical : canonicalizeDraft (draftOf description) = draftOf description := rfl
  unfold OperationPolicy.fromDraft
  rw [h, image_intact, hcanonical]
  rfl

theorem request_keeping (description : String) (d : DirectRecord) :
    (keeping E description d).request requestId =
      some ⟨requestId, d.review.status.lifecycle, some d⟩ := by
  simp [ProviderState.request, keeping]

theorem setRequest_keeping (description : String) (d d' : DirectRecord) :
    (keeping E description d).setRequest requestId ⟨requestId, d'.review.status.lifecycle, some d'⟩ =
      keeping E description d' := by
  simp [ProviderState.setRequest, keeping, setFirst]

theorem visibleDirect_keeping (description : String) (d : DirectRecord) (howner : d.ownerUid = 1000)
    (hagent : d.agentOwner = none) :
    visibleDirect 1000 (keeping E description d) 1000 requestId = some d := by
  simp [visibleDirect, ProviderState.direct, request_keeping, DirectRecord.humanVisible,
    DirectRecord.owner, howner, hagent]

/-- INTERNAL: the operation is provisioned, or replaced. -/
theorem provisions_login {s : ProviderState} {description : String} (createOnly : Bool)
    (himages : s.approvedImages = [image E]) (hvalid : validateDraft (draftOf description) = true)
    (hnew : (createOnly && s.operations.any (·.id = "deploy")) = false) :
    (Op.provisionOperation (draftOf description) verifier createOnly true).handed E 1000 env s =
      some { s with operations := upsertOperation (policyOf E description) s.operations } := by
  have hid : (image E).id = (draftOf description).imageId := rfl
  have heligible : eligible verifier (policyOf E description) = true := rfl
  have hname : (draftOf description).id = "deploy" := rfl
  simp only [Op.handed, provisionOperation, hname, hnew, himages, List.find?_cons, hid, decide_true,
    show env.disk = disk from rfl, fromDraft_draftOf E hvalid, heligible, bind, Except.bind, pure,
    Except.pure, Bool.not_true, Bool.false_eq_true, if_false, handedState]

/-- INTERNAL: the request is created. -/
theorem creates_login : (Op.createDirect 1000 ⟨"deploy", none, ["prod"]⟩ 10 100 true).handed E 1000 env
    (offering E "Deploy") = some (keeping E "Deploy" (submittedFor E)) := by
  have hid : (policyOf E "Deploy").id = "deploy" := rfl
  have hoperation : validOperationId "deploy" = true := by decide +kernel
  have hfound : (Search.binarySearch "prod" ["prod"]).isOk = true :=
    (Search.binarySearch_isOk (List.pairwise_singleton _ _)).mpr (List.mem_singleton.mpr rfl)
  have hargs : (policyOf E "Deploy").normalizeArgs ["prod"] = some ["prod"] := by
    have hshort : decide (MAX_VALUE_LEN < "prod".utf8ByteSize) = false := by decide
    simp [OperationPolicy.normalizeArgs, OperationPolicy.validatesArgs, OperationPolicy.validatesArg,
      policyOf, OperationPolicy.ofCanonical, draftOf, normalizeArg, hshort, hfound]
  simp only [Op.handed, createDirect, createOwned, hoperation, Bool.not_true, Option.any_none,
    Bool.or_false, Bool.false_eq_true, if_false, agentCurrent, Option.all_none,
    show (offering E "Deploy").operations = [policyOf E "Deploy"] from rfl, List.find?_cons, hid,
    decide_true, hargs, show env.random = some random from rfl, bind, Except.bind, pure,
    Except.pure, handedState]
  rfl

/-- INTERNAL: the request is approved. -/
theorem approves_login : (Op.decideDirect (bindingFor E) true none 11).handed E 1000 env
    (keeping E "Deploy" (submittedFor E)) = some (keeping E "Deploy" (approvedFor E)) := by
  have hvisible := visibleDirect_keeping E "Deploy" (submittedFor E) rfl rfl
  have hpolicy : (keeping E "Deploy" (submittedFor E)).operations.find?
      (·.id = (submittedFor E).review.operation) = some (policyOf E "Deploy") := by
    rw [show (submittedFor E).review.operation = (policyOf E "Deploy").id from rfl,
      show (keeping E "Deploy" (submittedFor E)).operations = [policyOf E "Deploy"] from rfl]
    simp
  have hprepared : prepareDirect 1000 (keeping E "Deploy" (submittedFor E)) 1000 requestId =
      .ok (bindingFor E) := by
    simp only [prepareDirect, hvisible, hpolicy, bind, Except.bind, pure, Except.pure,
      show agentCurrent (keeping E "Deploy" (submittedFor E)) (submittedFor E).agentOwner = true from rfl,
      show (submittedFor E).review.status = .pending from rfl,
      show (submittedFor E).lifecycleEpoch =
        (keeping E "Deploy" (submittedFor E)).lifecycleEpoch from rfl,
      show (policyOf E "Deploy").revision = (submittedFor E).review.policyDigest from rfl,
      show (policyOf E "Deploy").validatesArgs (submittedFor E).review.arguments = true from rfl,
      ne_eq, not_true_eq_false, if_false, Bool.not_true, Bool.false_eq_true]
    rfl
  simp only [Op.handed, decideDirect, show (bindingFor E).requestId = requestId from rfl,
    show bindingHuman 1000 (bindingFor E) = 1000 from rfl, hprepared, request_keeping, bind,
    Except.bind, pure, Except.pure, ne_eq, not_true_eq_false, if_false, Option.isSome_none,
    Bool.false_and, Bool.false_eq_true, if_true, RequestRecord.transition, Except.mapError, handedState]
  exact congrArg some (setRequest_keeping E "Deploy" (submittedFor E) (approvedFor E))

/-- INTERNAL: the approved request is claimed, whatever the operation shows by then. -/
theorem claims_login (description : String) : (Op.claimExecution 1000 requestId).handed E 1000 env
    (keeping E description (approvedFor E)) = some (keeping E description (claimedFor E)) := by
  simp only [Op.handed, claimExecution, ProviderState.direct, request_keeping, Option.bind_some,
    visibleDirect_keeping E description (approvedFor E) rfl rfl, bind, Except.bind, pure, Except.pure,
    show agentCurrent (keeping E description (approvedFor E)) (approvedFor E).agentOwner = true from rfl,
    show (approvedFor E).review.status = .approved from rfl,
    show (approvedFor E).executionClaimed = false from rfl,
    show (approvedFor E).lifecycleEpoch = (keeping E description (approvedFor E)).lifecycleEpoch from rfl,
    show (approvedFor E).approval = some (approvedFor E).approvalBinding from rfl,
    DirectStatus.lifecycle, ne_eq, not_true_eq_false, decide_false, Bool.or_false, Bool.not_true,
    Bool.false_eq_true, if_false, handedState]
  exact congrArg some (setRequest_keeping E description (approvedFor E) (claimedFor E))

/-- INTERNAL: a run of committed operations after the first start. -/
theorem run_committed {ops : List Op} {s : ProviderState}
    (h : Commits E 1000 env recovered ops s) :
    run E 1000 Store.initial (.restart env .committed :: committed env ops) = ⟨s, false⟩ := by
  obtain ⟨hstep, hinv⟩ := first_start E
  have hrun := (h.run hinv).2
  unfold run at hrun ⊢
  rw [List.foldl_cons, hstep, hrun]

/-- INTERNAL: **the policies stored in the run** are those of the two descriptions. -/
theorem storedIn_replacement {description : String} (hvalid : validateDraft (draftOf description) = true) :
    run E 1000 Store.initial (replacementEvents E description) =
        ⟨keeping E description (claimedFor E), false⟩ ∧
      ∀ p, StoredIn E 1000 (replacementEvents E description) p →
        p = policyOf E "Deploy" ∨ p = policyOf E description := by
  have himages : ∀ s : ProviderState, s.approvedImages = [image E] → ImagesUnchanged E disk s :=
    fun s hs => imagesUnchanged E s (Or.inr hs)
  have hfresh : FreshRequest env (offering E "Deploy") := by
    intro _ _ r hr
    simp [offering, registered, recovered, ProviderState.initial] at hr
  have hdeploy : validateDraft (draftOf "Deploy") = true := by decide +kernel
  have h₁ := (Commits.nil recovered).snoc (registers E 1) (imagesUnchanged E recovered (Or.inl rfl))
    trivial trivial
  have h₂ := h₁.snoc (provisions_login E true rfl hdeploy rfl) (himages _ rfl) trivial trivial
  have h₃ := h₂.snoc (creates_login E) (himages _ rfl) ⟨by decide, by decide, hfresh⟩ trivial
  have h₄ := h₃.snoc (approves_login E) (himages _ rfl) (by simp [CallerArgs]) trivial
  have h₅ := h₄.snoc (provisions_login E false rfl hvalid rfl) (himages _ rfl) trivial trivial
  have hreplaced : { keeping E "Deploy" (approvedFor E) with
      operations := upsertOperation (policyOf E description)
        (keeping E "Deploy" (approvedFor E)).operations } = keeping E description (approvedFor E) := by
    have hid : (policyOf E "Deploy").id = (policyOf E description).id := rfl
    simp [keeping, offering, upsertOperation, hid]
  rw [hreplaced] at h₅
  have h₆ := h₅.snoc (claims_login E description) (himages _ rfl) trivial trivial
  refine ⟨run_committed E h₆, ?_⟩
  rintro p ⟨before, hbefore, hp⟩
  have hstored : ∀ {ops : List Op} {s : ProviderState}, Commits E 1000 env recovered ops s →
      p ∈ (run E 1000 Store.initial (.restart env .committed :: committed env ops)).durable.operations →
      p ∈ s.operations := by
    intro ops s h hmem
    rwa [run_committed E h] at hmem
  simp only [replacementEvents, replacement, committed, List.map_cons, List.map_nil,
    List.prefix_cons_iff, List.prefix_nil] at hbefore
  obtain rfl | ⟨_, rfl, rfl | ⟨_, rfl, rfl | ⟨_, rfl, rfl | ⟨_, rfl, rfl | ⟨_, rfl, rfl | ⟨_, rfl, rfl |
    ⟨_, rfl, rfl⟩⟩⟩⟩⟩⟩⟩ := hbefore
  · simp [run, Store.initial, ProviderState.initial] at hp
  · have hnone := hstored (.nil recovered) hp
    simp [recovered, ProviderState.initial] at hnone
  · have hnone := hstored h₁ hp
    simp [atEpoch, registered, recovered, ProviderState.initial] at hnone
  · exact Or.inl (List.mem_singleton.mp (hstored h₂ hp))
  · exact Or.inl (List.mem_singleton.mp (hstored h₃ hp))
  · exact Or.inl (List.mem_singleton.mp (hstored h₄ hp))
  · exact Or.inr (List.mem_singleton.mp (hstored h₅ hp))
  · exact Or.inr (List.mem_singleton.mp (hstored h₆ hp))

theorem revision_draftOf (description : String) :
    (policyOf E description).revision = (claimedFor E).review.policyDigest := rfl

theorem operation_keeping (description : String) : (keeping E description (claimedFor E)).operations.find?
    (·.id = (claimedFor E).review.operation) = some (policyOf E description) := by
  rw [show (claimedFor E).review.operation = (policyOf E description).id from rfl,
    show (keeping E description (claimedFor E)).operations = [policyOf E description] from rfl]
  simp

end Run

/-- The SHA-256 digests of the five documents the run and its revisions hash, told apart by their
lengths: the executable, the policy, the policy's revision with a password, the arguments and the
record. No signature is checked. -/
def hashes : Externals where
  sha256 data := match data.length with
    | 16 => Sample.externals.sha256 data
    | 418 => #v[176, 239, 108, 27, 249, 88, 129, 209, 189, 119, 52, 11, 108, 24, 96, 39,
        150, 196, 66, 80, 39, 191, 185, 225, 38, 166, 192, 243, 186, 74, 36, 170]
    | 89 => #v[111, 208, 107, 12, 15, 80, 232, 204, 58, 68, 105, 203, 148, 111, 204, 208,
        62, 184, 140, 125, 182, 136, 227, 223, 182, 196, 35, 92, 143, 166, 26, 234]
    | 12 => #v[218, 168, 146, 72, 124, 129, 196, 166, 247, 187, 253, 58, 206, 194, 1, 196,
        185, 224, 231, 193, 135, 249, 67, 75, 245, 133, 189, 253, 105, 221, 207, 48]
    | _ => #v[179, 101, 103, 160, 141, 252, 90, 32, 169, 66, 255, 123, 2, 245, 205, 215,
        125, 48, 227, 187, 7, 121, 12, 60, 1, 227, 11, 241, 152, 145, 146, 62]
  verifyingKey _ := false
  verifyStrict _ _ _ := false

end Replaced

end VaultAccess.Analysis
