import VaultAccess.Analysis.Calls
import VaultAccess.Analysis.Envelopes

/-!
# Who sent a message, over whole runs

Requests remember their agent by a copy of its binding. That copy stays good because the list of
bindings only grows and its entries only turn from enabled to revoked, and because the validator
lets no state be stored whose bindings share an identifier or a key. Nothing is assumed of the run:
operations come with any arguments, and restarts and failed writes at any point.
-/

set_option autoImplicit false

namespace VaultAccess.Analysis

open VaultAccess.Library VaultAccess.Model

variable {E : Externals} {ownerUid : UInt32}

/-! ## Bindings are kept -/

/-- What may become of a binding: nothing, or its revocation. -/
def AgentBinding.Kept (b b' : AgentBinding) : Prop :=
  b' = b ∨ b.status = .enabled ∧ b' = { b with status := .revoked }

/-- A later registry has every binding in its place, and the audit only longer. -/
structure RegistryGrows (s s' : ProviderState) : Prop where
  bindings : ∀ (i : ℕ) (b : AgentBinding), s.pairings[i]? = some b →
    ∃ b', s'.pairings[i]? = some b' ∧ AgentBinding.Kept b b'
  audit : s.agentAudit <+: s'.agentAudit

/-- INTERNAL: neither the bindings nor the audit changed. -/
theorem RegistryGrows.of_eq {s s' : ProviderState} (hpairings : s'.pairings = s.pairings)
    (haudit : s'.agentAudit = s.agentAudit) : RegistryGrows s s' := by
  constructor
  · intro i b hb
    exact ⟨b, by rw [hpairings, hb], Or.inl rfl⟩
  · exact ⟨[], by rw [List.append_nil, haudit]⟩

/-- INTERNAL: three registries. -/
theorem RegistryGrows.trans {s₁ s₂ s₃ : ProviderState} (h : RegistryGrows s₁ s₂)
    (h' : RegistryGrows s₂ s₃) : RegistryGrows s₁ s₃ := by
  constructor
  · intro i b hb
    obtain ⟨b₂, hb₂, hkept⟩ := h.bindings i b hb
    obtain ⟨b₃, hb₃, hkept'⟩ := h'.bindings i b₂ hb₂
    refine ⟨b₃, hb₃, ?_⟩
    rcases hkept with rfl | ⟨henabled, rfl⟩
    · exact hkept'
    · rcases hkept' with rfl | ⟨hagain, -⟩
      · exact Or.inr ⟨henabled, rfl⟩
      · exact absurd hagain (by simp)
  · exact h.audit.trans h'.audit

/-- INTERNAL: a revocation changes the status of the binding it finds and of no other. -/
theorem kept_revokeFirst (id : String) (l : List AgentBinding) (found : AgentBinding)
    (hfind : l.find? (·.id = id) = some found) (henabled : found.status = .enabled) (i : ℕ)
    (b : AgentBinding) (hb : l[i]? = some b) :
    ∃ b', (revokeFirst id l)[i]? = some b' ∧ AgentBinding.Kept b b' := by
  induction l generalizing i with
  | nil => simp at hb
  | cons a l ih =>
    unfold revokeFirst
    by_cases ha : a.id = id
    · obtain rfl : a = found := by simpa [ha] using hfind
      rw [if_pos ha]
      cases i with
      | zero =>
        obtain rfl : a = b := by simpa using hb
        exact ⟨_, rfl, Or.inr ⟨henabled, rfl⟩⟩
      | succ i => exact ⟨b, by simpa using hb, Or.inl rfl⟩
    · rw [if_neg ha]
      cases i with
      | zero => exact ⟨b, by simpa using hb, Or.inl rfl⟩
      | succ i =>
        have hrest : l.find? (·.id = id) = some found := by simpa [List.find?_cons, ha] using hfind
        simpa using ih hrest i (by simpa using hb)

/-- INTERNAL: **every change of the state keeps the bindings.** -/
theorem StateStep.registry {env : Env} {legit : Prop} {s s' : ProviderState}
    (h : StateStep E ownerUid env legit s s') : RegistryGrows s s' := by
  cases h with
  | pair input random binding now =>
    constructor
    · intro i b hb
      refine ⟨b, ?_, Or.inl rfl⟩
      rw [List.getElem?_append_left (List.getElem?_eq_some_iff.mp hb).1, hb]
    · exact List.prefix_append _ _
  | revoke id binding now requests hfind henabled =>
    constructor
    · exact kept_revokeFirst id s.pairings binding hfind henabled
    · exact List.prefix_append _ _
  | create | updateOne | updateAll | invalidate | query | provision | register =>
    exact .of_eq rfl rfl

/-- INTERNAL: so does every event. -/
theorem step_registry (store : Store) (event : Event) (hphase : InPhase store.durable) :
    RegistryGrows store.durable (step E ownerUid store event).durable := by
  rcases @step_durable E ownerUid store event with hsame | ⟨s', hs', -, hnext⟩
  · rw [hsame]
    exact .of_eq rfl rfl
  · obtain ⟨s, -, hs, hstep⟩ := @handsOver_step E ownerUid False store event s' hphase
      (fun _ hl => hl.elim) hs'
    have hgrows := hstep.registry
    rw [hs] at hgrows
    rw [hnext]
    exact ⟨hgrows.bindings, hgrows.audit⟩

/-- INTERNAL: **and every run.** -/
theorem run_registry (store : Store) (events : List Event) (hphase : InPhase store.durable) :
    RegistryGrows store.durable (run E ownerUid store events).durable :=
  run_relation (step E ownerUid) (fun store => InPhase store.durable)
    (fun store store' => RegistryGrows store.durable store'.durable) (fun _ => .of_eq rfl rfl)
    (fun _ _ _ h h' => h.trans h') (fun store event => step_inPhase store event)
    (fun store event => step_registry store event) store events hphase

/-! ## The validator keeps owners apart -/

/-- What every stored state satisfies: a valid registry, and a binding for every owner. -/
structure Attributed (E : Externals) (ownerUid : UInt32) (s : ProviderState) : Prop where
  registry : RegistryValid E s.pairings s.agentAudit ownerUid
  owners : ∀ r ∈ s.requests, ∀ d o, r.direct = some d → d.agentOwner = some o →
    ∃ b ∈ s.pairings, o.matches b = true

/-- INTERNAL: **what the validator accepts.** -/
theorem attributed_of_valid {disk : Disk} {s : ProviderState}
    (h : s.validateForOwner E disk ownerUid = true) : Attributed E ownerUid s := by
  simp only [ProviderState.validateForOwner, Bool.and_eq_true, decide_eq_true_eq,
    List.all_eq_true] at h
  obtain ⟨⟨⟨⟨⟨⟨⟨⟨⟨-, hregistry⟩, -⟩, -⟩, -⟩, -⟩, -⟩, -⟩, -⟩, hrequests⟩ := h
  constructor
  · exact (validateRegistry_iff _ _).mp hregistry
  · intro r hr d o hd ho
    have hvalid := hrequests r hr
    simp only [RequestRecord.validate, hd, ho, Option.all_some, Bool.and_eq_true,
      List.any_eq_true] at hvalid
    exact hvalid.1.1.1

/-- INTERNAL: **every stored state of every run.** -/
theorem run_attributed (events : List Event) :
    Attributed E ownerUid (run E ownerUid Store.initial events).durable := by
  refine run_invariant (step E ownerUid) (fun store => Attributed E ownerUid store.durable) ?_
    Store.initial events ?_
  · intro store event h
    rcases @step_durable E ownerUid store event with hsame | ⟨s', -, hvalid, hnext⟩
    · rw [hsame]
      exact h
    · rw [hnext]
      exact attributed_of_valid hvalid
  · refine ⟨⟨by simp [Store.initial, ProviderState.initial], List.nodup_nil, List.nodup_nil,
      List.nodup_nil, [], rfl, by simp [Store.initial, ProviderState.initial]⟩, ?_⟩
    intro r hr
    exact absurd hr List.not_mem_nil

/-- INTERNAL: a copy of a binding matches that binding alone. -/
theorem matches_alone {bindings : List AgentBinding} (hids : (bindings.map (·.id)).Nodup)
    {o : AgentOwner} {b : AgentBinding} (hb : b ∈ bindings) (hmatches : o.matches b = true) :
    bindings.filter (fun b' => o.matches b') = [b] := by
  have hid : ∀ b', o.matches b' = true → b'.id = b.id := by
    intro b' hmatches'
    simp only [AgentOwner.matches, decide_eq_true_eq] at hmatches hmatches'
    exact congrArg AgentOwner.bindingId (hmatches'.symm.trans hmatches)
  induction bindings with
  | nil => simp at hb
  | cons a rest ih =>
    rw [List.map_cons, List.nodup_cons] at hids
    by_cases ha : o.matches a = true
    · have hnone : rest.filter (fun b' => o.matches b') = [] := by
        rw [List.filter_eq_nil_iff]
        intro b' hb' hmatches'
        exact hids.1 (List.mem_map.mpr ⟨b', hb', (hid b' hmatches').trans (hid a ha).symm⟩)
      have hab : a = b := by
        rcases List.mem_cons.mp hb with heq | hmem
        · exact heq.symm
        · exact absurd (List.mem_map.mpr ⟨b, hmem, (hid a ha).symm⟩) hids.1
      rw [List.filter_cons_of_pos ha, hnone, hab]
    · rw [List.filter_cons_of_neg ha]
      apply ih hids.2
      rcases List.mem_cons.mp hb with heq | hmem
      · exact absurd (heq ▸ hmatches) ha
      · exact hmem

/-! ## Pairing and authentication -/

/-- INTERNAL: keys are told apart by their bytes. -/
theorem decodePublicKey_inj {text text' : String} {key : Vector UInt8 32}
    (h : decodePublicKey E text = some key) (h' : decodePublicKey E text' = some key) :
    text = text' := by
  have hencoded : ∀ {text : String}, decodePublicKey E text = some key →
      encodeUrlSafe key.toList = text := by
    intro text htext
    unfold decodePublicKey at htext
    obtain ⟨decoded, -, hkey⟩ := Option.bind_eq_some_iff.mp htext
    split at hkey
    · next hsize =>
      simp only at hkey
      split at hkey
      · next hvalid =>
        simp only [Bool.and_eq_true, decide_eq_true_eq] at hvalid
        rw [← Option.some.inj hkey]
        exact hvalid.2
      · exact absurd hkey (by simp)
    · exact absurd hkey (by simp)
  rw [← hencoded h, ← hencoded h']

/-- INTERNAL: a new binding has the key and the label of its input. -/
theorem new_input {input : AgentPairing} {random : Vector UInt8 32} {b : AgentBinding}
    (h : AgentBinding.new E input ownerUid random = some b) :
    b.publicKey = input.publicKey ∧ b.label = input.label ∧ b.uid = input.uid ∧ b.gid = input.gid := by
  unfold AgentBinding.new at h
  split at h
  · simp only at h
    split_ifs at h
    rw [Option.some.injEq] at h
    rw [← h]
    exact ⟨rfl, rfl, rfl, rfl⟩
  · simp at h

/-- INTERNAL: a pairing that is handed to the store. -/
theorem pairAgent_ok {env : Env} {s : ProviderState} {human : UInt32} {input : AgentPairing} {now : ℕ}
    {handed : Handed AgentBindingView} (h : pairAgent E ownerUid env s human input now = .ok handed) :
    ∃ random b, AgentBinding.new E input ownerUid random = some b ∧
      (∀ b' ∈ s.pairings, b'.publicKey ≠ b.publicKey ∧ (b'.status = .enabled → b'.label ≠ b.label)) ∧
      handed = ⟨b.view, some { s with
        agentAudit := s.agentAudit ++ [b.audit human now .paired]
        pairings := s.pairings ++ [b] }⟩ := by
  simp only [pairAgent, bind, Except.bind, pure, Except.pure] at h
  split at h
  · exact absurd h (by simp)
  split at h
  · next random hrandom =>
    split at h
    · next b hb =>
      split_ifs at h with hknown
      refine ⟨random, b, hb, ?_, (Except.ok.inj h).symm⟩
      simpa [not_or] using hknown
    · exact absurd h (by simp)
  · exact absurd h (by simp)

/-- What an accepted pairing leaves: the new binding, enabled, after the others; its key is none of
theirs and its label none of an enabled one. -/
structure Paired (s s' : ProviderState) (input : AgentPairing) (view : AgentBindingView)
    (b : AgentBinding) : Prop where
  pairings : s'.pairings = s.pairings ++ [b]
  key : b.publicKey = input.publicKey
  enabled : b.status = .enabled
  shown : b.view = view
  keys : ∀ b' ∈ s.pairings, b'.publicKey ≠ input.publicKey
  labels : ∀ b' ∈ s.pairings, b'.status = .enabled → b'.label ≠ b.label

/-- INTERNAL: **an accepted pairing.** -/
theorem paired_of_call {store : Store} {human : UInt32} {input : AgentPairing} {now : ℕ} {env : Env}
    {w : WriteOutcome} {unreadable : Bool} {view : AgentBindingView}
    (h : (store.call E ownerUid (.pairAgent human input now) env w unreadable).2 = .ok view) :
    ∃ b, Paired store.durable
      (store.call E ownerUid (.pairAgent human input now) env w unreadable).1.durable input view b := by
  obtain ⟨s, hcall⟩ := call_ok store (.pairAgent human input now) env w unreadable view h
  obtain ⟨handed, heval, hvalue, -, hstored⟩ := hcall.eval
  obtain ⟨random, b, hnew, hapart, rfl⟩ := pairAgent_ok heval
  obtain ⟨hstore, -⟩ := hstored _ rfl
  have hpairings : s.pairings = store.durable.pairings := by rw [hcall.reads]
  obtain ⟨hkey, -⟩ := new_input hnew
  refine ⟨b, ?_, hkey, (new_binding input random b hnew).2, hvalue, ?_, ?_⟩
  · rw [hstore, hpairings]
  · intro b' hb'
    rw [← hkey]
    exact (hapart b' (hpairings ▸ hb')).1
  · intro b' hb'
    exact (hapart b' (hpairings ▸ hb')).2

/-- What the attribution of a message to an owner needs: one binding has the identifier that the
message names, is enabled, lists the peer's uid and one of its groups, and its own key verified the
message. -/
structure AttributedTo (E : Externals) (bindings : List AgentBinding) (uid : UInt32)
    (groups : List UInt32) (id : String) (message : AgentEnvelope) (owner : AgentOwner)
    (b : AgentBinding) : Prop where
  alone : bindings.filter (fun b' => owner.matches b') = [b]
  named : b.id = id
  enabled : b.status = .enabled
  uid : b.uid = uid
  group : b.gid ∈ groups
  verified : ∃ key data signature, decodePublicKey E b.publicKey = some key ∧
    message.signingBytes = .ok data ∧ E.verifyStrict key data signature = true

/-- INTERNAL: a message of a peer that a binding's key verified. -/
theorem attributed_of_peer {s : ProviderState} {uid : UInt32} {groups : List UInt32} {id : String}
    {message : AgentEnvelope} {b : AgentBinding} (h : RegistryValid E s.pairings s.agentAudit ownerUid)
    (hfind : bindingForPeer s id uid groups = some b)
    (hverify : message.verify E b.publicKey = .ok ()) :
    AttributedTo E s.pairings uid groups id message (AgentOwner.fromBinding b) b := by
  have hb : b ∈ s.pairings := List.mem_of_find?_eq_some hfind
  have hmatch := List.find?_some hfind
  simp only [AgentBinding.matchesOs, AgentBinding.enabledCurrent, Bool.and_eq_true,
    decide_eq_true_eq] at hmatch
  obtain ⟨hid, ⟨huid, hgroup⟩, henabled⟩ := hmatch
  obtain ⟨key, hkey⟩ : ∃ key, decodePublicKey E b.publicKey = some key := by
    have hvalid := h.valid b hb
    unfold AgentBinding.validate at hvalid
    split at hvalid
    · next key hkey => exact ⟨key, hkey⟩
    · exact absurd hvalid (by simp)
  obtain ⟨data, signature, hdata, hsignature⟩ := verify_ok hkey hverify
  exact
    { alone := matches_alone h.ids hb (by simp [AgentOwner.matches])
      named := hid
      enabled := henabled
      uid := huid
      group := by simpa using hgroup
      verified := ⟨key, data, signature, hkey, hdata, hsignature⟩ }

/-- INTERNAL: who a submission is attributed to. -/
theorem authenticateAgent_ok {s : ProviderState} {uid : UInt32} {groups : List UInt32}
    {input : SignedSubmission} {owner : AgentOwner}
    (hregistry : RegistryValid E s.pairings s.agentAudit ownerUid)
    (h : authenticateAgent E ownerUid s uid groups input = .ok owner) :
    ∃ b, AttributedTo E s.pairings uid groups input.bindingId (.submission input) owner b := by
  simp only [authenticateAgent, bind, Except.bind, pure, Except.pure] at h
  split_ifs at h
  split at h
  · exact absurd h (by simp)
  next b hfind =>
  cases hverify : input.verify E b.publicKey with
  | error e => exact absurd h (by simp [hverify])
  | ok =>
    obtain rfl : AgentOwner.fromBinding b = owner := by simpa [hverify] using h
    exact ⟨b, attributed_of_peer hregistry hfind hverify⟩

/-- INTERNAL: who a status query is attributed to. -/
theorem authenticateStatusQuery_ok {s : ProviderState} {uid : UInt32} {groups : List UInt32}
    {query : SignedStatusQuery} {owner : AgentOwner}
    (hregistry : RegistryValid E s.pairings s.agentAudit ownerUid)
    (h : authenticateStatusQuery E ownerUid s uid groups query = .ok owner) :
    ∃ b, AttributedTo E s.pairings uid groups query.bindingId (.status query) owner b := by
  simp only [authenticateStatusQuery, bind, Except.bind, pure, Except.pure] at h
  split_ifs at h
  split at h
  · exact absurd h (by simp)
  next b hfind =>
  cases hverify : query.verify E b.publicKey with
  | error e => exact absurd h (by simp [hverify])
  | ok =>
    simp only [hverify] at h
    split at h
    · exact absurd h (by simp)
    · obtain rfl : AgentOwner.fromBinding b = owner := by simpa using h
      exact ⟨b, attributed_of_peer hregistry hfind hverify⟩

/-! ## The main result -/

/-- INTERNAL: a binding that was stored has a binding with its key in every later state. -/
theorem RegistryGrows.key {s s' : ProviderState} (h : RegistryGrows s s') {b : AgentBinding}
    (hb : b ∈ s.pairings) : ∃ b' ∈ s'.pairings, b'.publicKey = b.publicKey := by
  obtain ⟨i, hi⟩ := List.mem_iff_getElem?.mp hb
  obtain ⟨b', hb', hkept⟩ := h.bindings i b hi
  refine ⟨b', List.mem_of_getElem? hb', ?_⟩
  rcases hkept with rfl | ⟨-, rfl⟩
  · rfl
  · rfl

end VaultAccess.Analysis
