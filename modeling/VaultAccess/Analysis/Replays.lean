import VaultAccess.Analysis.Interleavings
import VaultAccess.Analysis.Rehearsal

/-!
# Messages are accepted once

The binding and the nonce of a message over every run of submissions, status queries,
locks, revocations and restarts; and a run in which a replay, though it is rejected, finds
its session over and locks it.
-/

set_option autoImplicit false

namespace VaultAccess.Analysis

open VaultAccess.Library VaultAccess.Model VaultAccess.Model.Application

section Replays

variable {E : Externals} {ownerUid : UInt32} {requestLifetime : ℕ}

/-- A call whose message was admitted before does not answer; a state it hands to the store comes
from expiry or from the lock of a session that is over, and it admits no message. -/
def RejectsReplay (before : List (ℕ × Mark)) : ℕ × Mark → Prop
  | (t, .answered _ _) => ∀ call, (t, Mark.began call true) ∉ before
  | (t, .operated op handed ok) => ReplayOk before t op handed ok
  | _ => True

variable (E) in
/-- Messages are admitted once, and replays are rejected, now and later. -/
structure ReplaySafe (m later : Shared) : Prop where
  once : m.admitted.Nodup
  kept : ∀ pair ∈ m.admitted, pair ∈ later.admitted ∧ Seen (E := E) pair later.authority.store
  markers : ∀ marker, m.authority.store.durable.replayed marker = true →
    later.authority.store.durable.replayed marker = true
  rejected : Each RejectsReplay m.log

variable (E ownerUid requestLifetime) in
/-- **A message is accepted at most once.** In every run of submissions, status queries, locks,
revocations and restarts, the binding and the nonce of a message are admitted at most once, over both
kinds together; their marker stays in the durable state, as does every marker; and a call whose
message was admitted before it began does not answer, admits nothing, and hands no state to the
store except to expire requests or to lock a session that is over.
SRCLINE: provider.rs:257-298, provider.rs:350-390 -/
theorem messages_accepted_once (events later : List (SystemEvent Input ℕ Restart Call)) :
    ReplaySafe E (runSystem E ownerUid requestLifetime events).mem
      (runSystem E ownerUid requestLifetime (events ++ later)).mem := by
  have hinv := runSystem_inv E ownerUid requestLifetime events
  have hfollows := @follows_run E ownerUid requestLifetime events later
  have hgrows := hfollows.grows hinv.phase
  refine ⟨hinv.admittedOnce, fun pair hpair => ⟨hfollows.admitted.subset hpair,
    (hinv.admitted pair hpair).grows hgrows⟩, hgrows.replayed, ?_⟩
  intro before entry after heq
  have hmark := hinv.history before entry after heq
  obtain ⟨t, mark⟩ := entry
  cases mark with
  | operated op handed ok => exact hmark.2
  | answered bindingId nonce =>
    -- the operation that admitted the message was performed by this very call
    intro call hbegan
    obtain ⟨op, handed, hop, hmessage⟩ := hmark
    obtain ⟨a, b, rfl⟩ := List.append_of_mem hop
    have hlog : (runSystem E ownerUid requestLifetime events).mem.log =
        a ++ (t, Mark.operated op handed true) :: (b ++ (t, .answered bindingId nonce) :: after) := by
      rw [heq, List.append_assoc, List.cons_append]
    have hreplay := (hinv.history a (t, .operated op handed true) _ hlog).2
    rcases List.mem_append.mp hbegan with hbegan | hbegan
    · simpa using (hreplay call hbegan).2 (by rw [hmessage]; simp)
    · rcases List.mem_cons.mp hbegan with heq' | hbegan
      · simp at heq'
      · -- a thread begins before it does anything
        obtain ⟨c, d, rfl⟩ := List.append_of_mem hbegan
        have hfirst := hinv.history (a ++ (t, Mark.operated op handed true) :: c)
          (t, .began call true) (d ++ (t, .answered bindingId nonce) :: after) (by
            rw [hlog]
            simp)
        exact hfirst (t, .operated op handed true) (by simp) rfl
  | began | entered | published | closed | set | authenticated | read | looked | registered
  | handedOver | cancelled => trivial

end Replays

/-! ## A replay in a session that is over -/

namespace Sample

/-- Every key and every signature is accepted. -/
structure Accepting (E : Externals) : Prop where
  key : ∀ key, E.verifyingKey key = true
  signature : ∀ key data signature, E.verifyStrict key data signature = true

variable (E : Externals)

def pairing : AgentPairing := ⟨"agent", newRandom random, 2000, 2000⟩
def agent : AgentBinding :=
  ⟨newRandom random, "agent", newRandom random, hexSha256 E random.toList, 2000, 2000, .enabled,
    none⟩
def paired : ProviderState :=
  { atEpoch 3 (provisioned E) with
    agentAudit := [(agent E).audit 1000 100 .paired]
    pairings := [agent E] }

def submission : SignedSubmission :=
  ⟨1, "submit", newRandom random, newRandom random, "store", (policy E).revision, [],
    encodeUrlSafe (List.replicate 64 0)⟩

theorem decodePublicKey_random (h : Accepting E) : decodePublicKey E (newRandom random) = some random := by
  simp only [decodePublicKey, newRandom, decodeUrlSafe_encodeUrlSafe, Option.bind_eq_bind,
    Option.bind_some]
  rw [dif_pos (by simp)]
  simp [h.key, Vector.toList]

/-- INTERNAL: the agent is paired. -/
theorem pairs (h : Accepting E) : (Op.pairAgent 1000 pairing 100).eval E 1000 env
    (atEpoch 3 (provisioned E)) = .ok ⟨(agent E).view, some (paired E)⟩ := by
  have hvalid : (agent E).validate E 1000 = true := by
    have hlabel : validLabel "agent" = true := by decide +kernel
    simp only [AgentBinding.validate, agent, decodePublicKey_random E h, validRequestId_newRandom, hlabel]
    have hids : validOsId 2000 = true := by decide
    have hother : (2000 : UInt32) ≠ 1000 := by decide
    simp [hids, hother]
  have hnew : AgentBinding.new E pairing 1000 random = some (agent E) := by
    simp only [AgentBinding.new, pairing, decodePublicKey_random E h]
    exact if_pos hvalid
  simp only [Op.eval, Model.pairAgent, checkAdministrator, ne_eq, not_true_eq_false, if_false, bind,
    Except.bind, pure, Except.pure, show env.random = some random from rfl, hnew]
  rfl

/-- INTERNAL: a text of 32 or 64 bytes. -/
theorem decodeFixed_encode (n : ℕ) (data : List UInt8) (hlength : data.length = n) :
    ∃ value, decodeFixed n (encodeUrlSafe data) = .ok value := by
  unfold decodeFixed
  rw [decodeUrlSafe_encodeUrlSafe]
  simp only [ne_eq, not_true_eq_false, if_false]
  rw [dif_pos (by simpa using hlength)]
  exact ⟨_, rfl⟩

/-- INTERNAL: the submission is well formed, and its signature is accepted. -/
theorem submission_ok (h : Accepting E) : (submission E).validate = .ok () ∧
    (submission E).verify E (agent E).publicKey = .ok () ∧
    ∃ marker, (submission E).replayDigest E = .ok marker := by
  obtain ⟨id, hid⟩ := decodeFixed_encode 32 random.toList (by simp)
  obtain ⟨signature, hsignature⟩ := decodeFixed_encode 64 (List.replicate 64 0) (by simp)
  have hid' : decodeFixed 32 (newRandom random) = .ok id := hid
  have hbinding : decodeFixed 32 (submission E).bindingId = .ok id := hid
  have hnonce : decodeFixed 32 (submission E).nonce = .ok id := hid
  have hsigned : decodeFixed 64 (submission E).signature = .ok signature := hsignature
  have henvelope : validEnvelope (submission E).bindingId (submission E).nonce
      (submission E).signature = .ok () := by
    simp only [validEnvelope, hbinding, hnonce, hsigned, bind, Except.bind, pure, Except.pure]
  have hvalid : (submission E).validate = .ok () := by
    have hshape : validOperationId "store" = true := by decide +kernel
    have hrevision : validSha256 (submission E).expectedPolicyRevision = true :=
      validSha256_hexSha256 _ _
    unfold SignedSubmission.validate
    have hversion : ¬ (1 : UInt8).toNat ≠ PROTOCOL_VERSION := by decide
    rw [show (submission E).protocolVersion = 1 from rfl, if_neg hversion, henvelope, hrevision,
      show (submission E).operationId = "store" from rfl, hshape]
    rfl
  have hbytes : ∃ data, (submission E).signingBytes = .ok data := by
    simp only [SignedSubmission.signingBytes, hvalid, signingHead, hbinding, hnonce, bind, Except.bind,
      pure, Except.pure]
    exact ⟨_, rfl⟩
  obtain ⟨data, hdata⟩ := hbytes
  have hkey : decodePublicKey E (agent E).publicKey = some random := decodePublicKey_random E h
  refine ⟨hvalid, ?_, ?_⟩
  · simp only [SignedSubmission.verify, hdata, bind, Except.bind, verifySignature, hkey, hsigned, h.signature,
      if_true]
  · simp only [SignedSubmission.replayDigest, hvalid, replayMarker, hbinding, hnonce, bind,
      Except.bind, pure, Except.pure]
    exact ⟨_, rfl⟩

/-- The owner of the agent's requests, its request, and the state that holds it. -/
def owner : AgentOwner := AgentOwner.fromBinding (agent E)
def review : DirectReview :=
  ownedReview (some (owner E)) ((policy E).directReview E requestId [] 101)
def request (marker : String) : RequestRecord :=
  ⟨requestId, .pending, some (newRecord E 2000 (some (owner E)) (some marker) (review E) 100 3)⟩
def asked (marker : String) : ProviderState := { (paired E) with requests := [request E marker] }

/-- INTERNAL: the agent is known. -/
theorem authenticates (h : Accepting E) :
    authenticateAgent E 1000 (paired E) 2000 [2000] (submission E) = .ok (owner E) := by
  have hfind : bindingForPeer (paired E) (submission E).bindingId 2000 [2000] = some (agent E) := by
    have hmatch : ((agent E).id = (submission E).bindingId &&
        (agent E).matchesOs 2000 [2000]) = true := by
      rw [show (submission E).bindingId = (agent E).id from rfl]
      simp [agent, AgentBinding.matchesOs, AgentBinding.enabledCurrent]
    simp [bindingForPeer, show (paired E).pairings = [agent E] from rfl, hmatch]
  simp only [authenticateAgent, hfind, (submission_ok E h).2.1, bind, Except.bind, pure, Except.pure]
  rfl

/-- INTERNAL: the request is created. -/
theorem asks (h : Accepting E) : ∃ marker,
    (Op.createSigned (owner E) (submission E) 100 101 true).eval E 1000 env (paired E) = .ok ⟨review E, some (asked E marker)⟩ := by
  obtain ⟨marker, hmarker⟩ := (submission_ok E h).2.2
  refine ⟨marker, ?_⟩
  have hcurrent : agentCurrent (paired E) (some (owner E)) = true := by
    simp [agentCurrent, paired, owner, AgentOwner.matches, agent, AgentBinding.enabledCurrent]
  have hoperation : validOperationId "store" = true := by decide +kernel
  have hrevision : validSha256 (policy E).revision = true := validSha256_hexSha256 _ _
  have hpolicy : (paired E).operations.find? (·.id = "store") = some (policy E) := by
    rw [show (paired E).operations = [policy E] from rfl]
    simp [show (policy E).id = "store" from rfl]
  have hargs : (policy E).normalizeArgs (submission E).args = some [] := rfl
  have hfresh : (paired E).replayed marker = false := rfl
  simp only [Op.eval, createSigned, hmarker, hfresh,
    show (submission E).bindingId = (owner E).bindingId from rfl, createOwned,
    show (submission E).operationId = "store" from rfl, hoperation, hrevision, hcurrent, hpolicy, hargs,
    show (submission E).expectedPolicyRevision = (policy E).revision from rfl, Option.any_some,
    show env.random = some random from rfl, bind, Except.bind, pure, Except.pure, ne_eq,
    not_true_eq_false, if_false, Bool.not_true, Bool.or_self, Bool.false_eq_true, decide_false]
  rfl

/-- INTERNAL: nothing expires while no request is due. -/
theorem expires_nothing (s : ProviderState) (now : ℕ) (deadlines : String → Option ℕ)
    (h : ∀ r ∈ s.requests, expires now deadlines r = false) :
    (Op.expireDirect now deadlines).eval E 1000 env s = .ok ⟨(), none⟩ := by
  have hupdate : ∀ (l : List RequestRecord) (index : ℕ), (∀ r ∈ l, expires now deadlines r = false) →
      updateRequests (expireRequest env now deadlines) index l = .ok l := by
    intro l
    induction l with
    | nil => exact fun _ _ => rfl
    | cons r l ih =>
      intro index hl
      simp only [updateRequests, expireRequest, hl r List.mem_cons_self, Bool.false_eq_true, if_false,
        ih (index + 1) fun q hq => hl q (List.mem_cons_of_mem _ hq), bind, Except.bind, pure,
        Except.pure]
  have hnone : s.requests.any (expires now deadlines) = false := by
    rw [List.any_eq_false]
    exact fun r hr => by simp [h r hr]
  simp only [Op.eval, Model.expireDirect, hupdate s.requests 0 h, hnone, bind, Except.bind, pure,
    Except.pure, Bool.false_eq_true, if_false]

/-- INTERNAL: a lock of a store with one pending request hands over a state. -/
theorem locks_asked (marker : String) : ∃ s', (Op.lock).eval E 1000 env (asked E marker) =
    .ok ⟨(), some s'⟩ := by
  have hepoch : checkedAdd (asked E marker).lifecycleEpoch 1 = some 4 := rfl
  have hinvalid : ∃ r, invalidateRequest env false 0 (request E marker) = .ok r := ⟨_, rfl⟩
  obtain ⟨r, hr⟩ := hinvalid
  simp only [Op.eval, Model.lock, invalidate, hepoch,
    show (asked E marker).requests = [request E marker] from rfl, updateRequests, hr, bind, Except.bind, pure, Except.pure]
  exact ⟨_, rfl⟩

/-- INTERNAL: an operation that hands over nothing. -/
theorem call_reads {s : ProviderState} {op : Op} {value : op.Value} (hinv : StateInv E 1000 s)
    (himages : s.approvedImages = [image E]) (heval : op.eval E 1000 env s = .ok ⟨value, none⟩) :
    Store.call E 1000 ⟨s, false⟩ op env .committed false = (⟨s, false⟩, .ok value) := by
  have hread : Store.readState E 1000 env.disk ⟨s, false⟩ = .ok s := by
    have hunchanged := imagesUnchanged E s (Or.inr himages)
    simp [Store.readState, show env.disk = disk from rfl, hinv.tryFrom_wire disk hunchanged,
      hinv.validateForOwner disk hunchanged]
  simp only [Store.call, Bool.false_eq_true, if_false, hread, heval]

/-- The memory after the agent was paired, and after its submission was admitted. -/
def provisionedMemory : Shared :=
  { opened with authority := { opened.authority with store := ⟨atEpoch 3 (provisioned E), false⟩ } }
def pairedMemory : Shared :=
  { opened with
    authority := { opened.authority with store := ⟨paired E, false⟩ }
    flags := [false]
    agentTokens := [(newRandom random, 0)] }
def askedMemory (marker : String) : Shared :=
  retaining (launching (admitting (retaining (pairedMemory E)) ⟨asked E marker, false⟩
    ((submission E).bindingId, (submission E).nonce)) requestId (newRandom random) 1000000000)

/-- INTERNAL: **a submission is admitted.** -/
theorem reached_asked (h : Accepting E) : ∃ marker, Reached E 1000 1000000000 5 (askedMemory E marker) ∧
    StateInv E 1000 (asked E marker) := by
  obtain ⟨_, hregister, hinv₁⟩ := call_of_handed E (stateInv_recovered E 3) (Or.inl rfl)
    (registers E 3) trivial trivial
  obtain ⟨_, hprovision, hinv₂⟩ := call_of_handed E hinv₁ (Or.inr rfl) (provisions E 3)
    trivial trivial
  have hsteps : Returns ⟨E, 1000, 1000000000, 2⟩ true [.gate] opened
      (otherSteps [.provider (.registerImage (image E) (.ok ())),
        .provider (.provisionOperation draft verifier true true)]) () (provisionedMemory E) := by
    refine returns_bind (returns_otherOperation env rfl rfl hregister) ?_
    exact returns_bind (returns_otherOperation env rfl rfl hprovision) (returns_pure ())
  have hprovisioned : Reached E 1000 1000000000 3 (provisionedMemory E) :=
    (reached_opened E 1000000000).returns (.other _) rfl rfl (returns_withLock env (by simp) hsteps)
  have hargs : CallerArgs env (atEpoch 3 (provisioned E)) (.pairAgent 1000 pairing 100) :=
    fun _ _ b hb => absurd hb List.not_mem_nil
  have htime : RecordsWhileExecuting (atEpoch 3 (provisioned E)) (.pairAgent 1000 pairing 100) := trivial
  obtain ⟨hpair, hinv₃⟩ := call_commits hinv₂ (imagesUnchanged E _ (Or.inr rfl)) hargs htime (pairs E h)
  have hpairing : Returns ⟨E, 1000, 1000000000, 3⟩ true [] (provisionedMemory E)
      (Application.pairAgent 1000 1000 pairing) () (pairedMemory E) :=
    returns_pairAgent (T := ⟨E, 1000, 1000000000, 3⟩) (m := provisionedMemory E) env rfl rfl hpair
  have hpaired : Reached E 1000 1000000000 4 (pairedMemory E) :=
    hprovisioned.returns (.pairAgent 1000 pairing) rfl rfl hpairing
  obtain ⟨marker, heval⟩ := asks E h
  have hargs' : CallerArgs env (paired E) (.createSigned (owner E) (submission E) 100 101 true) :=
    ⟨by decide, fun _ _ r hr => absurd hr List.not_mem_nil⟩
  have htime' : RecordsWhileExecuting (paired E)
      (.createSigned (owner E) (submission E) 100 101 true) := trivial
  obtain ⟨hcreate, hinv₄⟩ := call_commits hinv₃ (imagesUnchanged E _ (Or.inr rfl)) hargs' htime' heval
  have hread : Store.readState E 1000 env.disk ⟨paired E, false⟩ = .ok (paired E) := by
    have hunchanged := imagesUnchanged E (paired E) (Or.inr rfl)
    simp [Store.readState, show env.disk = disk from rfl, hinv₃.tryFrom_wire disk hunchanged,
      hinv₃.validateForOwner disk hunchanged]
  have hsubmits : Submits ⟨E, 1000, 1000000000, 4⟩ env (pairedMemory E) 2000 [2000] (submission E)
      (owner E) 0 100 1000000000 101 ⟨asked E marker, false⟩ (review E) :=
    { closing := rfl
      clean := rfl
      deadline := rfl
      clock := show 0 < 100 by decide
      epoch := rfl
      settled := call_reads E hinv₃ rfl (expires_nothing E _ _ _ fun r hr => absurd hr List.not_mem_nil)
      reads := ⟨paired E, hread, authenticates E h⟩
      token := by simp [lookupKey, pairedMemory, owner, AgentOwner.fromBinding, agent]
      live := rfl
      lifetime := show durationAdd 0 1000000000 = some 1000000000 by decide
      ahead := show 0 < 1000000000 by decide
      wall := show checkedAdd 100 (1000000000 / 1000000000) = some 101 by decide
      creates := hcreate }
  have hsettled : Store.call E 1000 ⟨asked E marker, false⟩ (.expireDirect 0 (launching (admitting
      (retaining (pairedMemory E)) ⟨asked E marker, false⟩ ((submission E).bindingId,
        (submission E).nonce)) requestId (newRandom random) 1000000000).authority.requestDeadlines) env
      .committed false = (⟨asked E marker, false⟩, .ok ()) := by
    refine call_reads E hinv₄ rfl (expires_nothing E _ _ _ fun r hr => ?_)
    rw [show (asked E marker).requests = [request E marker] from rfl, List.mem_singleton] at hr
    subst hr
    simp [expires, request, launching, AuthorityUpdate.apply]
  refine ⟨marker, hpaired.ends (.submitSigned 2000 [2000] (submission E))
    (Goes.bind (returns_submitSigned env hsubmits hsettled) ?_), hinv₄⟩
  exact fun log => ⟨[good env], [(4, .answered (submission E).bindingId (submission E).nonce)], _,
    fun x hx => ⟨by rw [List.mem_singleton.mp hx], fun h => absurd h (by decide)⟩, rfl,
    .act _ _ _ _ _ _ _ _ () rfl (.refl _ _)⟩

end Sample

/-- A call whose message was admitted before hands no state to the store. -/
def ReplayHandsNothing (before : List (ℕ × Mark)) : ℕ × Mark → Prop
  | (t, .operated _ handed _) => handed = true → ∀ call, (t, Mark.began call true) ∉ before
  | _ => True

/-- A replay is rejected, but where its session is over it first locks the provider: the state
changes.
SRCLINE: application.rs:660-760 -/
theorem replay_locks :
    ¬ ∀ (E : Externals) (ownerUid : UInt32) (requestLifetime : ℕ)
      (events : List (SystemEvent Input ℕ Restart Call)),
      Each ReplayHandsNothing (runSystem E ownerUid requestLifetime events).mem.log := by
  intro hclaim
  obtain ⟨E, haccepting⟩ : ∃ E, Sample.Accepting E :=
    ⟨{ Sample.externals with verifyingKey := fun _ => true, verifyStrict := fun _ _ _ => true },
      fun _ => rfl, fun _ _ _ => rfl⟩
  obtain ⟨marker, hreached, hinv⟩ := Sample.reached_asked E haccepting
  obtain ⟨events, log, hmem, hlog⟩ := hreached.passes 100
  obtain ⟨m, hm⟩ : ∃ m : Shared, m = { Sample.askedMemory E marker with clock := 100 } := ⟨_, rfl⟩
  have hmem' : (runSystem E 1000 1000000000 events).mem = held 5 [] log m := by
    rw [hmem, hm, held_nil 0 5]
    rfl
  -- thread 5 sends the message again, after the session ended
  have hcomes : Comes ⟨E, 1000, 1000000000, 5⟩ true [] m
      (submitSigned E 1000 1000000000 2000 [2000] (Sample.submission E)) (.provider .lock) [.gate]
      (revoking m) :=
    comes_submitSigned (T := ⟨E, 1000, 1000000000, 5⟩) Sample.env
      (by rw [hm]; exact show 2 + 1 < u64Size by decide) (by rw [hm]; rfl)
      (show m.authority.deadline = some 100 by rw [hm]; rfl) (by rw [hm])
  have hseen : (Call.submitSigned 2000 [2000] (Sample.submission E)).message.any
      (m.admitted.contains ·) = true := by
    rw [hm]
    show List.contains ([] ++ [_]) _ = true
    simp
  obtain ⟨events', new, q, -, ⟨next, rfl⟩, hrun⟩ :=
    run_goes (.submitSigned 2000 [2000] (Sample.submission E)) hmem' hlog (Goes.first hcomes)
  rw [hseen] at hrun
  have hlast := congrArg Shared.log (run_performed 0 (good Sample.env)
    ((runSystem_append events events').trans hrun) rfl)
  have hstore : (revoking m).authority.store = ⟨Sample.asked E marker, false⟩ := by
    rw [hm]
    rfl
  have hhands : (Event.handsOver E 1000 (revoking m).authority.store
      (.op .lock Sample.env .committed)).isSome = true := by
    obtain ⟨s', heval⟩ := Sample.locks_asked E marker
    have hunchanged := Sample.imagesUnchanged E (Sample.asked E marker) (Or.inr rfl)
    have hread : Store.readState E 1000 Sample.env.disk ⟨Sample.asked E marker, false⟩ =
        .ok (Sample.asked E marker) := by
      simp [Store.readState, show Sample.env.disk = Sample.disk from rfl,
        hinv.tryFrom_wire Sample.disk hunchanged, hinv.validateForOwner Sample.disk hunchanged]
    rw [hstore]
    simp [Event.handsOver, Event.reads, Event.opened, Event.env, hread, Event.handed, handed_eq_eval,
      heval, handedState]
  refine hclaim E 1000 1000000000 _ _ _ [] hlast ?_ (.submitSigned 2000 [2000] (Sample.submission E))
    (List.mem_append_right _ List.mem_cons_self)
  exact hhands

end VaultAccess.Analysis
