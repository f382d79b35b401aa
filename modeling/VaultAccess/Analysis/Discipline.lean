import VaultAccess.Library.Concurrency
import VaultAccess.Analysis.Calls
import VaultAccess.Model.Application

/-!
# What the application's threads keep to

The invariant of the shared memory and its history, what a thread may rely on while it
holds mutexes, and where an action may be performed: who publishes a revocation holds one
of the two gates, who hands secrets over holds both and has just looked.
-/

set_option autoImplicit false

namespace VaultAccess.Analysis

open VaultAccess.Library VaultAccess.Model

/-! ## Histories -/

/-- No session was opened. -/
def NoAuth (log : List (ℕ × Mark)) : Prop := ∀ u, (u, Mark.authenticated) ∉ log

/-- A call of the thread began after a revocation was published, and no session was opened since. -/
def Late (t : ℕ) (log : List (ℕ × Mark)) : Prop :=
  ∃ before u epoch after, log = before ++ (u, Mark.published epoch) :: after ∧ NoAuth after ∧
    ∃ call seen, (t, Mark.began call seen) ∈ after

/-- `run_execution` got the gate while the session was admitted, with the current epoch, and that
epoch is not the session's. -/
def inWindow : Mark → Bool
  | .entered captured current session admitted =>
    admitted && captured = current && captured ≠ session
  | _ => false

/-- No call got the gate in that window. -/
def NoWindow (log : List (ℕ × Mark)) : Prop := ∀ x ∈ log, inWindow x.2 = false

/-- The thread uses an approval only if it did not begin late. -/
def InTime (t : ℕ) (log : List (ℕ × Mark)) : Prop := NoWindow log → ¬ Late t log

/-- The thread registered the execution, no revocation that covers it was published, and the
thread's last act was to read the clock, below the deadline, while it held both gates. -/
structure Uncovered (log : List (ℕ × Mark)) (t : ℕ) (e : ApplicationExecution) : Prop where
  cancel : ∀ u, (u, Mark.set e.cancel) ∉ log
  token : ∀ u cell, e.agentToken = some cell → (u, Mark.set cell) ∉ log
  closing : ∀ u, (u, Mark.closed) ∉ log
  epoch : ∀ u epoch, (u, Mark.published epoch) ∈ log → epoch ≤ e.epoch
  deadline : ∃ before now after, log = before ++ (t, Mark.read now true) :: after ∧
    (∀ x ∈ after, x.1 ≠ t) ∧ now < e.deadline
  registered :
    (t, Mark.registered e.binding.requestId e.cancel e.agentToken (some e.deadline)) ∈ log

/-- What the operations of a call on a message that was admitted before do. -/
def ReplayOk (log : List (ℕ × Mark)) (t : ℕ) (op : Op) (handed ok : Bool) : Prop :=
  ∀ call, (t, Mark.began call true) ∈ log →
    (handed = true → op.housekeeping = true) ∧ (op.message ≠ none → ok = false)

/-- The operation is a claim. -/
def isClaim : Op → Bool
  | .claimExecution .. => true
  | _ => false

/-- What a mark says about the history before it. -/
def MarkOk (log : List (ℕ × Mark)) : ℕ × Mark → Prop
  | (t, .handedOver e _) => Uncovered log t e ∧ InTime t log
  | (t, .operated op handed ok) =>
    (isClaim op = true → ok = true → InTime t log) ∧ ReplayOk log t op handed ok
  | (t, .answered bindingId nonce) =>
    ∃ op handed, (t, Mark.operated op handed true) ∈ log ∧ op.message = some (bindingId, nonce)
  | (t, .began _ _) => ∀ x ∈ log, x.1 ≠ t
  | _ => True

/-! ## The memory -/

/-- The thread holds the mutex. -/
def Holds (t : ℕ) (l : Lock) (m : Shared) : Prop := m.holder l = some t

/-- What a cancellation that returned `Ok` stands for: the request can not be claimed any more;
and if its first look found no execution, one that was registered since is cancelled, or the request
expired. -/
structure Cancelled (m : Shared) (t : ℕ) (id : String) (first : Option ℕ) : Prop where
  settled : Claimed id m.authority.store ∨ Expired id m.authority.store
  outcome : ∀ n, first = some n → m.log[n]? = some (t, .looked id false) ∧
    ((∃ (k u cell : ℕ) (token deadline : Option ℕ), n < k ∧
      m.log[k]? = some (u, Mark.registered id cell token deadline) ∧ m.flag cell = true) ∨
      Expired id m.authority.store)

/-- What a mark says about the memory. -/
def Fits (m : Shared) : ℕ × Mark → Prop
  | (_, .set cell) => m.flag cell = true
  | (_, .closed) => m.closing = true
  | (_, .published epoch) =>
    epoch ≤ m.revocationEpoch ∧ m.authority.sessionEpoch < m.revocationEpoch
  | (_, .looked id false) => ∀ e, (id, e) ∉ m.executions
  | (t, .cancelled id first) => Cancelled m t id first
  | _ => True

section Definitions

variable (E : Externals)

/-- **The invariant.** -/
structure Inv (m : Shared) : Prop where
  phase : InPhase m.authority.store.durable
  history : Each MarkOk m.log
  set : ∀ u cell, (u, Mark.set cell) ∈ m.log → m.flag cell = true
  closed : ∀ u, (u, Mark.closed) ∈ m.log → m.closing = true
  published : ∀ u epoch, (u, Mark.published epoch) ∈ m.log → epoch ≤ m.revocationEpoch
  session : m.authority.sessionEpoch ≤ m.revocationEpoch
  revoked : ∀ before u epoch after, m.log = before ++ (u, Mark.published epoch) :: after →
    NoAuth after → m.authority.sessionEpoch < m.revocationEpoch
  executions : ∀ id e, (id, e) ∈ m.executions →
    Claimed id m.authority.store ∧ e.cancel < m.flags.length
  looked : ∀ (n u : ℕ) id e, m.log[n]? = some (u, Mark.looked id false) →
    (id, e) ∈ m.executions →
    ∃ (k v : ℕ) (token deadline : Option ℕ), n < k ∧
      m.log[k]? = some (v, Mark.registered id e.cancel token deadline)
  cancelled : ∀ t id first, (t, Mark.cancelled id first) ∈ m.log → Cancelled m t id first
  tokens : ∀ id cell, lookupKey m.agentTokens id = some cell →
    id ∈ m.authority.store.durable.pairings.map (·.id) ∧ cell < m.flags.length
  createdOnce : (m.created.map (·.1)).Nodup
  created : ∀ x ∈ m.created, x.2 = some ⟨x.1, none, .uncertain⟩ ∧
    ∃ d, m.authority.store.durable.direct x.1 = some d ∧ d.writeReceipt.isSome = true
  admittedOnce : m.admitted.Nodup
  admitted : ∀ pair ∈ m.admitted, Seen (E := E) pair m.authority.store

/-- What every step of a process keeps. -/
structure Grows (m m₁ : Shared) : Prop where
  store : StoreGrows m.authority.store m₁.authority.store
  history : ∃ new, m₁.log = m.log ++ new ∧
    (NoAuth new → m₁.authority.sessionEpoch = m.authority.sessionEpoch)
  closing : m.closing = true → m₁.closing = true
  epoch : m.revocationEpoch ≤ m₁.revocationEpoch
  session : m.authority.sessionEpoch ≤ m₁.authority.sessionEpoch
  clock : m.clock ≤ m₁.clock
  length : m.flags.length ≤ m₁.flags.length
  flag : ∀ cell, m.flag cell = true → m₁.flag cell = true
  token : ∀ id cell, lookupKey m.agentTokens id = some cell →
    lookupKey m₁.agentTokens id = some cell
  admitted : ∀ pair ∈ m.admitted, pair ∈ m₁.admitted

/-- **What a thread relies on.** -/
structure Rely (t : ℕ) (m m₁ : Shared) : Prop extends Grows m m₁ where
  holder : ∀ l, m₁.holder l = some t ↔ m.holder l = some t
  quiet : ∀ new, m₁.log = m.log ++ new → ∀ x ∈ new, x.1 ≠ t
  gate : Holds t .gate m →
    m₁.authority = m.authority ∧ m₁.created = m.created ∧ m₁.agentTokens = m.agentTokens
  both : Holds t .gate m → Holds t .releaseGate m →
    m₁.closing = m.closing ∧ m₁.revocationEpoch = m.revocationEpoch ∧ m₁.flags = m.flags
  table : Holds t .executions m → m₁.executions = m.executions

/-- The thread holds one of the gates. -/
def HoldsGate (t : ℕ) (m : Shared) : Prop := Holds t .gate m ∨ Holds t .releaseGate m

/-- Where the authority may be changed. -/
def GoodUpdate (m : Shared) : AuthorityUpdate → Prop
  | .unlocked _ epoch => m.authority.sessionEpoch ≤ epoch ∧ epoch ≤ m.revocationEpoch
  | _ => True

/-- **Where an action may be performed.** -/
def Good (t : ℕ) (a : Act) (m : Shared) : Prop :=
  match a with
  | .release l => Holds t l m
  | .storeClosing => HoldsGate t m
  | .publishEpoch => HoldsGate t m
  | .setFlag cell => HoldsGate t m ∧ cell < m.flags.length
  | .newFlag => Holds t .gate m
  | .update u => Holds t .gate m ∧ GoodUpdate m u
  | .provider op => Holds t .gate m ∧ (isClaim op = true → InTime t m.log) ∧
    ∀ call, (t, Mark.began call true) ∈ m.log →
      op.housekeeping = true ∨ ∃ pair ∈ m.admitted, op.message = some pair
  | .insertToken id cell => Holds t .gate m ∧ lookupKey m.agentTokens id = none ∧
    id ∈ m.authority.store.durable.pairings.map (·.id) ∧ cell < m.flags.length
  | .register id e => Holds t .executions m ∧ Claimed id m.authority.store ∧
    e.cancel < m.flags.length
  | .removeExecution _ => Holds t .executions m
  | .handOver e => Uncovered m.log t e ∧ InTime t m.log
  | .createSecret id _ => Holds t .gate m ∧ id ∉ m.created.map (·.1) ∧
    m.receipt id = some ⟨id, none, .uncertain⟩
  | .returnsCancelled id first => Cancelled m t id first
  | .returnsAnswer bindingId nonce =>
    ∃ op handed, (t, Mark.operated op handed true) ∈ m.log ∧ op.message = some (bindingId, nonce)
  | _ => True

end Definitions

/-! ## Growing -/

theorem Grows.refl (m : Shared) : Grows m m :=
  ⟨.of_durable rfl, ⟨[], by simp, fun _ => rfl⟩, fun h => h, Nat.le_refl _, Nat.le_refl _,
    Nat.le_refl _, Nat.le_refl _, fun _ h => h, fun _ _ h => h, fun _ h => h⟩

/-- INTERNAL: three memories. -/
theorem Grows.trans {m m₁ m₂ : Shared} (h : Grows m m₁) (h' : Grows m₁ m₂) : Grows m m₂ := by
  refine ⟨h.store.trans h'.store, ?_, fun hc => h'.closing (h.closing hc), h.epoch.trans h'.epoch,
    h.session.trans h'.session, h.clock.trans h'.clock, h.length.trans h'.length,
    fun cell hf => h'.flag cell (h.flag cell hf), fun id cell ht => h'.token id cell (h.token id cell ht),
    fun pair hp => h'.admitted pair (h.admitted pair hp)⟩
  obtain ⟨new, hlog, hsession⟩ := h.history
  obtain ⟨new', hlog', hsession'⟩ := h'.history
  refine ⟨new ++ new', by rw [hlog', hlog, List.append_assoc], fun hno => ?_⟩
  rw [hsession' fun u hu => hno u (List.mem_append_right _ hu),
    hsession fun u hu => hno u (List.mem_append_left _ hu)]

theorem Rely.refl (t : ℕ) (m : Shared) : Rely t m m :=
  ⟨.refl m, fun _ => Iff.rfl, fun new h => by simp at h; simp [h], fun _ => ⟨rfl, rfl, rfl⟩,
    fun _ _ => ⟨rfl, rfl, rfl⟩, fun _ => rfl⟩

/-- INTERNAL: three memories. -/
theorem Rely.trans {t : ℕ} {m m₁ m₂ : Shared} (h : Rely t m m₁) (h' : Rely t m₁ m₂) :
    Rely t m m₂ := by
  have hholds : ∀ l, Holds t l m → Holds t l m₁ := fun l hl => (h.holder l).mpr hl
  refine ⟨h.toGrows.trans h'.toGrows, fun l => (h'.holder l).trans (h.holder l), ?_, ?_, ?_, ?_⟩
  · intro new hlog x hx
    obtain ⟨new₁, hlog₁, -⟩ := h.history
    obtain ⟨new₂, hlog₂, -⟩ := h'.history
    have hnew : new = new₁ ++ new₂ := by
      rw [hlog₂, hlog₁, List.append_assoc] at hlog
      exact (List.append_cancel_left hlog).symm
    rw [hnew] at hx
    rcases List.mem_append.mp hx with hx | hx
    · exact h.quiet new₁ hlog₁ x hx
    · exact h'.quiet new₂ hlog₂ x hx
  · intro hg
    obtain ⟨ha, hc, ht⟩ := h.gate hg
    obtain ⟨ha', hc', ht'⟩ := h'.gate (hholds _ hg)
    exact ⟨ha'.trans ha, hc'.trans hc, ht'.trans ht⟩
  · intro hg hr
    obtain ⟨ha, hc, ht⟩ := h.both hg hr
    obtain ⟨ha', hc', ht'⟩ := h'.both (hholds _ hg) (hholds _ hr)
    exact ⟨ha'.trans ha, hc'.trans hc, ht'.trans ht⟩
  · intro hx
    exact (h'.table (hholds _ hx)).trans (h.table hx)

/-! ## Facts that last -/

theorem Claimed.grows {id : String} {a b : Store} (hgrows : StoreGrows a b) (h : Claimed id a) :
    Claimed id b := by
  obtain ⟨d, hd, hclaimed⟩ := h
  obtain ⟨d', hd', hrecord⟩ := hgrows.direct id d hd
  exact ⟨d', hd', hrecord.claimed hclaimed⟩

/-- INTERNAL: an expiry lasts. -/
theorem Expired.grows {id : String} {a b : Store} (hgrows : StoreGrows a b) (h : Expired id a) :
    Expired id b := by
  obtain ⟨d, hd, hexpired⟩ := h
  obtain ⟨d', hd', hrecord⟩ := hgrows.direct id d hd
  refine ⟨d', hd', ?_⟩
  rw [hrecord.later.terminal (by rw [hexpired]; rfl), hexpired]

theorem Seen.grows {E : Externals} {pair : String × String} {a b : Store} (hgrows : StoreGrows a b)
    (h : Seen (E := E) pair a) : Seen (E := E) pair b := by
  obtain ⟨marker, hmarker, hreplayed⟩ := h
  exact ⟨marker, hmarker, hgrows.replayed marker hreplayed⟩

theorem Grows.getElem {m m₁ : Shared} (h : Grows m m₁) {n : ℕ} {x : ℕ × Mark}
    (hx : m.log[n]? = some x) : m₁.log[n]? = some x := by
  obtain ⟨new, hlog, -⟩ := h.history
  rw [hlog, List.getElem?_append_left (List.getElem?_eq_some_iff.mp hx).1]
  exact hx

theorem Grows.mem {m m₁ : Shared} (h : Grows m m₁) {x : ℕ × Mark} (hx : x ∈ m.log) :
    x ∈ m₁.log := by
  obtain ⟨new, hlog, -⟩ := h.history
  rw [hlog]
  exact List.mem_append_left _ hx

/-- INTERNAL: what a cancellation stands for lasts. -/
theorem Cancelled.grows {m m₁ : Shared} (hgrows : Grows m m₁) {t : ℕ} {id : String}
    {first : Option ℕ} (h : Cancelled m t id first) : Cancelled m₁ t id first := by
  refine ⟨?_, fun n hn => ?_⟩
  · rcases h.settled with hclaimed | hexpired
    · exact Or.inl (hclaimed.grows hgrows.store)
    · exact Or.inr (hexpired.grows hgrows.store)
  · obtain ⟨hlooked, hcase⟩ := h.outcome n hn
    refine ⟨hgrows.getElem hlooked, ?_⟩
    rcases hcase with ⟨k, u, cell, token, deadline, hk, hregistered, hflag⟩ | hexpired
    · exact Or.inl ⟨k, u, cell, token, deadline, hk, hgrows.getElem hregistered, hgrows.flag cell hflag⟩
    · exact Or.inr (hexpired.grows hgrows.store)

/-! ## Steps that only note -/

theorem grows_note (m : Shared) (t : ℕ) (mark : Mark) : Grows m (m.note t mark) :=
  { Grows.refl m with history := ⟨[(t, mark)], rfl, fun _ => rfl⟩ }

/-- INTERNAL: others rely on a note. -/
theorem rely_note (m : Shared) (t u : ℕ) (mark : Mark) (hu : u ≠ t) : Rely u m (m.note t mark) :=
  { Rely.refl u m with
    toGrows := grows_note m t mark
    quiet := fun new h x hx => by
      have hnew : new = [(t, mark)] := (List.append_cancel_left h).symm
      rw [hnew, List.mem_singleton] at hx
      rw [hx]
      exact hu.symm }

section Steps

variable {E : Externals} {ownerUid : UInt32}

/-- INTERNAL: **a note that says the truth keeps the invariant.** -/
theorem Inv.note {m : Shared} (h : Inv E m) {t : ℕ} {mark : Mark} (hmark : MarkOk m.log (t, mark))
    (hfits : Fits m (t, mark)) : Inv E (m.note t mark) := by
  have hold : ∀ x, x ∈ (m.note t mark).log → x ∈ m.log ∨ x = (t, mark) := by
    intro x hx
    simpa [Shared.note] using hx
  refine { h with
    history := h.history.snoc hmark, set := ?_, closed := ?_, published := ?_, revoked := ?_,
    looked := ?_, cancelled := ?_ }
  · intro u cell hx
    rcases hold _ hx with hx | hx
    · exact h.set u cell hx
    · rw [← hx] at hfits
      exact hfits
  · intro u hx
    rcases hold _ hx with hx | hx
    · exact h.closed u hx
    · rw [← hx] at hfits
      exact hfits
  · intro u epoch hx
    rcases hold _ hx with hx | hx
    · exact h.published u epoch hx
    · rw [← hx] at hfits
      exact hfits.1
  · intro before u epoch after heq hno
    -- the publication is the new mark, or it was there before
    rcases split_snoc heq with ⟨-, hx, -⟩ | ⟨rest, rfl, hlog⟩
    · rw [← hx] at hfits
      exact hfits.2
    · exact h.revoked before u epoch rest hlog fun v hv => hno v (List.mem_append_left _ hv)
  · intro n u id e hx he
    have hgrows := grows_note m t mark
    by_cases hn : n < m.log.length
    · have hx' : m.log[n]? = some (u, Mark.looked id false) := by
        rw [← hx]
        exact (List.getElem?_append_left hn).symm
      obtain ⟨k, v, token, deadline, hk, hregistered⟩ := h.looked n u id e hx' he
      exact ⟨k, v, token, deadline, hk, hgrows.getElem hregistered⟩
    · have hlast : (t, mark) = (u, Mark.looked id false) := by
        simp only [Shared.note] at hx
        rw [List.getElem?_append_right (by omega)] at hx
        have := List.mem_of_getElem? hx
        exact (List.mem_singleton.mp this).symm
      rw [hlast] at hfits
      exact absurd he (hfits e)
  · intro u id first hx
    rcases hold _ hx with hx | hx
    · exact (h.cancelled u id first hx).grows (grows_note m t mark)
    · rw [← hx] at hfits
      exact hfits.grows (grows_note m t mark)

/-! ## Steps that change the memory -/

/-- What one step of a thread keeps. -/
structure Keeps (E : Externals) (t : ℕ) (m m₁ : Shared) : Prop where
  inv : Inv E m₁
  grows : Grows m m₁
  rely : ∀ u, u ≠ t → Rely u m m₁

theorem Keeps.trans {t : ℕ} {m m₁ m₂ : Shared} (h : Keeps E t m m₁) (h' : Keeps E t m₁ m₂) :
    Keeps E t m m₂ :=
  ⟨h'.inv, h.grows.trans h'.grows, fun u hu => (h.rely u hu).trans (h'.rely u hu)⟩

theorem keeps_refl {m : Shared} (h : Inv E m) (t : ℕ) : Keeps E t m m :=
  ⟨h, .refl m, fun u _ => .refl u m⟩

theorem keeps_note {m : Shared} (h : Inv E m) {t : ℕ} {mark : Mark}
    (hmark : MarkOk m.log (t, mark)) (hfits : Fits m (t, mark)) : Keeps E t m (m.note t mark) :=
  ⟨h.note hmark hfits, grows_note m t mark, fun u hu => rely_note m t u mark hu⟩

/-- INTERNAL: **a change that keeps the tables keeps the invariant.** -/
theorem Inv.change {m m₁ : Shared} (h : Inv E m) (hlog : m₁.log = m.log) (hgrows : Grows m m₁)
    (hphase : InPhase m₁.authority.store.durable) (hexecutions : m₁.executions = m.executions)
    (htokens : m₁.agentTokens = m.agentTokens)
    (hcreated : m₁.created = m.created) (hadmitted : m₁.admitted = m.admitted) : Inv E m₁ := by
  have hsession : m₁.authority.sessionEpoch = m.authority.sessionEpoch := by
    obtain ⟨new, hnew, hsame⟩ := hgrows.history
    have hnil : new = [] := by
      rw [hlog] at hnew
      exact List.append_cancel_left (hnew.symm.trans (List.append_nil _).symm)
    exact hsame (by rw [hnil]; exact fun _ => List.not_mem_nil)
  refine ⟨hphase, by rw [hlog]; exact h.history, ?_, ?_, ?_, ?_, ?_, ?_, ?_, ?_, ?_, ?_, ?_, ?_, ?_⟩
  · rw [hlog]
    exact fun u cell hx => hgrows.flag cell (h.set u cell hx)
  · rw [hlog]
    exact fun u hx => hgrows.closing (h.closed u hx)
  · rw [hlog]
    exact fun u epoch hx => (h.published u epoch hx).trans hgrows.epoch
  · rw [hsession]
    exact h.session.trans hgrows.epoch
  · rw [hlog, hsession]
    exact fun before u epoch after heq hno =>
      (h.revoked before u epoch after heq hno).trans_le hgrows.epoch
  · rw [hexecutions]
    exact fun id e he => ⟨(h.executions id e he).1.grows hgrows.store,
      (h.executions id e he).2.trans_le hgrows.length⟩
  · rw [hlog, hexecutions]
    exact h.looked
  · rw [hlog]
    exact fun u id first hx => (h.cancelled u id first hx).grows hgrows
  · rw [htokens]
    exact fun id cell ht => ⟨hgrows.store.pairings id (h.tokens id cell ht).1,
      (h.tokens id cell ht).2.trans_le hgrows.length⟩
  · rw [hcreated]
    exact h.createdOnce
  · rw [hcreated]
    intro x hx
    obtain ⟨hreceipt, d, hd, hsome⟩ := h.created x hx
    obtain ⟨d', hd', hrecord⟩ := hgrows.store.direct x.1 d hd
    obtain ⟨receipt, hr⟩ := Option.isSome_iff_exists.mp hsome
    obtain ⟨receipt', hr', -⟩ := hrecord.receipt.receipt receipt hr
    exact ⟨hreceipt, d', hd', by rw [hr']; rfl⟩
  · rw [hadmitted]
    exact h.admittedOnce
  · rw [hadmitted]
    exact fun pair hp => (h.admitted pair hp).grows hgrows.store

/-- INTERNAL: **what others rely on, when the thread holds what it changes.** -/
theorem rely_change {t u : ℕ} {m m₁ : Shared} (hu : u ≠ t) (hgrows : Grows m m₁)
    (hlog : m₁.log = m.log) (hholder : m₁.holder = m.holder)
    (hgate : (m₁.authority = m.authority ∧ m₁.created = m.created ∧
      m₁.agentTokens = m.agentTokens) ∨ Holds t .gate m)
    (hboth : (m₁.closing = m.closing ∧ m₁.revocationEpoch = m.revocationEpoch ∧
      m₁.flags = m.flags) ∨ HoldsGate t m)
    (htable : m₁.executions = m.executions ∨ Holds t .executions m) : Rely u m m₁ := by
  have hother : ∀ l, Holds u l m → ¬ Holds t l m := by
    intro l hul htl
    exact hu (Option.some.inj (hul.symm.trans htl))
  refine ⟨hgrows, fun l => by rw [hholder], ?_, ?_, ?_, ?_⟩
  · intro new hnew x hx
    rw [hlog] at hnew
    rw [List.append_cancel_left (hnew.symm.trans (List.append_nil _).symm)] at hx
    exact absurd hx List.not_mem_nil
  · exact fun hg => hgate.resolve_right (hother _ hg)
  · intro hg hr
    refine hboth.resolve_right ?_
    rintro (ht | ht)
    · exact hother _ hg ht
    · exact hother _ hr ht
  · exact fun hx => htable.resolve_right (hother _ hx)

/-- INTERNAL: a thread takes or gives up mutexes. -/
theorem keeps_holder {m : Shared} (h : Inv E m) {t : ℕ} (holder : Lock → Option ℕ)
    (hholder : ∀ u, u ≠ t → ∀ l, holder l = some u ↔ m.holder l = some u) :
    Keeps E t m { m with holder := holder } := by
  have hgrows : Grows m { m with holder := holder } := { Grows.refl m with }
  refine ⟨h.change rfl hgrows h.phase rfl rfl rfl rfl, hgrows, fun u hu => ?_⟩
  exact { Rely.refl u m with toGrows := hgrows, holder := hholder u hu }

/-- INTERNAL: another thread does not see that a free mutex is taken. -/
theorem holder_take {m : Shared} {t : ℕ} {l : Lock} (hfree : m.holder l = none) (u : ℕ)
    (hu : u ≠ t) (l' : Lock) :
    Function.update m.holder l (some t) l' = some u ↔ m.holder l' = some u := by
  by_cases hl : l' = l
  · subst hl
    simp [hfree, hu.symm]
  · rw [Function.update_of_ne hl]

/-- INTERNAL: another thread does not see that a mutex is given up. -/
theorem holder_drop {m : Shared} {t : ℕ} {l : Lock} (hheld : m.holder l = some t) (u : ℕ)
    (hu : u ≠ t) (l' : Lock) :
    Function.update m.holder l none l' = some u ↔ m.holder l' = some u := by
  by_cases hl : l' = l
  · subst hl
    simp [hheld, hu.symm]
  · rw [Function.update_of_ne hl]

end Steps

end VaultAccess.Analysis
