import VaultAccess.Analysis.Discipline

/-!
# Every action keeps to the discipline

One theorem for each kind of action, and the discipline of the application's machine.
-/

set_option autoImplicit false

namespace VaultAccess.Analysis

open VaultAccess.Library VaultAccess.Model

section Actions

variable {E : Externals} {ownerUid : UInt32} {t : ℕ} {m : Shared}

/-! ## Tables -/

/-- INTERNAL: looking up after a removal. -/
theorem lookupKey_removeKey {α : Type} (table : List (String × α)) (id id' : String) :
    lookupKey (removeKey table id) id' = if id' = id then none else lookupKey table id' := by
  unfold lookupKey removeKey
  induction table with
  | nil => simp
  | cons x table ih =>
    rw [List.filter_cons]
    by_cases hx : x.1 = id
    · simp only [hx, ne_eq, not_true_eq_false, decide_false, Bool.false_eq_true, if_false, ih]
      by_cases hid : id' = id
      · simp [hid]
      · have hne : ¬ id = id' := fun h => hid h.symm
        simp [hid, hx, hne]
    · simp only [hx, ne_eq, not_false_eq_true, decide_true, if_true, List.find?_cons]
      by_cases hid : id' = id
      · simp only [hid, hx, decide_false, if_true] at ih ⊢
        exact ih
      · simp only [hid, if_false] at ih ⊢
        split <;> simp_all

/-- INTERNAL: looking up what was inserted. -/
theorem lookupKey_insertKey {α : Type} (table : List (String × α)) (id id' : String) (value : α) :
    lookupKey (insertKey table id value) id' =
      if id' = id then some value else lookupKey table id' := by
  have hremove := lookupKey_removeKey table id id'
  unfold lookupKey removeKey at hremove
  unfold lookupKey insertKey
  rw [List.find?_append]
  by_cases hid : id' = id
  · simp only [hid, if_true, Option.map_eq_none_iff] at hremove ⊢
    rw [hremove]
    simp
  · have hne : ¬ id = id' := fun h => hid h.symm
    simp only [hid, if_false] at hremove ⊢
    rw [← hremove]
    simp [hne, -List.find?_filter]

/-- INTERNAL: what is looked up is in the table. -/
theorem mem_of_lookupKey {α : Type} {table : List (String × α)} {id : String} {value : α}
    (h : lookupKey table id = some value) : (id, value) ∈ table := by
  unfold lookupKey at h
  rw [Option.map_eq_some_iff] at h
  obtain ⟨x, hfind, hvalue⟩ := h
  have hid := List.find?_some hfind
  simp only [decide_eq_true_eq] at hid
  rw [← hid, ← hvalue]
  exact List.mem_of_find?_eq_some hfind

theorem not_mem_of_lookupKey {α : Type} {table : List (String × α)} {id : String}
    (h : lookupKey table id = none) (value : α) : (id, value) ∉ table := by
  unfold lookupKey at h
  rw [Option.map_eq_none_iff, List.find?_eq_none] at h
  exact fun hmem => h _ hmem (by simp)

/-! ## Atomics -/

/-- INTERNAL: a flag is set. -/
theorem flag_set (m : Shared) (cell cell' : ℕ) (hlt : cell < m.flags.length) :
    ({ m with flags := m.flags.set cell true } : Shared).flag cell' =
      (decide (cell' = cell) || m.flag cell') := by
  unfold Shared.flag
  by_cases hcell : cell' = cell
  · subst hcell
    simp [List.getD_eq_getElem?_getD, List.getElem?_set_self hlt]
  · simp [List.getD_eq_getElem?_getD, List.getElem?_set_ne (Ne.symm hcell), hcell]

/-- INTERNAL: admission is closed. -/
theorem keeps_storeClosing (h : Inv E m) (hgood : HoldsGate t m) :
    Keeps E t m ({ m with closing := true }.note t .closed) := by
  have hgrows : Grows m { m with closing := true } := { Grows.refl m with closing := fun _ => rfl }
  have hinv : Inv E { m with closing := true } := h.change rfl hgrows h.phase rfl rfl rfl rfl
  refine Keeps.trans ⟨hinv, hgrows, fun u hu => ?_⟩ (keeps_note hinv trivial rfl)
  exact rely_change hu hgrows rfl rfl (Or.inl ⟨rfl, rfl, rfl⟩) (Or.inr hgood) (Or.inl rfl)

/-- INTERNAL: a revocation is published. -/
theorem keeps_publishEpoch (h : Inv E m) (hgood : HoldsGate t m) :
    Keeps E t m ({ m with revocationEpoch := m.revocationEpoch + 1 }.note t
      (.published (m.revocationEpoch + 1))) := by
  have hgrows : Grows m { m with revocationEpoch := m.revocationEpoch + 1 } :=
    { Grows.refl m with epoch := Nat.le_succ _ }
  have hinv : Inv E { m with revocationEpoch := m.revocationEpoch + 1 } :=
    h.change rfl hgrows h.phase rfl rfl rfl rfl
  refine Keeps.trans ⟨hinv, hgrows, fun u hu => ?_⟩
    (keeps_note hinv trivial ⟨Nat.le_refl _, Nat.lt_succ_of_le h.session⟩)
  exact rely_change hu hgrows rfl rfl (Or.inl ⟨rfl, rfl, rfl⟩) (Or.inr hgood) (Or.inl rfl)

/-- INTERNAL: a flag is set, by who holds a gate. -/
theorem keeps_setFlag (h : Inv E m) (cell : ℕ) (hgood : HoldsGate t m)
    (hcell : cell < m.flags.length) :
    Keeps E t m ({ m with flags := m.flags.set cell true }.note t (.set cell)) := by
  have hgrows : Grows m { m with flags := m.flags.set cell true } :=
    { Grows.refl m with
      length := by simp
      flag := fun cell' hf => by rw [flag_set m cell cell' hcell, hf, Bool.or_true] }
  have hinv : Inv E { m with flags := m.flags.set cell true } :=
    h.change rfl hgrows h.phase rfl rfl rfl rfl
  refine Keeps.trans ⟨hinv, hgrows, fun u hu => ?_⟩ (keeps_note hinv trivial ?_)
  · exact rely_change hu hgrows rfl rfl (Or.inl ⟨rfl, rfl, rfl⟩) (Or.inr hgood) (Or.inl rfl)
  · have hset := flag_set m cell cell hcell
    simp only [decide_true, Bool.true_or] at hset
    exact hset

/-- INTERNAL: a new flag. -/
theorem keeps_newFlag (h : Inv E m) (hgood : Holds t .gate m) :
    Keeps E t m { m with flags := m.flags ++ [false] } := by
  have hgrows : Grows m { m with flags := m.flags ++ [false] } :=
    { Grows.refl m with
      length := by simp
      flag := fun cell hf => by
        have hlt : cell < m.flags.length := by
          by_contra hge
          have hnone : m.flags[cell]? = none := List.getElem?_eq_none (by omega)
          simp [Shared.flag, List.getD_eq_getElem?_getD, hnone] at hf
        simpa [Shared.flag, List.getD_eq_getElem?_getD, List.getElem?_append_left hlt] using hf }
  refine ⟨h.change rfl hgrows h.phase rfl rfl rfl rfl, hgrows, fun u hu => ?_⟩
  exact rely_change hu hgrows rfl rfl (Or.inl ⟨rfl, rfl, rfl⟩) (Or.inr (Or.inl hgood)) (Or.inl rfl)

theorem keeps_storeUncertain (h : Inv E m) : Keeps E t m { m with cleanupUncertain := true } := by
  have hgrows : Grows m { m with cleanupUncertain := true } := { Grows.refl m with }
  refine ⟨h.change rfl hgrows h.phase rfl rfl rfl rfl, hgrows, fun u hu => ?_⟩
  exact rely_change hu hgrows rfl rfl (Or.inl ⟨rfl, rfl, rfl⟩) (Or.inl ⟨rfl, rfl, rfl⟩) (Or.inl rfl)

/-! ## The authority -/

/-- INTERNAL: the authority changes, but not its session. -/
theorem keeps_authority (h : Inv E m) (hgood : Holds t .gate m) (a : Authority)
    (hstore : StoreGrows m.authority.store a.store) (hphase : InPhase a.store.durable)
    (hsession : a.sessionEpoch = m.authority.sessionEpoch) :
    Keeps E t m { m with authority := a } := by
  have hgrows : Grows m { m with authority := a } :=
    { Grows.refl m with
      store := hstore
      history := ⟨[], (List.append_nil _).symm, fun _ => hsession⟩
      session := hsession.symm.le }
  refine ⟨h.change rfl hgrows hphase rfl rfl rfl rfl, hgrows, fun u hu => ?_⟩
  exact rely_change hu hgrows rfl rfl (Or.inr hgood) (Or.inl ⟨rfl, rfl, rfl⟩) (Or.inl rfl)

/-- INTERNAL: a session is opened. -/
theorem keeps_unlocked (h : Inv E m) (hgood : Holds t .gate m) (deadline epoch : ℕ)
    (hlow : m.authority.sessionEpoch ≤ epoch) (hhigh : epoch ≤ m.revocationEpoch) :
    Keeps E t m ({ m with
      authority := (AuthorityUpdate.unlocked deadline epoch).apply m.authority }.note t
        .authenticated) := by
  have hgrows : Grows m ({ m with
      authority := (AuthorityUpdate.unlocked deadline epoch).apply m.authority }.note t
        .authenticated) :=
    { Grows.refl m with
      store := .of_durable rfl
      history := ⟨[(t, .authenticated)], rfl, fun hno => absurd (List.mem_singleton.mpr rfl) (hno t)⟩
      session := hlow }
  have hold := @Inv.note E m h t .authenticated trivial trivial
  refine ⟨?_, hgrows, fun u hu => ?_⟩
  · refine { hold with session := hhigh, revoked := ?_, cancelled := ?_ }
    · intro before u e after heq hno
      rcases split_snoc heq with ⟨-, hx, -⟩ | ⟨rest, rfl, -⟩
      · simp at hx
      · exact absurd (List.mem_append_right _ (List.mem_singleton.mpr rfl)) (hno t)
    · intro u id first hx
      refine (h.cancelled u id first ?_).grows hgrows
      simpa [Shared.note] using hx
  · refine { Rely.refl u m with
      toGrows := hgrows, quiet := ?_
      gate := fun hg => absurd (hg.symm.trans hgood) (by simp [hu]) }
    exact (rely_note m t u .authenticated hu).quiet

/-! ## The provider -/

/-- INTERNAL: messages were admitted. -/
theorem keeps_admitted (h : Inv E m) (new : List (String × String))
    (honce : (m.admitted ++ new).Nodup)
    (hseen : ∀ pair ∈ new, Seen (E := E) pair m.authority.store) :
    Keeps E t m { m with admitted := m.admitted ++ new } := by
  have hgrows : Grows m { m with admitted := m.admitted ++ new } :=
    { Grows.refl m with admitted := fun pair hp => List.mem_append_left _ hp }
  refine ⟨?_, hgrows, fun u hu => ?_⟩
  · refine { h with
      cancelled := fun u id first hx => (h.cancelled u id first hx).grows hgrows
      admittedOnce := honce, admitted := ?_ }
    intro pair hp
    rcases List.mem_append.mp hp with hp | hp
    · exact h.admitted pair hp
    · exact hseen pair hp
  · exact rely_change hu hgrows rfl rfl (Or.inl ⟨rfl, rfl, rfl⟩) (Or.inl ⟨rfl, rfl, rfl⟩)
      (Or.inl rfl)

/-- INTERNAL: what an operation does with a message that was admitted before. -/
theorem replayOk_call (h : Inv E m) (op : Op) (env : Env) (w : WriteOutcome) (unreadable : Bool)
    (hgood : ∀ call, (t, Mark.began call true) ∈ m.log →
      op.housekeeping = true ∨ ∃ pair ∈ m.admitted, op.message = some pair) :
    ReplayOk m.log t op (!unreadable &&
        (Event.handsOver E ownerUid m.authority.store (.op op env w)).isSome)
      (m.authority.store.call E ownerUid op env w unreadable).2.isOk := by
  intro call hcall
  rcases hgood call hcall with hkeeping | ⟨pair, hpair, hmessage⟩
  · refine ⟨fun _ => hkeeping, fun hmessage => ?_⟩
    cases op <;> simp [Op.housekeeping, Op.message] at hkeeping hmessage
  · have hseen := h.admitted pair hpair
    refine ⟨fun hhanded => ?_, fun _ => ?_⟩
    · rw [handsOver_seen m.authority.store op env w pair hmessage hseen] at hhanded
      simp at hhanded
    · cases hresult : (m.authority.store.call E ownerUid op env w unreadable).2 with
      | error e => rfl
      | ok value =>
        exact absurd hseen (message_call m.authority.store op env w unreadable value pair hmessage
          hresult).1

/-- INTERNAL: **a provider operation.** -/
theorem keeps_provider (h : Inv E m) (op : Op) (input : Input)
    (hgood : Good t (.provider op) m) :
    Keeps E t m (performProvider E ownerUid t op input m).2 := by
  obtain ⟨hgate, hclaim, hreplay⟩ := hgood
  have hstore := keeps_authority h hgate
    { m.authority with store :=
      (m.authority.store.call E ownerUid op input.env input.outcome input.unreadable).1 }
    (call_grows m.authority.store op input.env input.outcome input.unreadable h.phase)
    (call_inPhase m.authority.store op input.env input.outcome input.unreadable h.phase) rfl
  have hnew : ∀ pair ∈ (if (m.authority.store.call E ownerUid op input.env input.outcome
      input.unreadable).2.isOk then op.message.toList else []),
      ¬ Seen (E := E) pair m.authority.store ∧
      Seen (E := E) pair (m.authority.store.call E ownerUid op input.env input.outcome
        input.unreadable).1 := by
    intro pair hpair
    cases hresult : (m.authority.store.call E ownerUid op input.env input.outcome
        input.unreadable).2 with
    | error e => simp [hresult, Except.isOk, Except.toBool] at hpair
    | ok value =>
      simp only [hresult, Except.isOk, Except.toBool, if_true, Option.mem_toList] at hpair
      exact message_call m.authority.store op input.env input.outcome input.unreadable value pair
        hpair hresult
  have hadmitted := keeps_admitted (t := t) hstore.inv _ (by
    rw [List.nodup_append]
    refine ⟨h.admittedOnce, ?_, ?_⟩
    · split_ifs
      · cases op.message <;> simp
      · exact List.nodup_nil
    · intro pair hpair pair' hpair' heq
      rw [heq] at hpair
      exact (hnew pair' hpair').1 (h.admitted pair' hpair)) fun pair hpair => (hnew pair hpair).2
  refine (hstore.trans hadmitted).trans (keeps_note hadmitted.inv ⟨?_, ?_⟩ trivial)
  · exact fun hc _ => hclaim hc
  · exact replayOk_call h op input.env input.outcome input.unreadable hreplay

/-! ## The tables -/

/-- INTERNAL: a new agent gets its token. -/
theorem keeps_insertToken (h : Inv E m) (id : String) (cell : ℕ)
    (hgood : Good t (.insertToken id cell) m) :
    Keeps E t m { m with agentTokens := insertKey m.agentTokens id cell } := by
  obtain ⟨hgate, hnone, hid, hcell⟩ := hgood
  have hgrows : Grows m { m with agentTokens := insertKey m.agentTokens id cell } :=
    { Grows.refl m with
      token := fun id' cell' ht => by
        have hne : id' ≠ id := by
          rintro rfl
          rw [hnone] at ht
          simp at ht
        simp only [lookupKey_insertKey, if_neg hne]
        exact ht }
  refine ⟨?_, hgrows, fun u hu => ?_⟩
  · refine { h with
      cancelled := fun u id first hx => (h.cancelled u id first hx).grows hgrows, tokens := ?_ }
    intro id' cell' ht
    simp only [lookupKey_insertKey] at ht
    split_ifs at ht with heq
    · rw [heq, ← Option.some.inj ht]
      exact ⟨hid, hcell⟩
    · exact h.tokens id' cell' ht
  · exact rely_change hu hgrows rfl rfl (Or.inr hgate) (Or.inl ⟨rfl, rfl, rfl⟩) (Or.inl rfl)

/-- INTERNAL: the table of executions changes; every new entry is claimed and noted. -/
theorem keeps_executions (h : Inv E m) (hgood : Holds t .executions m)
    (executions : List (String × ActiveExecution))
    (hnew : ∀ id e, (id, e) ∈ executions → (id, e) ∈ m.executions ∨
      (Claimed id m.authority.store ∧ e.cancel < m.flags.length ∧
        ∃ token deadline,
          m.log[m.log.length - 1]? = some (t, Mark.registered id e.cancel token deadline))) :
    Keeps E t m { m with executions := executions } := by
  have hgrows : Grows m { m with executions := executions } := { Grows.refl m with }
  refine ⟨?_, hgrows, fun u hu => ?_⟩
  · refine { h with
      cancelled := fun u id first hx => (h.cancelled u id first hx).grows hgrows
      executions := ?_, looked := ?_ }
    · intro id e he
      rcases hnew id e he with he | ⟨hclaimed, hcancel, -⟩
      · exact h.executions id e he
      · exact ⟨hclaimed, hcancel⟩
    · intro n u id e hx he
      rcases hnew id e he with he | ⟨-, -, hlast⟩
      · exact h.looked n u id e hx he
      · obtain ⟨token, deadline, hlast⟩ := hlast
        refine ⟨m.log.length - 1, t, token, deadline, ?_, hlast⟩
        have hn : n < m.log.length := (List.getElem?_eq_some_iff.mp hx).1
        by_contra hge
        have hsame : n = m.log.length - 1 := by omega
        rw [hsame] at hx
        exact absurd (hx.symm.trans hlast) (by simp)
  · exact rely_change hu hgrows rfl rfl (Or.inl ⟨rfl, rfl, rfl⟩) (Or.inl ⟨rfl, rfl, rfl⟩)
      (Or.inr hgood)

/-- INTERNAL: an execution is registered. -/
theorem keeps_register (h : Inv E m) (id : String) (e : ActiveExecution)
    (hgood : Good t (.register id e) m) :
    Keeps E t m ({ m with executions := insertKey m.executions id e }.note t
      (.registered id e.cancel (m.token id) (m.deadline id))) := by
  obtain ⟨hlock, hclaimed, hcancel⟩ := hgood
  have hnote := @keeps_note E m h t
    (.registered id e.cancel (m.token id) (m.deadline id)) trivial trivial
  refine hnote.trans (keeps_executions hnote.inv hlock (insertKey m.executions id e) ?_)
  intro id' e' he
  rcases List.mem_append.mp he with he | he
  · exact Or.inl (List.mem_filter.mp he).1
  · obtain ⟨rfl, rfl⟩ := Prod.mk.inj (List.mem_singleton.mp he)
    exact Or.inr ⟨hclaimed, hcancel, m.token id', m.deadline id', by simp [Shared.note]⟩

theorem keeps_removeExecution (h : Inv E m) (id : String) (hgood : Holds t .executions m) :
    Keeps E t m { m with executions := removeKey m.executions id } := by
  exact keeps_executions h hgood _ fun id' e' he => Or.inl (List.mem_filter.mp he).1

/-- INTERNAL: the backend is asked to create a secret. -/
theorem keeps_createSecret (h : Inv E m) (id : String) (effect : CreateEffect)
    (hgood : Good t (.createSecret id effect) m) :
    Keeps E t m { m with created := m.created ++ [(id, m.receipt id)] } := by
  obtain ⟨hgate, hnew, hreceipt⟩ := hgood
  have hgrows : Grows m { m with created := m.created ++ [(id, m.receipt id)] } :=
    { Grows.refl m with }
  refine ⟨?_, hgrows, fun u hu => ?_⟩
  · refine { h with
      cancelled := fun u id first hx => (h.cancelled u id first hx).grows hgrows
      createdOnce := ?_, created := ?_ }
    · rw [List.map_append, List.nodup_append]
      refine ⟨h.createdOnce, by simp, ?_⟩
      intro x hx y hy heq
      rw [heq] at hx
      rw [List.map_singleton, List.mem_singleton] at hy
      rw [hy] at hx
      exact hnew hx
    · intro x hx
      rcases List.mem_append.mp hx with hx | hx
      · exact h.created x hx
      · rw [List.mem_singleton.mp hx]
        refine ⟨hreceipt, ?_⟩
        unfold Shared.receipt at hreceipt
        rw [Option.bind_eq_some_iff] at hreceipt
        obtain ⟨d, hd, hr⟩ := hreceipt
        exact ⟨d, hd, by rw [hr]; rfl⟩
  · exact rely_change hu hgrows rfl rfl (Or.inr hgate) (Or.inl ⟨rfl, rfl, rfl⟩) (Or.inl rfl)

/-! ## The discipline -/

/-- INTERNAL: **every action performed where it may be keeps the discipline.** -/
theorem keeps_performAct (a : Act) (input : Input) (answer : Ans a) (m₁ : Shared) (h : Inv E m)
    (hgood : Good t a m) (hperform : performAct E ownerUid t a input m = some (answer, m₁)) :
    Keeps E t m m₁ := by
  cases a with
  | acquire l e =>
    simp only [performAct] at hperform
    split_ifs at hperform with hpoisoned hfree
    · rw [← (Prod.mk.inj (Option.some.inj hperform)).2]
      exact keeps_refl h t
    · rw [← (Prod.mk.inj (Option.some.inj hperform)).2]
      have htake := keeps_holder h (t := t) _ (holder_take hfree)
      cases e with
      | none =>
        simp only [Shared.entry, List.map_nil, List.append_nil]
        exact htake
      | some captured => exact htake.trans (keeps_note htake.inv trivial trivial)
  | tryAcquire l =>
    simp only [performAct] at hperform
    split_ifs at hperform with hheld hpoisoned
    · rw [← (Prod.mk.inj (Option.some.inj hperform)).2]
      exact keeps_refl h t
    · rw [← (Prod.mk.inj (Option.some.inj hperform)).2]
      exact keeps_refl h t
    · rw [← (Prod.mk.inj (Option.some.inj hperform)).2]
      exact keeps_holder h _ (holder_take (not_not.mp hheld))
  | force l =>
    simp only [performAct] at hperform
    split_ifs at hperform with hfree
    rw [← (Prod.mk.inj (Option.some.inj hperform)).2]
    exact keeps_holder h _ (holder_take hfree)
  | reacquire ids =>
    simp only [performAct] at hperform
    split_ifs at hperform with hpoisoned hfree
    · rw [← (Prod.mk.inj (Option.some.inj hperform)).2]
      exact keeps_refl h t
    · rw [← (Prod.mk.inj (Option.some.inj hperform)).2]
      simp only [Bool.and_eq_true, decide_eq_true_eq] at hfree
      exact keeps_holder h _ (holder_take hfree.1)
  | release l =>
    simp only [performAct] at hperform
    split_ifs at hperform with hheld
    rw [← (Prod.mk.inj (Option.some.inj hperform)).2]
    exact keeps_holder h _ (holder_drop hheld)
  | storeClosing =>
    rw [← (Prod.mk.inj (Option.some.inj hperform)).2]
    exact keeps_storeClosing h hgood
  | publishEpoch =>
    rw [← (Prod.mk.inj (Option.some.inj hperform)).2]
    exact keeps_publishEpoch h hgood
  | storeUncertain =>
    rw [← (Prod.mk.inj (Option.some.inj hperform)).2]
    exact keeps_storeUncertain h
  | newFlag =>
    rw [← (Prod.mk.inj (Option.some.inj hperform)).2]
    exact keeps_newFlag h hgood
  | setFlag cell =>
    rw [← (Prod.mk.inj (Option.some.inj hperform)).2]
    exact keeps_setFlag h cell hgood.1 hgood.2
  | now =>
    rw [← (Prod.mk.inj (Option.some.inj hperform)).2]
    exact keeps_note h trivial trivial
  | update u =>
    rw [← (Prod.mk.inj (Option.some.inj hperform)).2]
    obtain ⟨hgate, hupdate⟩ := hgood
    cases u with
    | revoked | cleaned | retained | requestDeadline | requestAgent =>
      simp only [List.append_nil]
      exact keeps_authority h hgate _ (.of_durable rfl) h.phase rfl
    | unlocked deadline epoch => exact keeps_unlocked h hgate deadline epoch hupdate.1 hupdate.2
  | provider op =>
    rw [← (Prod.mk.inj (Option.some.inj hperform)).2]
    exact keeps_provider h op input hgood
  | insertToken id cell =>
    rw [← (Prod.mk.inj (Option.some.inj hperform)).2]
    exact keeps_insertToken h id cell hgood
  | lookupExecution id =>
    rw [← (Prod.mk.inj (Option.some.inj hperform)).2]
    cases hfound : lookupKey m.executions id with
    | none => exact keeps_note h trivial (not_mem_of_lookupKey hfound)
    | some e => exact keeps_note h trivial trivial
  | register id e =>
    rw [← (Prod.mk.inj (Option.some.inj hperform)).2]
    exact keeps_register h id e hgood
  | removeExecution id =>
    rw [← (Prod.mk.inj (Option.some.inj hperform)).2]
    exact keeps_removeExecution h id hgood
  | handOver e =>
    rw [← (Prod.mk.inj (Option.some.inj hperform)).2]
    exact keeps_note h hgood trivial
  | createSecret id effect =>
    rw [← (Prod.mk.inj (Option.some.inj hperform)).2]
    exact keeps_createSecret h id effect hgood
  | returnsCancelled id first =>
    rw [← (Prod.mk.inj (Option.some.inj hperform)).2]
    exact keeps_note h trivial hgood
  | returnsAnswer bindingId nonce =>
    rw [← (Prod.mk.inj (Option.some.inj hperform)).2]
    exact keeps_note h hgood trivial
  | stall => simp [performAct] at hperform
  | loadClosing | loadEpoch | loadUncertain | loadFlag | unixSeconds | readAuthority | readState
  | backend | eligible | resolve | unlock | port | lookupToken | listExecutions | supervise =>
    rw [← (Prod.mk.inj (Option.some.inj hperform)).2]
    exact keeps_refl h t

/-- What a thread finds when its call begins: its own mark and no other of its own. -/
structure Spawned (t : ℕ) (call : Call) (m : Shared) : Prop where
  began : ∃ seen, (t, Mark.began call seen) ∈ m.log
  only : ∀ x ∈ m.log, x.1 = t → ∃ seen, x.2 = .began call seen
  seen : (t, Mark.began call true) ∈ m.log → ∃ pair ∈ m.admitted, call.message = some pair

/-- INTERNAL: a call begins. -/
theorem keeps_spawn (requestLifetime : ℕ) (call : Call) (m₁ : Shared) (h : Inv E m)
    (hspawn : (machine E ownerUid requestLifetime).spawn t call m = some m₁) :
    Inv E m₁ ∧ Spawned t call m₁ ∧ ∀ u, u ≠ t → Rely u m m₁ := by
  simp only [machine] at hspawn
  split_ifs at hspawn with hused
  have hfresh : ∀ x ∈ m.log, x.1 ≠ t := by
    intro x hx heq
    exact hused (List.any_eq_true.mpr ⟨x, hx, by simp [heq]⟩)
  rw [← Option.some.inj hspawn]
  have hkeeps := @keeps_note E m h t
    (.began call (call.message.any (m.admitted.contains ·))) hfresh trivial
  refine ⟨hkeeps.inv, ⟨⟨_, List.mem_append_right _ (List.mem_singleton.mpr rfl)⟩, ?_, ?_⟩,
    hkeeps.rely⟩
  · intro x hx hxt
    rcases List.mem_append.mp hx with hx | hx
    · exact absurd hxt (hfresh x hx)
    · exact ⟨_, by rw [List.mem_singleton.mp hx]⟩
  · intro hmem
    rcases List.mem_append.mp hmem with hmem | hmem
    · exact absurd rfl (hfresh _ hmem)
    · have hseen := (Mark.began.inj (Prod.mk.inj (List.mem_singleton.mp hmem)).2).2
      rw [Eq.comm, Option.any_eq_true] at hseen
      obtain ⟨pair, hpair, hcontains⟩ := hseen
      exact ⟨pair, List.contains_iff_mem.mp hcontains, hpair⟩

/-- INTERNAL: time passes. -/
theorem keeps_elapsed (h : Inv E m) (elapsed : ℕ) :
    Inv E { m with clock := m.clock + elapsed } ∧
      ∀ u, Rely u m { m with clock := m.clock + elapsed } := by
  have hgrows : Grows m { m with clock := m.clock + elapsed } :=
    { Grows.refl m with clock := Nat.le_add_right _ _ }
  exact ⟨h.change rfl hgrows h.phase rfl rfl rfl rfl,
    fun u => { Rely.refl u m with toGrows := hgrows }⟩

/-- INTERNAL: a thread ends in any way. -/
theorem keeps_abandon (h : Inv E m) (t : ℕ) :
    Keeps E t m { m with holder := fun l => if m.holder l = some t then none else m.holder l } := by
  refine keeps_holder h _ fun u hu l => ?_
  by_cases hl : m.holder l = some t
  · simp [hl, hu.symm]
  · simp [hl]

/-- INTERNAL: what the tokens of a new process are. -/
theorem lookupKey_zipIdx (ids : List String) (id : String) (cell : ℕ)
    (h : lookupKey ids.zipIdx id = some cell) : id ∈ ids ∧ cell < ids.length := by
  unfold lookupKey at h
  rw [Option.map_eq_some_iff] at h
  obtain ⟨⟨id', cell'⟩, hfind, hcell⟩ := h
  have hid := List.find?_some hfind
  have hmem := List.mem_of_find?_eq_some hfind
  obtain ⟨-, hlt, hget⟩ := List.mem_zipIdx hmem
  simp only [decide_eq_true_eq] at hid hcell
  subst hid hcell
  refine ⟨?_, by simpa using hlt⟩
  rw [hget]
  exact List.getElem_mem _

/-- INTERNAL: a new process. -/
theorem inv_fresh (store : Store) (clock : ℕ) (admitted : List (String × String))
    (created : List (String × Option WriteReceipt)) (hphase : InPhase store.durable)
    (honce : admitted.Nodup) (hseen : ∀ pair ∈ admitted, Seen (E := E) pair store)
    (hcreatedOnce : (created.map (·.1)).Nodup)
    (hcreated : ∀ x ∈ created, x.2 = some ⟨x.1, none, .uncertain⟩ ∧
      ∃ d, store.durable.direct x.1 = some d ∧ d.writeReceipt.isSome = true) :
    Inv E (.fresh store clock admitted created) where
  phase := hphase
  history := each_nil _
  set _ _ h := absurd h List.not_mem_nil
  closed _ h := absurd h List.not_mem_nil
  published _ _ h := absurd h List.not_mem_nil
  session := Nat.le_refl _
  revoked _ _ _ _ h := absurd h (by simp [Shared.fresh])
  executions _ _ h := absurd h List.not_mem_nil
  looked _ _ _ _ h := absurd h (by simp [Shared.fresh])
  cancelled _ _ _ h := absurd h List.not_mem_nil
  tokens id cell h := by
    obtain ⟨hid, hcell⟩ := lookupKey_zipIdx _ id cell h
    exact ⟨hid, by simpa [Shared.fresh] using hcell⟩
  createdOnce := hcreatedOnce
  created := hcreated
  admittedOnce := honce
  admitted := hseen

/-- INTERNAL: a process restarts. -/
theorem keeps_restart (h : Inv E m) (r : Restart) :
    Inv E (.fresh (step E ownerUid m.authority.store (.restart r.env r.outcome)) r.clock
      m.admitted m.created) := by
  have hgrows := @step_grows E ownerUid m.authority.store
    (.restart r.env r.outcome) h.phase
  refine inv_fresh _ _ _ _ (step_inPhase _ _ h.phase) h.admittedOnce
    (fun pair hp => (h.admitted pair hp).grows hgrows) h.createdOnce fun x hx => ?_
  obtain ⟨hreceipt, d, hd, hsome⟩ := h.created x hx
  obtain ⟨d', hd', hrecord⟩ := hgrows.direct x.1 d hd
  obtain ⟨receipt, hr⟩ := Option.isSome_iff_exists.mp hsome
  obtain ⟨receipt', hr', -⟩ := hrecord.receipt.receipt receipt hr
  exact ⟨hreceipt, d', hd', by rw [hr']; rfl⟩

/-- **The discipline of the application.** -/
def discipline (E : Externals) (ownerUid : UInt32) (requestLifetime : ℕ) :
    Discipline (machine E ownerUid requestLifetime) where
  inv := Inv E
  rely := Rely
  grows := Grows
  good := Good
  rely_refl := Rely.refl
  rely_trans _ _ _ _ h h' := h.trans h'
  rely_grows _ _ _ h := h.toGrows
  perform _ a _ input answer m₁ h hgood hperform :=
    have hkeeps := keeps_performAct a input answer m₁ h hgood hperform
    ⟨hkeeps.inv, hkeeps.grows, hkeeps.rely⟩
  spawned := Spawned
  spawn _ call _ m₁ h hspawn := keeps_spawn requestLifetime call m₁ h hspawn
  world elapsed _ h := keeps_elapsed h elapsed
  abandon t _ h := ⟨(keeps_abandon h t).inv, (keeps_abandon h t).rely⟩
  restart r _ h := keeps_restart h r

end Actions

end VaultAccess.Analysis
