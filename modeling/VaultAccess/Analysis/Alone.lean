import VaultAccess.Analysis.Rules

/-!
# A thread that runs alone

How far a call comes when no other thread takes steps and everything outside answers well:
the rules by which the runs below are put together. A memory stands for itself with any
history; the mutexes that are held are all the thread's own.
-/

set_option autoImplicit false

namespace VaultAccess.Analysis

open VaultAccess.Library VaultAccess.Model VaultAccess.Model.Application

/-- The memory with a history, where the thread holds the mutexes and nobody else holds any. -/
def held (t : ℕ) (H : List Lock) (log : List (ℕ × Mark)) (m : Shared) : Shared :=
  { m with holder := fun l => if l ∈ H then some t else none, log := log }

/-- Everything outside answers well. -/
def good (env : Env) : Input where
  env := env
  outcome := .committed
  unreadable := false
  poisoned := false
  timedOut := false
  session := .ok ()
  eligible := .ok true
  number := .ok 100
  port := true
  supervision := ([.release], .failed)
  handOver := .ok ()
  secret := .ok ""

/-- Marks of the thread; they open no session, unless one may be opened. -/
def OwnMarks (t : ℕ) (opens : Bool) (new : List (ℕ × Mark)) : Prop :=
  ∀ x ∈ new, x.1 = t ∧ (opens = false → x.2 ≠ .authenticated)

theorem held_take (t : ℕ) (l : Lock) (H : List Lock) (log : List (ℕ × Mark)) (m : Shared) :
    (held t H log m).take t l = held t (l :: H) log m := by
  simp only [held, Shared.take, Shared.mk.injEq, and_true, true_and]
  funext l'
  by_cases h : l' = l <;> simp [h]

theorem held_drop (t : ℕ) (l : Lock) (H : List Lock) (hl : l ∉ H) (log : List (ℕ × Mark))
    (m : Shared) : (held t (l :: H) log m).drop l = held t H log m := by
  simp only [held, Shared.drop, Shared.mk.injEq, and_true, true_and]
  funext l'
  by_cases h : l' = l <;> simp [h, hl]

theorem holder_held (t : ℕ) (l : Lock) (H : List Lock) (hl : l ∉ H) (log : List (ℕ × Mark))
    (m : Shared) : (held t H log m).holder l = none := by
  simp [held, hl]

section Alone

variable (T : Thread) (opens : Bool) {ε δ α β : Type}

/-- Alone, the thread takes its program to the other one, and the memory to the other one. -/
def Goes (H : List Lock) (m : Shared) (p : Prog Act Ans α) (goal : Prog Act Ans α → Prop)
    (H' : List Lock) (m' : Shared) : Prop :=
  ∀ log, ∃ inputs new q, OwnMarks T.number opens new ∧ goal q ∧
    Prog.Steps (machine T.E T.ownerUid T.requestLifetime) T.number p (held T.number H log m) inputs q
      (held T.number H' (log ++ new) m')

/-- Alone, the program returns the value. -/
def Returns (H : List Lock) (m : Shared) (x : App ε α) (value : α) (m' : Shared) : Prop :=
  Goes T opens H m x.run (· = .done (.ok value)) H m'

/-- Alone, the program comes to the action. -/
def Comes (H : List Lock) (m : Shared) (x : App ε α) (a : Act) (H' : List Lock) (m' : Shared) :
    Prop := Goes T opens H m x.run (fun q => ∃ next, q = .act a next) H' m'

variable {T opens} {H H' : List Lock} {m m₁ m₂ : Shared}

/-! ## Sequences -/

theorem OwnMarks.append {t : ℕ} {new new' : List (ℕ × Mark)} (h : OwnMarks t opens new)
    (h' : OwnMarks t opens new') : OwnMarks t opens (new ++ new') :=
  fun x hx => (List.mem_append.mp hx).elim (h x) (h' x)

/-- INTERNAL: one program goes on with another. -/
theorem Goes.bind {p : Prog Act Ans α} {value : α} {f : α → Prog Act Ans β}
    {goal : Prog Act Ans β → Prop} {H₁ H₂ : List Lock}
    (hp : Goes T opens H m p (· = .done value) H₁ m₁)
    (hf : Goes T opens H₁ m₁ (f value) goal H₂ m₂) : Goes T opens H m (p >>= f) goal H₂ m₂ := by
  intro log
  obtain ⟨inputs, new, q, hnew, rfl, hsteps⟩ := hp log
  obtain ⟨inputs', new', q', hnew', hgoal, hsteps'⟩ := hf (log ++ new)
  refine ⟨inputs ++ inputs', new ++ new', q', hnew.append hnew', hgoal, ?_⟩
  rw [← List.append_assoc]
  exact hsteps.bind.trans hsteps'

/-- **A program made of two returns what the second returns.** -/
theorem returns_bind {x : App ε α} {f : α → App ε β} {value : α} {value' : β}
    (hx : Returns T opens H m x value m₁) (hf : Returns T opens H m₁ (f value) value' m₂) :
    Returns T opens H m (x >>= f) value' m₂ := Goes.bind hx hf

/-- **A program made of two comes to what the second comes to.** -/
theorem comes_bind {x : App ε α} {f : α → App ε β} {value : α} {a : Act}
    (hx : Returns T opens H m x value m₁) (hf : Comes T opens H m₁ (f value) a H' m₂) :
    Comes T opens H m (x >>= f) a H' m₂ := Goes.bind hx hf

/-- INTERNAL: the action is in the first part. -/
theorem Goes.first {p : Prog Act Ans α} {f : α → Prog Act Ans β} {a : Act}
    (h : Goes T opens H m p (fun q => ∃ next, q = .act a next) H' m₁) :
    Goes T opens H m (p >>= f) (fun q => ∃ next, q = .act a next) H' m₁ := by
  intro log
  obtain ⟨inputs, new, q, hnew, ⟨next, rfl⟩, hsteps⟩ := h log
  exact ⟨inputs, new, _, hnew, ⟨_, rfl⟩, hsteps.bind⟩

/-- **A program made of two comes to what the first comes to.** -/
theorem comes_first {x : App ε α} {f : α → App ε β} {a : Act}
    (h : Comes T opens H m x a H' m₁) : Comes T opens H m (x >>= f) a H' m₁ := Goes.first h

theorem returns_pure (value : α) : Returns T opens H m (pure value : App ε α) value m :=
  fun log => ⟨[], [], _, fun _ h => absurd h List.not_mem_nil, rfl, by
    rw [List.append_nil]
    exact .refl _ _⟩

theorem returns_attempt {x : App ε α} {value : α} (h : Returns T opens H m x value m₁) :
    Returns T opens H m (attempt x : App δ (Except ε α)) (.ok value) m₁ :=
  Goes.bind h (returns_pure (Except.ok value))

theorem comes_attempt {x : App ε α} {a : Act} (h : Comes T opens H m x a H' m₁) :
    Comes T opens H m (attempt x : App δ (Except ε α)) a H' m₁ := Goes.first h

theorem returns_adapt {x : App ε α} {value : α} (f : ε → δ) (h : Returns T opens H m x value m₁) :
    Returns T opens H m (x.adapt f) value m₁ := Goes.bind h (returns_pure value)

theorem comes_adapt {x : App ε α} {a : Act} (f : ε → δ) (h : Comes T opens H m x a H' m₁) :
    Comes T opens H m (x.adapt f) a H' m₁ := Goes.first h

theorem comes_act (a : Act) : Comes T opens H m (act a : App ε (Ans a)) a H m :=
  fun log => ⟨[], [], _, fun _ h => absurd h List.not_mem_nil, ⟨_, rfl⟩, by
    rw [List.append_nil]
    exact .refl _ _⟩

/-! ## Actions -/

/-- INTERNAL: one action; mutexes may change hands. -/
theorem Goes.act {a : Act} {answer : Ans a} (input : Input)
    (h : ∀ log, ∃ new, OwnMarks T.number opens new ∧
      performAct T.E T.ownerUid T.number a input (held T.number H log m) =
        some (answer, held T.number H' (log ++ new) m₁)) :
    Goes T opens H m (act a : App ε (Ans a)).run (· = .done (.ok answer)) H' m₁ := by
  intro log
  obtain ⟨new, hnew, hperform⟩ := h log
  exact ⟨[input], new, _, hnew, rfl, .act a _ _ _ _ _ input [] answer hperform (.refl _ _)⟩

/-- INTERNAL: an action that notes nothing. -/
theorem returns_act {a : Act} (answer : Ans a) (input : Input)
    (h : ∀ log, performAct T.E T.ownerUid T.number a input (held T.number H log m) =
      some (answer, held T.number H log m₁)) :
    Returns T opens H m (act a : App ε (Ans a)) answer m₁ :=
  Goes.act input fun log => ⟨[], fun _ hx => absurd hx List.not_mem_nil, by
    rw [List.append_nil]
    exact h log⟩

/-- INTERNAL: an action that notes one mark. -/
theorem returns_noted (a : Act) (answer : Ans a) (input : Input) (mark : Mark)
    (hmark : opens = false → mark ≠ .authenticated)
    (h : ∀ log, performAct T.E T.ownerUid T.number a input (held T.number H log m) =
      some (answer, held T.number H (log ++ [(T.number, mark)]) m₁)) :
    Returns T opens H m (act a : App ε (Ans a)) answer m₁ :=
  Goes.act input fun log => ⟨[(T.number, mark)], fun x hx => by
    rw [List.mem_singleton.mp hx]
    exact ⟨rfl, hmark⟩, h log⟩

section Env

variable (env : Env)

include env

theorem returns_now : Returns T opens H m (act .now : App ε ℕ) m.clock m :=
  returns_noted .now m.clock (good env)
    (.read m.clock (decide ((held T.number H [] m).holder .gate = some T.number) &&
      decide ((held T.number H [] m).holder .releaseGate = some T.number)))
    (fun _ => by simp) fun _ => rfl

theorem returns_loadClosing : Returns T opens H m (act .loadClosing : App ε Bool) m.closing m :=
  returns_act _ (good env) fun _ => rfl

theorem returns_loadUncertain :
    Returns T opens H m (act .loadUncertain : App ε Bool) m.cleanupUncertain m :=
  returns_act _ (good env) fun _ => rfl

theorem returns_loadEpoch : Returns T opens H m (act .loadEpoch : App ε ℕ) m.revocationEpoch m :=
  returns_act _ (good env) fun _ => rfl

theorem returns_readAuthority :
    Returns T opens H m (act .readAuthority : App ε Authority) m.authority m :=
  returns_act _ (good env) fun _ => rfl

theorem returns_loadFlag (cell : ℕ) :
    Returns T opens H m (act (.loadFlag cell) : App ε Bool) (m.flag cell) m :=
  returns_act _ (good env) fun _ => rfl

theorem returns_lookupToken (id : String) :
    Returns T opens H m (act (.lookupToken id) : App ε (Option ℕ)) (lookupKey m.agentTokens id) m :=
  returns_act _ (good env) fun _ => rfl

theorem returns_listExecutions :
    Returns T opens H m (act .listExecutions : App ε (List (String × ActiveExecution)))
      m.executions m :=
  returns_act _ (good env) fun _ => rfl

theorem returns_readState {s : ProviderState}
    (h : m.authority.store.readState T.E T.ownerUid env.disk = .ok s) :
    Returns T opens H m (act .readState : App ε (Except ProviderDiagnostic ProviderState)) (.ok s) m :=
  returns_act _ (good env) fun _ => congrArg (fun r => some (r, _)) h

theorem returns_port (call : PortCall) :
    Returns T opens H m (act (.port call) : App ε Bool) true m :=
  returns_act _ (good env) fun _ => rfl

theorem returns_backend (call : BackendCall) :
    Returns T opens H m (act (.backend call) : App ε (Except SessionError Unit)) (.ok ()) m :=
  returns_act _ (good env) fun _ => rfl

theorem returns_unlock :
    Returns T opens H m (act .unlock : App ε (Except SessionError ℕ)) (.ok 100) m :=
  returns_act _ (good env) fun _ => rfl

theorem returns_unixSeconds :
    Returns T opens H m (act .unixSeconds : App ε (Except SessionError ℕ)) (.ok 100) m :=
  returns_act _ (good env) fun _ => rfl

theorem returns_supervise :
    Returns T opens H m (act .supervise : App ε (List ControlCall × Supervision))
      ([.release], .failed) m :=
  returns_act _ (good env) fun _ => rfl

theorem returns_newFlag :
    Returns T opens H m (act .newFlag : App ε ℕ) m.flags.length
      { m with flags := m.flags ++ [false] } :=
  returns_act _ (good env) fun _ => rfl

theorem returns_insertToken (id : String) (cell : ℕ) :
    Returns T opens H m (act (.insertToken id cell) : App ε Unit) ()
      { m with agentTokens := insertKey m.agentTokens id cell } :=
  returns_act _ (good env) fun _ => rfl

theorem returns_register (id : String) (e : ActiveExecution) :
    Returns T opens H m (act (.register id e) : App ε Unit) ()
      { m with executions := insertKey m.executions id e } :=
  returns_noted (.register id e) () (good env)
    (.registered id e.cancel (m.token id) (m.deadline id)) (fun _ => by simp) fun _ => rfl

theorem returns_publishEpoch :
    Returns T opens H m (act .publishEpoch : App ε Unit) ()
      { m with revocationEpoch := m.revocationEpoch + 1 } :=
  returns_noted .publishEpoch () (good env) (.published (m.revocationEpoch + 1)) (fun _ => by simp)
    fun _ => rfl

/-- INTERNAL: the authority is changed. -/
theorem returns_update (u : AuthorityUpdate)
    (h : ∀ deadline epoch, u = .unlocked deadline epoch → opens = true) :
    Returns T opens H m (act (.update u) : App ε Unit) ()
      { m with authority := u.apply m.authority } := by
  cases u with
  | unlocked deadline epoch =>
    refine returns_noted (.update (.unlocked deadline epoch)) () (good env) .authenticated
      (fun hopens => ?_) fun _ => rfl
    rw [h deadline epoch rfl] at hopens
    simp at hopens
  | revoked | cleaned | retained | requestDeadline | requestAgent =>
    refine returns_act (a := .update _) () (good env) fun log => ?_
    simp [performAct, held]

/-- INTERNAL: **an operation of the provider that succeeds.** -/
theorem returns_provider {op : Op} {store : Store} {value : op.Value}
    (h : m.authority.store.call T.E T.ownerUid op env .committed false = (store, .ok value)) :
    Returns T opens H m (act (.provider op) : App ε (Except op.Error op.Value)) (.ok value)
      { m with
        authority := { m.authority with store := store }
        admitted := m.admitted ++ op.message.toList } := by
  refine returns_noted (.provider op) (.ok value) (good env)
    (.operated op (Event.handsOver T.E T.ownerUid m.authority.store (.op op env .committed)).isSome
      true) (fun _ => by simp) fun log => ?_
  show some (performProvider T.E T.ownerUid T.number op (good env) (held T.number H log m)) = _
  have hcall : (held T.number H log m).authority.store.call T.E T.ownerUid op (good env).env
      (good env).outcome (good env).unreadable = (store, .ok value) := h
  simp only [performProvider, hcall]
  rfl

/-- INTERNAL: an operation without a message. -/
theorem returns_operation {op : Op} {store : Store} {value : op.Value} (hop : op.message = none)
    (h : m.authority.store.call T.E T.ownerUid op env .committed false = (store, .ok value)) :
    Returns T opens H m (act (.provider op) : App ε (Except op.Error op.Value)) (.ok value)
      { m with authority := { m.authority with store := store } } := by
  have hprovider : Returns T opens H m (act (.provider op) : App ε (Except op.Error op.Value)) (.ok value) _ :=
    returns_provider env h
  simp only [hop, Option.toList_none, List.append_nil] at hprovider
  exact hprovider

/-! ## Mutexes -/

/-- INTERNAL: a free mutex is taken. -/
theorem goes_acquire {l : Lock} (hl : l ∉ H) (e : Option ℕ) :
    Goes T opens H m (act (.acquire l e) : App ε Bool).run (· = .done (.ok true)) (l :: H) m := by
  refine Goes.act (good env) fun log => ⟨((held T.number H log m).entry e).map (T.number, ·), ?_, ?_⟩
  · intro x hx
    obtain ⟨mark, hmark, rfl⟩ := List.mem_map.mp hx
    cases e with
    | none => simp [Shared.entry] at hmark
    | some captured =>
      rw [Shared.entry, List.mem_singleton] at hmark
      rw [hmark]
      exact ⟨rfl, fun _ => by simp⟩
  · simp only [performAct, good, holder_held _ l H hl, Bool.false_eq_true, if_false, if_true, held_take]
    rfl

theorem goes_release {l : Lock} (hl : l ∉ H) :
    Goes T opens (l :: H) m (act (.release l) : App ε Unit).run (· = .done (.ok ())) H m := by
  refine Goes.act (good env) fun log => ⟨[], fun _ hx => absurd hx List.not_mem_nil, ?_⟩
  have hheld : (held T.number (l :: H) log m).holder l = some T.number := by simp [held]
  simp only [performAct, hheld, if_true, held_drop _ l H hl, List.append_nil]

theorem goes_holding {l : Lock} (hl : l ∉ H) {body : App ε α} {value : α}
    (h : Returns T opens (l :: H) m body value m₁) :
    Goes T opens (l :: H) m (holding l body).run (· = .done (.ok value)) H m₁ :=
  Goes.bind (returns_attempt h) (Goes.bind (goes_release env hl) (returns_pure value))

/-- **The scope of a mutex guard.** -/
theorem returns_withLock {l : Lock} (hl : l ∉ H) {e : ε} {body : App ε α} {value : α}
    (h : Returns T opens (l :: H) m body value m₁) :
    Returns T opens H m (withLock l e body) value m₁ :=
  Goes.bind (goes_acquire env hl none) (goes_holding env hl h)

/-- **The scope of a mutex guard comes as far as its body.** -/
theorem comes_withLock {l : Lock} (hl : l ∉ H) {e : ε} {body : App ε α} {a : Act}
    (h : Comes T opens (l :: H) m body a H' m₁) : Comes T opens H m (withLock l e body) a H' m₁ :=
  Goes.bind (goes_acquire env hl none) (comes_first (comes_attempt h))

/-- INTERNAL: a free mutex is tried. -/
theorem goes_tryAcquire {l : Lock} (hl : l ∉ H) :
    Goes T opens H m (act (.tryAcquire l) : App ε TryLock).run (· = .done (.ok .acquired)) (l :: H)
      m := by
  refine Goes.act (good env) fun log => ⟨[], fun _ hx => absurd hx List.not_mem_nil, ?_⟩
  simp only [performAct, good, holder_held _ l H hl, Bool.false_eq_true, if_false, held_take, ne_eq,
    not_true_eq_false, List.append_nil]

theorem returns_withTryLock {l : Lock} (hl : l ∉ H) {e e' : ε} {body : App ε α} {value : α}
    (h : Returns T opens (l :: H) m body value m₁) :
    Returns T opens H m (withTryLock l e e' body) value m₁ :=
  Goes.bind (goes_tryAcquire env hl) (goes_holding env hl h)

theorem comes_withTryLock {l : Lock} (hl : l ∉ H) {e e' : ε} {body : App ε α} {a : Act}
    (h : Comes T opens (l :: H) m body a H' m₁) :
    Comes T opens H m (withTryLock l e e' body) a H' m₁ :=
  Goes.bind (goes_tryAcquire env hl) (comes_first (comes_attempt h))

end Env

end Alone

end VaultAccess.Analysis
