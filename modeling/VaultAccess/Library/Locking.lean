import Mathlib.Data.List.Basic
import Mathlib.Logic.Relation
import VaultAccess.Library.Programs

/-!
# Code that takes locks

What a piece of code does with its mutexes: which it takes and gives up, and in which order.
What its data decides is left open, so that its runs are all runs the locks allow. A checker
reads off the code that every lock is taken above the locks that are held. If it accepts the
code of every call, no threads of a system ever wait for each other in a circle, and one of
them can always go on.
-/

set_option autoImplicit false

namespace VaultAccess.Library

/-- A failure after which a caller may clean up, or one it hands on. -/
inductive Failure where
  | fatal
  | plain
  deriving DecidableEq, Repr

/-- What code does with locks. -/
inductive LockCode (L : Type) where
  | skip
  /-- A step that may fail either way. -/
  | mayFail
  | fails (e : Failure)
  | seq (first second : LockCode L)
  /-- The data decides which. -/
  | either (first second : LockCode L)
  /-- The data decides how often; a failure ends it. -/
  | loop (body : LockCode L)
  /-- The lock is waited for, and held while the body runs. A poisoned one is given up at once. -/
  | locked (l : L) (poisoned : Failure) (body : LockCode L)
  /-- The lock is waited for, and held even if it is poisoned. -/
  | forced (l : L) (body : LockCode L)
  /-- The lock is taken if it is free. -/
  | tryLocked (l : L) (busy poisoned : Failure) (body : LockCode L)
  /-- A wait for a condition: the lock that was taken last is given up and taken again. -/
  | awaits (l : L)
  /-- What follows the body depends on how it ended, and the failure is handed on. -/
  | handled (body onOk onFatal onPlain : LockCode L)
  /-- A failure is forgotten. -/
  | attempt (body : LockCode L)
  deriving DecidableEq, Repr

instance {L : Type} : Append (LockCode L) := ⟨.seq⟩

/-! ## Runs -/

/-- What a thread does with a lock, and a choice of its data. -/
inductive LockAct (L : Type) where
  | lock (l : L)
  | force (l : L)
  | tryLock (l : L)
  | unlock (l : L)
  | choose

inductive LockAttempt where
  | acquired
  | busy
  | poisoned

/-- What an action answers with; for `lock`, whether the mutex is sound. -/
@[reducible]
def LockAns {L : Type} : LockAct L → Type
  | .lock _ => Bool
  | .tryLock _ => LockAttempt
  | .choose => ℕ
  | .force _ | .unlock _ => Unit

/-- What happens around an action: whether the mutex is sound, and what the data decides. -/
structure LockInput where
  sound : Bool
  choice : ℕ

/-- Who holds each lock, and which threads there were. -/
structure Locks (L : Type) where
  holder : L → Option ℕ
  begun : ℕ → Bool

/-- No thread, and no lock that is held. -/
def Locks.free {L : Type} : Locks L := ⟨fun _ => none, fun _ => false⟩

section Machine

variable {L : Type} [DecidableEq L]

def Locks.take (m : Locks L) (t : ℕ) (l : L) : Locks L :=
  { m with holder := Function.update m.holder l (some t) }

def Locks.drop (m : Locks L) (l : L) : Locks L := { m with holder := Function.update m.holder l none }

/-- One action of a thread; `none` while it waits. A thread gives up no lock of another. -/
def lockAct (t : ℕ) : (a : LockAct L) → LockInput → Locks L → Option (LockAns a × Locks L)
  | .lock l, input, m =>
    if (m.holder l).isSome then none
    else if input.sound then some (true, m.take t l) else some (false, m)
  | .force l, _, m => if (m.holder l).isSome then none else some ((), m.take t l)
  | .tryLock l, input, m =>
    if (m.holder l).isSome then some (.busy, m)
    else if input.sound then some (.acquired, m.take t l) else some (.poisoned, m)
  | .unlock l, _, m => some ((), if m.holder l = some t then m.drop l else m)
  | .choose, input, m => some (input.choice, m)

/-- A program that takes locks. -/
abbrev LockProg (L α : Type) := Prog (LockAct L) LockAns α

/-- A program, again and again while it succeeds. -/
def times {L : Type} (body : LockProg L (Except Failure Unit)) : ℕ → LockProg L (Except Failure Unit)
  | 0 => .done (.ok ())
  | n + 1 => body >>= fun
    | .ok _ => times body n
    | .error e => .done (.error e)

/-- How a step that may fail ends. -/
def outcome : ℕ → Except Failure Unit
  | 0 => .ok ()
  | 1 => .error .fatal
  | _ => .error .plain

/-- The scope of a lock that is held. -/
def scope {L : Type} (l : L) (body : LockProg L (Except Failure Unit)) : LockProg L (Except Failure Unit) :=
  body >>= fun result => .act (.unlock l) fun _ => .done result

/-- The lock is given up and taken again; a poisoned one is a failure. -/
def again {L : Type} (l : L) : LockProg L (Except Failure Unit) :=
  .act (.unlock l) fun _ => .act (.force l) fun _ => .act .choose fun n => .done (outcome n)

/-- What the code runs. -/
def LockCode.run {L : Type} : LockCode L → LockProg L (Except Failure Unit)
  | skip => .done (.ok ())
  | mayFail => .act .choose fun n => .done (outcome n)
  | fails e => .done (.error e)
  | seq first second => first.run >>= fun
    | .ok _ => second.run
    | .error e => .done (.error e)
  | either first second => .act .choose fun n => if n = 0 then first.run else second.run
  | loop body => .act .choose fun n => times body.run n
  | locked l poisoned body => .act (.lock l) fun sound =>
    if sound then scope l body.run else .done (.error poisoned)
  | forced l body => .act (.force l) fun _ => scope l body.run
  | tryLocked l busy poisoned body => .act (.tryLock l) fun
    | .acquired => scope l body.run
    | .busy => .done (.error busy)
    | .poisoned => .done (.error poisoned)
  | awaits l => .act .choose fun n => times (again l) n
  | handled body onOk onFatal onPlain => body.run >>= fun result =>
    (match result with
      | .ok _ => onOk.run
      | .error .fatal => onFatal.run
      | .error .plain => onPlain.run) >>= fun
    | .ok _ => .done result
    | .error e => .done (.error e)
  | attempt body => body.run >>= fun _ => .done (.ok ())

/-- Threads that share locks. A thread that is ended from outside gives up its locks. -/
def lockMachine {Call : Type} (code : Call → LockCode L) :
    Machine (LockAct L) LockAns (Locks L) LockInput Empty Unit Call where
  perform := lockAct
  code call := (code call).run >>= fun _ => .done ()
  spawn t _ m := if m.begun t then none else some { m with begun := Function.update m.begun t true }
  world w _ := w.elim
  abandon t m := { m with holder := fun l => if m.holder l = some t then none else m.holder l }
  restart _ _ := .free

/-- The locks an action waits for. -/
def LockAct.waitsFor : LockAct L → Option L
  | lock l | force l => some l
  | tryLock _ | unlock _ | choose => none

/-- A thread waits for a lock that another holds, or that it holds itself. -/
def Waits (sys : System (LockAct L) LockAns (Locks L)) (t u : ℕ) : Prop :=
  ∃ a next l, sys.threads t = some (.act a next) ∧ a.waitsFor = some l ∧ sys.mem.holder l = some u

end Machine

/-! ## The checker -/

section Check

variable {L : Type} (rank : L → ℕ)

/-- The lock is above all of these. -/
def above (held : List L) (l : L) : Bool := held.all fun h => rank h < rank l

/-- Every lock the code takes is above the locks that are held; `held` begins with the one taken last. -/
def LockCode.ordered [DecidableEq L] : LockCode L → List L → Bool
  | skip, _ | mayFail, _ | fails _, _ => true
  | seq first second, held | either first second, held => first.ordered held && second.ordered held
  | loop body, held | attempt body, held => body.ordered held
  | locked l _ body, held | forced l body, held => above rank held l && body.ordered (l :: held)
  | tryLocked l _ _ body, held => body.ordered (l :: held)
  | awaits _, [] => false
  | awaits l, last :: held => decide (last = l) && above rank held l
  | handled body onOk onFatal onPlain, held =>
    body.ordered held && onOk.ordered held && onFatal.ordered held && onPlain.ordered held

/-- A program takes every lock above those it holds, gives up the one it took last, and ends with `Q`
of its value and of what it holds then. -/
def Follows {α : Type} (Q : α → List L → Prop) : LockProg L α → List L → Prop
  | .done value, held => Q value held
  | .act (.lock l) next, held =>
    above rank held l = true ∧ Follows Q (next true) (l :: held) ∧ Follows Q (next false) held
  | .act (.force l) next, held => above rank held l = true ∧ Follows Q (next ()) (l :: held)
  | .act (.tryLock l) next, held => Follows Q (next .acquired) (l :: held) ∧
    Follows Q (next .busy) held ∧ Follows Q (next .poisoned) held
  | .act (.unlock l) next, held => ∃ rest, held = l :: rest ∧ Follows Q (next ()) rest
  | .act .choose next, held => ∀ n, Follows Q (next n) held

variable {rank} {α β : Type}

/-- INTERNAL: **a program made of two.** -/
theorem Follows.bind {Q : β → List L → Prop} {p : LockProg L α} {f : α → LockProg L β} {held : List L}
    (h : Follows rank (fun value => Follows rank Q (f value)) p held) : Follows rank Q (p >>= f) held := by
  induction p generalizing held with
  | done value => exact h
  | act a next ih =>
    cases a with
    | lock l => exact ⟨h.1, ih true h.2.1, ih false h.2.2⟩
    | force l => exact ⟨h.1, ih () h.2⟩
    | tryLock l => exact ⟨ih .acquired h.1, ih .busy h.2.1, ih .poisoned h.2.2⟩
    | unlock l =>
      obtain ⟨rest, hheld, hnext⟩ := h
      exact ⟨rest, hheld, ih () hnext⟩
    | choose => exact fun n => ih n (h n)

/-- A program that ends with the locks it began with. -/
def Restores (rank : L → ℕ) (p : LockProg L α) (held : List L) : Prop :=
  ∀ Q : α → List L → Prop, (∀ value, Q value held) → Follows rank Q p held

theorem Restores.bind {p : LockProg L α} {f : α → LockProg L β} {held : List L}
    (hp : Restores rank p held) (hf : ∀ value, Restores rank (f value) held) :
    Restores rank (p >>= f) held :=
  fun Q hQ => (hp _ fun value => hf value Q hQ).bind

theorem restores_done (value : α) (held : List L) : Restores rank (.done value) held :=
  fun _ hQ => hQ value

theorem restores_choose {next : ℕ → LockProg L α} {held : List L} (h : ∀ n, Restores rank (next n) held) :
    Restores rank (.act .choose next) held :=
  fun Q hQ n => h n Q hQ

/-- INTERNAL: a program that goes on while it succeeds. -/
theorem restores_times {body : LockProg L (Except Failure Unit)} {held : List L}
    (h : Restores rank body held) (n : ℕ) : Restores rank (times body n) held := by
  induction n with
  | zero => exact restores_done _ held
  | succ n ih =>
    refine h.bind fun result => ?_
    cases result with
    | ok _ => exact ih
    | error e => exact restores_done _ held

/-- INTERNAL: **the scope of a lock gives it up.** -/
theorem follows_scope {l : L} {body : LockProg L (Except Failure Unit)} {held : List L}
    (h : Restores rank body (l :: held)) {Q : Except Failure Unit → List L → Prop}
    (hQ : ∀ value, Q value held) : Follows rank Q (scope l body) (l :: held) :=
  Follows.bind (h _ fun value => ⟨held, rfl, hQ value⟩)

theorem restores_again {l : L} {held : List L} (h : above rank held l = true) :
    Restores rank (again l) (l :: held) :=
  fun _ hQ => show ∃ rest, l :: held = l :: rest ∧ _ from ⟨held, rfl, h, fun _ => hQ _⟩

/-- **What the checker accepts takes its locks in order and restores them.** -/
theorem LockCode.restores [DecidableEq L] (c : LockCode L) {held : List L} (h : c.ordered rank held = true) :
    Restores rank c.run held := by
  induction c generalizing held with
  | skip => exact restores_done _ held
  | mayFail => exact restores_choose fun n => restores_done _ held
  | fails e => exact restores_done _ held
  | seq first second ihfirst ihsecond =>
    simp only [ordered, Bool.and_eq_true] at h
    refine (ihfirst h.1).bind fun result => ?_
    cases result with
    | ok _ => exact ihsecond h.2
    | error e => exact restores_done _ held
  | either first second ihfirst ihsecond =>
    simp only [ordered, Bool.and_eq_true] at h
    refine restores_choose fun n => ?_
    by_cases hn : n = 0
    · rw [if_pos hn]
      exact ihfirst h.1
    · rw [if_neg hn]
      exact ihsecond h.2
  | loop body ih => exact restores_choose fun n => restores_times (ih h) n
  | locked l poisoned body ih =>
    simp only [ordered, Bool.and_eq_true] at h
    exact fun Q hQ => ⟨h.1, follows_scope (ih h.2) hQ, hQ _⟩
  | forced l body ih =>
    simp only [ordered, Bool.and_eq_true] at h
    exact fun Q hQ => ⟨h.1, follows_scope (ih h.2) hQ⟩
  | tryLocked l busy poisoned body ih => exact fun Q hQ => ⟨follows_scope (ih h) hQ, hQ _, hQ _⟩
  | awaits l =>
    cases held with
    | nil => exact absurd h Bool.false_ne_true
    | cons last held =>
      simp only [ordered, Bool.and_eq_true, decide_eq_true_eq] at h
      obtain ⟨rfl, habove⟩ := h
      exact restores_choose fun n => restores_times (restores_again habove) n
  | handled body onOk onFatal onPlain ih ihok ihfatal ihplain =>
    simp only [ordered, Bool.and_eq_true] at h
    obtain ⟨⟨⟨hbody, hok⟩, hfatal⟩, hplain⟩ := h
    refine (ih hbody).bind fun result => Restores.bind ?_ fun handled => ?_
    · rcases result with (_ | _) | _
      · exact ihfatal hfatal
      · exact ihplain hplain
      · exact ihok hok
    · cases handled with
      | ok _ => exact restores_done _ held
      | error e => exact restores_done _ held
  | attempt body ih => exact (ih h).bind fun _ => restores_done _ held

end Check

/-! ## Systems -/

section Systems

variable {L : Type} [DecidableEq L] (rank : L → ℕ)

/-- The thread holds these locks, each once. -/
structure Holding (m : Locks L) (t : ℕ) (held : List L) : Prop where
  mem : ∀ l, m.holder l = some t ↔ l ∈ held
  nodup : held.Nodup

/-- Every thread takes its locks in order, and what is held is held by a thread that began. -/
structure InOrder (sys : System (LockAct L) LockAns (Locks L)) : Prop where
  follows : ∀ t p, sys.threads t = some p →
    ∃ held, Holding sys.mem t held ∧ Follows rank (fun _ held => held = []) p held
  holder : ∀ l t, sys.mem.holder l = some t → (sys.threads t).isSome = true
  begun : ∀ t, (sys.threads t).isSome = true → sys.mem.begun t = true

variable {rank}

omit [DecidableEq L] in
theorem Holding.congr {m m₁ : Locks L} {t : ℕ} {held : List L} (h : Holding m t held)
    (hsame : ∀ l, m₁.holder l = some t ↔ m.holder l = some t) : Holding m₁ t held :=
  ⟨fun l => (hsame l).trans (h.mem l), h.nodup⟩

/-- INTERNAL: a lock that was free is taken. -/
theorem Holding.take {m : Locks L} {t : ℕ} {held : List L} (h : Holding m t held) {l : L}
    (hfree : (m.holder l).isSome = false) : Holding (m.take t l) t (l :: held) := by
  have hnot : l ∉ held := by
    intro hl
    rw [(h.mem l).mpr hl] at hfree
    exact absurd hfree (by simp)
  refine ⟨fun x => ?_, List.nodup_cons.mpr ⟨hnot, h.nodup⟩⟩
  by_cases hx : x = l
  · simp [Locks.take, hx]
  · simp [Locks.take, hx, h.mem x]

/-- INTERNAL: the lock that was taken last is given up. -/
theorem Holding.drop {m : Locks L} {t : ℕ} {held : List L} {l : L} (h : Holding m t (l :: held)) :
    Holding (m.drop l) t held := by
  obtain ⟨hnot, hnodup⟩ := List.nodup_cons.mp h.nodup
  refine ⟨fun x => ?_, hnodup⟩
  by_cases hx : x = l
  · subst hx
    simp [Locks.drop, hnot]
  · have hmem := h.mem x
    simp only [List.mem_cons, hx, false_or] at hmem
    simp [Locks.drop, Function.update_of_ne hx, hmem]

/-- INTERNAL: an action keeps what the other threads hold. -/
theorem lockAct_others {t u : ℕ} (hu : u ≠ t) {a : LockAct L} {input : LockInput} {answer : LockAns a}
    {m m₁ : Locks L} (h : lockAct t a input m = some (answer, m₁)) (l : L) :
    m₁.holder l = some u ↔ m.holder l = some u := by
  have htake : ∀ l', (m.holder l').isSome = false →
      ((m.take t l').holder l = some u ↔ m.holder l = some u) := by
    intro l' hfree
    by_cases hl : l = l'
    · subst hl
      have hnone : m.holder l = none := by simpa using hfree
      simp [Locks.take, hnone, Ne.symm hu]
    · simp [Locks.take, Function.update_of_ne hl]
  cases a with
  | lock l' =>
    simp only [lockAct] at h
    split_ifs at h with hheld hsound
    · rw [← (Prod.mk.inj (Option.some.inj h)).2]
      exact htake l' (by simpa using hheld)
    · rw [← (Prod.mk.inj (Option.some.inj h)).2]
  | force l' =>
    simp only [lockAct] at h
    split_ifs at h with hheld
    rw [← (Prod.mk.inj (Option.some.inj h)).2]
    exact htake l' (by simpa using hheld)
  | tryLock l' =>
    simp only [lockAct] at h
    split_ifs at h with hheld hsound
    · rw [← (Prod.mk.inj (Option.some.inj h)).2]
    · rw [← (Prod.mk.inj (Option.some.inj h)).2]
      exact htake l' (by simpa using hheld)
    · rw [← (Prod.mk.inj (Option.some.inj h)).2]
  | unlock l' =>
    rw [← (Prod.mk.inj (Option.some.inj h)).2]
    split_ifs with hmine
    · by_cases hl : l = l'
      · subst hl
        simp [Locks.drop, hmine, Ne.symm hu]
      · simp [Locks.drop, Function.update_of_ne hl]
    · rfl
  | choose => rw [← (Prod.mk.inj (Option.some.inj h)).2]

/-- INTERNAL: **an action leaves its thread in order.** -/
theorem lockAct_follows {t : ℕ} {a : LockAct L} {next : LockAns a → LockProg L Unit} {held : List L}
    {input : LockInput} {answer : LockAns a} {m m₁ : Locks L}
    (hfollows : Follows rank (fun _ held => held = []) (.act a next) held) (hheld : Holding m t held)
    (h : lockAct t a input m = some (answer, m₁)) :
    ∃ held', Holding m₁ t held' ∧ Follows rank (fun _ held => held = []) (next answer) held' := by
  cases a with
  | lock l =>
    simp only [lockAct] at h
    split_ifs at h with htaken hsound
    · obtain ⟨rfl, rfl⟩ := Prod.mk.inj (Option.some.inj h)
      exact ⟨l :: held, hheld.take (by simpa using htaken), hfollows.2.1⟩
    · obtain ⟨rfl, rfl⟩ := Prod.mk.inj (Option.some.inj h)
      exact ⟨held, hheld, hfollows.2.2⟩
  | force l =>
    simp only [lockAct] at h
    split_ifs at h with htaken
    obtain ⟨rfl, rfl⟩ := Prod.mk.inj (Option.some.inj h)
    exact ⟨l :: held, hheld.take (by simpa using htaken), hfollows.2⟩
  | tryLock l =>
    simp only [lockAct] at h
    split_ifs at h with htaken hsound
    · obtain ⟨rfl, rfl⟩ := Prod.mk.inj (Option.some.inj h)
      exact ⟨held, hheld, hfollows.2.1⟩
    · obtain ⟨rfl, rfl⟩ := Prod.mk.inj (Option.some.inj h)
      exact ⟨l :: held, hheld.take (by simpa using htaken), hfollows.1⟩
    · obtain ⟨rfl, rfl⟩ := Prod.mk.inj (Option.some.inj h)
      exact ⟨held, hheld, hfollows.2.2⟩
  | unlock l =>
    obtain ⟨rest, rfl, hnext⟩ := hfollows
    obtain ⟨-, rfl⟩ := Prod.mk.inj (Option.some.inj h)
    rw [if_pos ((hheld.mem l).mpr List.mem_cons_self)]
    exact ⟨rest, hheld.drop, hnext⟩
  | choose =>
    obtain ⟨rfl, rfl⟩ := Prod.mk.inj (Option.some.inj h)
    exact ⟨held, hheld, hfollows _⟩

/-- INTERNAL: an action begins no thread. -/
theorem lockAct_begun {t : ℕ} {a : LockAct L} {input : LockInput} {answer : LockAns a} {m m₁ : Locks L}
    (h : lockAct t a input m = some (answer, m₁)) : m₁.begun = m.begun := by
  cases a with
  | lock l | force l | tryLock l =>
    simp only [lockAct] at h
    split_ifs at h
    all_goals
      obtain ⟨-, rfl⟩ := Prod.mk.inj (Option.some.inj h)
      rfl
  | unlock l =>
    rw [← (Prod.mk.inj (Option.some.inj h)).2]
    split_ifs <;> rfl
  | choose => rw [← (Prod.mk.inj (Option.some.inj h)).2]

omit [DecidableEq L] in
/-- INTERNAL: **one thread goes on, the others hold what they held.** -/
theorem InOrder.set {sys : System (LockAct L) LockAns (Locks L)} (h : InOrder rank sys) {t : ℕ}
    {p : LockProg L Unit} {m₁ : Locks L} {held : List L} (hheld : Holding m₁ t held)
    (hfollows : Follows rank (fun _ held => held = []) p held)
    (hothers : ∀ u, u ≠ t → ∀ l, m₁.holder l = some u ↔ sys.mem.holder l = some u)
    (ht : m₁.begun t = true) (hbegun : ∀ u, sys.mem.begun u = true → m₁.begun u = true) :
    InOrder rank (System.set { sys with mem := m₁ } t p) := by
  refine ⟨fun u q hq => ?_, fun l u hl => ?_, fun u hu => ?_⟩
  · by_cases hu : u = t
    · subst hu
      simp only [System.set, Function.update_self, Option.some.injEq] at hq
      rw [← hq]
      exact ⟨held, hheld, hfollows⟩
    · simp only [System.set, Function.update_of_ne hu] at hq
      obtain ⟨held', hheld', hfollows'⟩ := h.follows u q hq
      exact ⟨held', hheld'.congr (hothers u hu), hfollows'⟩
  · by_cases hu : u = t
    · simp [System.set, hu]
    · simp only [System.set, Function.update_of_ne hu]
      exact h.holder l u ((hothers u hu l).mp hl)
  · by_cases hut : u = t
    · rw [hut]
      exact ht
    · simp only [System.set, Function.update_of_ne hut] at hu
      exact hbegun u (h.begun u hu)

/-- INTERNAL: **every event keeps the threads in order.** -/
theorem InOrder.step {Call : Type} {code : Call → LockCode L} (hcode : ∀ call, (code call).ordered rank [] = true)
    {sys : System (LockAct L) LockAns (Locks L)} (h : InOrder rank sys)
    (event : SystemEvent LockInput Empty Unit Call) : InOrder rank (sys.step (lockMachine code) event) := by
  cases event with
  | run t input =>
    simp only [System.step]
    cases ht : sys.threads t with
    | none => exact h
    | some p =>
      cases p with
      | done value => exact h
      | act a next =>
        simp only [System.advance]
        cases hact : (lockMachine code).perform t a input sys.mem with
        | none => exact h
        | some result =>
          obtain ⟨answer, m₁⟩ := result
          obtain ⟨held, hheld, hfollows⟩ := h.follows t _ ht
          obtain ⟨held', hheld', hfollows'⟩ := lockAct_follows hfollows hheld hact
          have hbegun : m₁.begun = sys.mem.begun := lockAct_begun hact
          refine h.set hheld' hfollows' (fun u hu => lockAct_others hu hact) ?_ fun u hu => ?_
          · rw [hbegun]
            exact h.begun t (by simp [ht])
          · rw [hbegun]
            exact hu
  | spawn t call =>
    simp only [System.step, lockMachine]
    by_cases hbegun : sys.mem.begun t = true
    · rw [if_pos hbegun]
      exact h
    · rw [if_neg hbegun]
      have hnone : ∀ l, sys.mem.holder l ≠ some t := fun l hl => hbegun (h.begun t (h.holder l t hl))
      have hheld : Holding { sys.mem with begun := Function.update sys.mem.begun t true } t [] :=
        ⟨fun l => by simpa using hnone l, List.nodup_nil⟩
      refine h.set hheld ?_ (fun u _ l => Iff.rfl) (by simp) fun u hu => ?_
      · exact ((code call).restores (hcode call)).bind (fun _ => restores_done () []) _ fun _ => rfl
      · by_cases hut : u = t
        · simp [hut]
        · simpa [Function.update_of_ne hut] using hu
  | world w => exact w.elim
  | abandon t =>
    simp only [System.step]
    cases ht : sys.threads t with
    | none => exact h
    | some p =>
      have hheld : Holding ((lockMachine code).abandon t sys.mem) t [] := by
        refine ⟨fun l => ?_, List.nodup_nil⟩
        simp only [lockMachine, List.not_mem_nil, iff_false]
        split_ifs with hl
        · exact fun hnone => absurd hnone (by simp)
        · exact hl
      refine h.set hheld (show Follows rank _ (.done ()) [] from rfl) (fun u hu l => ?_)
        (h.begun t (by simp [ht])) fun u hu => hu
      · simp only [lockMachine]
        split_ifs with hl
        · simp [hl, Ne.symm hu]
        · rfl
  | restart r =>
    exact ⟨fun t p hp => absurd hp (by simp [System.step, System.idle]),
      fun l t hl => absurd hl (by simp [System.step, System.idle, lockMachine, Locks.free]),
      fun t ht => absurd ht (by simp [System.step, System.idle])⟩

/-- **In every run all threads take their locks in order.** -/
theorem inOrder_run {Call : Type} {code : Call → LockCode L} (hcode : ∀ call, (code call).ordered rank [] = true)
    (events : List (SystemEvent LockInput Empty Unit Call)) :
    InOrder rank ((System.idle Locks.free).run (lockMachine code) events) := by
  refine run_invariant _ (InOrder rank) (fun sys event h => h.step hcode event) _ events ?_
  exact ⟨fun t p hp => absurd hp (by simp [System.idle]), fun l t hl => absurd hl (by simp [System.idle, Locks.free]),
    fun t ht => absurd ht (by simp [System.idle])⟩

omit [DecidableEq L] in
/-- INTERNAL: a thread that waits holds only locks below the one it waits for. -/
theorem InOrder.waits {sys : System (LockAct L) LockAns (Locks L)} (h : InOrder rank sys) {t : ℕ} {a : LockAct L}
    {next : LockAns a → LockProg L Unit} {l : L} (ht : sys.threads t = some (.act a next))
    (hl : a.waitsFor = some l) {l' : L} (hheld : sys.mem.holder l' = some t) : rank l' < rank l := by
  obtain ⟨held, hholding, hfollows⟩ := h.follows t _ ht
  have hmem := (hholding.mem l').mp hheld
  have habove : above rank held l = true := by
    cases a with
    | lock l | force l =>
      obtain rfl := Option.some.inj hl
      exact hfollows.1
    | tryLock l | unlock l | choose => exact absurd hl (by simp [LockAct.waitsFor])
  simpa using List.all_eq_true.mp habove l' hmem

omit [DecidableEq L] in
/-- INTERNAL: along a chain of waiting threads the locks rise. -/
theorem InOrder.chain {sys : System (LockAct L) LockAns (Locks L)} (h : InOrder rank sys) {t u : ℕ}
    (hchain : Relation.TransGen (Waits sys) t u) :
    ∃ a next l l', sys.threads t = some (.act a next) ∧ a.waitsFor = some l ∧ sys.mem.holder l' = some u ∧
      rank l ≤ rank l' := by
  induction hchain with
  | single hwaits =>
    obtain ⟨a, next, l, ht, hl, hu⟩ := hwaits
    exact ⟨a, next, l, l, ht, hl, hu, Nat.le_refl _⟩
  | tail _ hwaits ih =>
    obtain ⟨a, next, l, l', ht, hl, hu, hle⟩ := ih
    obtain ⟨a', next', l'', hu', hl', hv⟩ := hwaits
    exact ⟨a, next, l, l'', ht, hl, hv, Nat.le_trans hle (Nat.le_of_lt (h.waits hu' hl' hu))⟩

omit [DecidableEq L] in
/-- **No threads wait for each other in a circle**, and no thread waits for itself. -/
theorem InOrder.no_cycle {sys : System (LockAct L) LockAns (Locks L)} (h : InOrder rank sys) (t : ℕ) :
    ¬ Relation.TransGen (Waits sys) t t := by
  intro hcycle
  obtain ⟨a, next, l, l', ht, hl, hheld, hle⟩ := h.chain hcycle
  exact absurd (h.waits ht hl hheld) (by omega)

/-- An action is possible. -/
def CanAct (sys : System (LockAct L) LockAns (Locks L)) (t : ℕ) : Prop :=
  ∃ a next, sys.threads t = some (.act a next) ∧ ∀ input, (lockAct t a input sys.mem).isSome = true

/-- INTERNAL: an action that is not possible waits for a lock that is held. -/
theorem waits_of_stuck {t : ℕ} {a : LockAct L} {input : LockInput} {m : Locks L}
    (h : (lockAct t a input m).isSome ≠ true) : ∃ l u, a.waitsFor = some l ∧ m.holder l = some u := by
  cases a with
  | lock l | force l =>
    cases hl : m.holder l with
    | none => cases hsound : input.sound <;> simp [lockAct, hl, hsound] at h
    | some u => exact ⟨l, u, rfl, hl⟩
  | tryLock l =>
    refine absurd ?_ h
    simp only [lockAct]
    split_ifs <;> rfl
  | unlock l | choose => exact absurd rfl h

/-- **One of the threads can go on**, as long as one has not come to its end. -/
theorem InOrder.progress {sys : System (LockAct L) LockAns (Locks L)} (h : InOrder rank sys) {bound : ℕ}
    (hbound : ∀ l, rank l ≤ bound) {t : ℕ} {a : LockAct L} {next : LockAns a → LockProg L Unit}
    (ht : sys.threads t = some (.act a next)) : ∃ u, CanAct sys u := by
  -- a thread that waits is followed to the one that holds the lock, whose own locks are higher
  have hclimb : ∀ n t a next l, sys.threads t = some (.act a next) → a.waitsFor = some l → bound - rank l < n →
      ∃ u, CanAct sys u := by
    intro n
    induction n with
    | zero => exact fun _ _ _ _ _ _ hn => absurd hn (by omega)
    | succ n ih =>
      intro t a next l ht hl hn
      by_cases hstuck : ∀ input, (lockAct t a input sys.mem).isSome = true
      · exact ⟨t, a, next, ht, hstuck⟩
      · obtain ⟨input, hinput⟩ := not_forall.mp hstuck
        obtain ⟨l₁, u, hl₁, hu⟩ := waits_of_stuck hinput
        obtain ⟨p, hp⟩ := Option.isSome_iff_exists.mp (h.holder l₁ u hu)
        obtain ⟨held, hholding, hfollows⟩ := h.follows u p hp
        cases p with
        | done value =>
          have hnone : held = [] := hfollows
          exact absurd ((hholding.mem l₁).mp hu) (by simp [hnone])
        | act a' next' =>
          by_cases hstuck' : ∀ input, (lockAct u a' input sys.mem).isSome = true
          · exact ⟨u, a', next', hp, hstuck'⟩
          · obtain ⟨input', hinput'⟩ := not_forall.mp hstuck'
            obtain ⟨l₂, v, hl₂, -⟩ := waits_of_stuck hinput'
            have hrise := h.waits hp hl₂ hu
            rw [hl] at hl₁
            obtain rfl := Option.some.inj hl₁
            have := hbound l₂
            exact ih u a' next' l₂ hp hl₂ (by omega)
  by_cases hstuck : ∀ input, (lockAct t a input sys.mem).isSome = true
  · exact ⟨t, a, next, ht, hstuck⟩
  · obtain ⟨input, hinput⟩ := not_forall.mp hstuck
    obtain ⟨l, u, hl, -⟩ := waits_of_stuck hinput
    exact hclimb _ t a next l ht hl (Nat.lt_succ_self _)

end Systems

end VaultAccess.Library
