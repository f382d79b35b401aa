import Mathlib.Data.Nat.Notation
import Mathlib.Logic.Function.Basic
import VaultAccess.Library.Runs

/-!
# Programs of atomic actions, and systems of threads

A program is a tree of actions: it ends with a value, or performs an action and goes
on with the answer. A machine says what an action does to the memory; a system is a
memory and the programs of its threads. One event lets one thread take one action, so
a run of a system is any interleaving of its threads with the world around them.
-/

set_option autoImplicit false

namespace VaultAccess.Library

/-- A program that ends with a value, or performs an action and goes on with the answer. -/
inductive Prog (Act : Type) (Ans : Act → Type) (α : Type) : Type where
  | done (value : α)
  | act (a : Act) (next : Ans a → Prog Act Ans α)

namespace Prog

variable {Act : Type} {Ans : Act → Type} {α β γ : Type}

/-- The first program, then the second with its value. -/
def bind : Prog Act Ans α → (α → Prog Act Ans β) → Prog Act Ans β
  | done value, f => f value
  | act a next, f => act a fun answer => (next answer).bind f

instance : Monad (Prog Act Ans) where
  pure := done
  bind := bind

/-- One action. -/
def perform (a : Act) : Prog Act Ans (Ans a) := act a done

@[simp]
theorem pure_eq (value : α) : (pure value : Prog Act Ans α) = done value := rfl

@[simp]
theorem done_bind (value : α) (f : α → Prog Act Ans β) : (done value >>= f) = f value := rfl

@[simp]
theorem act_bind (a : Act) (next : Ans a → Prog Act Ans α) (f : α → Prog Act Ans β) :
    (act a next >>= f) = act a fun answer => next answer >>= f := rfl

/-- INTERNAL: the order in which programs are put together does not matter. -/
theorem bind_bind (p : Prog Act Ans α) (f : α → Prog Act Ans β) (g : β → Prog Act Ans γ) :
    (p >>= f >>= g) = p >>= fun value => f value >>= g := by
  induction p with
  | done value => rfl
  | act a next ih =>
    simp only [act_bind]
    exact congrArg (act a) (funext ih)

theorem bind_done (p : Prog Act Ans α) : (p >>= done) = p := by
  induction p with
  | done value => rfl
  | act a next ih => exact congrArg (act a) (funext ih)

instance : LawfulMonad (Prog Act Ans) :=
  LawfulMonad.mk' (Prog Act Ans) bind_done (fun _ _ => rfl) bind_bind

end Prog

/-- What actions do, what the threads of a call run, and what happens around the threads. -/
structure Machine (Act : Type) (Ans : Act → Type) (Mem Input World Restart Call : Type) where
  /-- The action of a thread, with what it reads outside the memory; `none` while it waits. -/
  perform : ℕ → (a : Act) → Input → Mem → Option (Ans a × Mem)
  code : Call → Prog Act Ans Unit
  /-- A thread begins; `none` if its number was used before. -/
  spawn : ℕ → Call → Mem → Option Mem
  world : World → Mem → Mem
  /-- A thread ends at once and gives up what it holds. -/
  abandon : ℕ → Mem → Mem
  /-- All threads end and a new process starts. -/
  restart : Restart → Mem → Mem

/-- A memory and the threads that share it. -/
structure System (Act : Type) (Ans : Act → Type) (Mem : Type) where
  mem : Mem
  threads : ℕ → Option (Prog Act Ans Unit)

/-- One event of a run. -/
inductive SystemEvent (Input World Restart Call : Type) where
  | run (thread : ℕ) (input : Input)
  | spawn (thread : ℕ) (call : Call)
  | world (world : World)
  | abandon (thread : ℕ)
  | restart (restart : Restart)

namespace System

variable {Act : Type} {Ans : Act → Type} {Mem Input World Restart Call : Type}
variable (M : Machine Act Ans Mem Input World Restart Call)

/-- A memory with no threads. -/
def idle (mem : Mem) : System Act Ans Mem := ⟨mem, fun _ => none⟩

/-- The thread goes on with another program. -/
def set (sys : System Act Ans Mem) (t : ℕ) (p : Prog Act Ans Unit) : System Act Ans Mem :=
  { sys with threads := Function.update sys.threads t (some p) }

/-- The next action of a thread, if it has one and does not wait. -/
def advance (sys : System Act Ans Mem) (t : ℕ) (input : Input) : Prog Act Ans Unit →
    System Act Ans Mem
  | .done _ => sys
  | .act a next => match M.perform t a input sys.mem with
    | none => sys
    | some (answer, mem) => { sys with mem := mem }.set t (next answer)

/-- One event. A thread that cannot go on stays. -/
def step (sys : System Act Ans Mem) : SystemEvent Input World Restart Call → System Act Ans Mem
  | .run t input => match sys.threads t with
    | none => sys
    | some p => sys.advance M t input p
  | .spawn t call => match M.spawn t call sys.mem with
    | none => sys
    | some mem => { sys with mem := mem }.set t (M.code call)
  | .world w => { sys with mem := M.world w sys.mem }
  | .abandon t => match sys.threads t with
    | none => sys
    | some _ => { sys with mem := M.abandon t sys.mem }.set t (.done ())
  | .restart r => idle (M.restart r sys.mem)

/-- A run. -/
def run (sys : System Act Ans Mem) (events : List (SystemEvent Input World Restart Call)) :
    System Act Ans Mem := events.foldl (step M) sys

end System

/-! ## Memories along a run -/

namespace System

variable {Act : Type} {Ans : Act → Type} {Mem Input World Restart Call : Type}
variable {M : Machine Act Ans Mem Input World Restart Call}

/-- INTERNAL: what every action and every happening around the threads relates, one event relates. -/
theorem step_relation (R : Mem → Mem → Prop) (hrefl : ∀ m, R m m)
    (hperform : ∀ t a input m answer m₁, M.perform t a input m = some (answer, m₁) → R m m₁)
    (hspawn : ∀ t call m m₁, M.spawn t call m = some m₁ → R m m₁)
    (hworld : ∀ w m, R m (M.world w m)) (habandon : ∀ t m, R m (M.abandon t m))
    (hrestart : ∀ r m, R m (M.restart r m)) (sys : System Act Ans Mem)
    (event : SystemEvent Input World Restart Call) : R sys.mem (sys.step M event).mem := by
  cases event with
  | run t input =>
    simp only [step]
    cases sys.threads t with
    | none => exact hrefl _
    | some p =>
      cases p with
      | done value => exact hrefl _
      | act a next =>
        simp only [advance]
        cases hresult : M.perform t a input sys.mem with
        | none => exact hrefl _
        | some result => exact hperform t a input sys.mem result.1 result.2 hresult
  | spawn t call =>
    simp only [step]
    cases hresult : M.spawn t call sys.mem with
    | none => exact hrefl _
    | some m₁ => exact hspawn t call sys.mem m₁ hresult
  | world w => exact hworld w sys.mem
  | abandon t =>
    simp only [step]
    cases sys.threads t with
    | none => exact hrefl _
    | some p => exact habandon t sys.mem
  | restart r => exact hrestart r sys.mem

/-- **What every action relates, a run relates.** -/
theorem run_memory (R : Mem → Mem → Prop) (hrefl : ∀ m, R m m)
    (htrans : ∀ a b c, R a b → R b c → R a c)
    (hstep : ∀ (sys : System Act Ans Mem) (event : SystemEvent Input World Restart Call),
      R sys.mem (sys.step M event).mem) (sys : System Act Ans Mem)
    (events : List (SystemEvent Input World Restart Call)) : R sys.mem (sys.run M events).mem :=
  run_relation (step M) (fun _ => True) (fun a b => R a.mem b.mem) (fun _ => hrefl _)
    (fun _ _ _ => htrans _ _ _) (fun _ _ _ => trivial) (fun sys event _ => hstep sys event) sys
    events trivial

theorem run_append (sys : System Act Ans Mem)
    (events later : List (SystemEvent Input World Restart Call)) :
    sys.run M (events ++ later) = (sys.run M events).run M later := by
  simp only [run, List.foldl_append]

end System

/-! ## One thread running alone -/

namespace Prog

variable {Act : Type} {Ans : Act → Type} {Mem Input World Restart Call α β : Type}
variable (M : Machine Act Ans Mem Input World Restart Call) (t : ℕ)

/-- How far a program comes when its thread alone takes steps, with the given inputs. -/
inductive Steps : Prog Act Ans α → Mem → List Input → Prog Act Ans α → Mem → Prop where
  | refl (p : Prog Act Ans α) (m : Mem) : Steps p m [] p m
  | act (a : Act) (next : Ans a → Prog Act Ans α) (p : Prog Act Ans α) (m m₁ m₂ : Mem)
      (input : Input) (inputs : List Input) (answer : Ans a)
      (hperform : M.perform t a input m = some (answer, m₁))
      (hnext : Steps (next answer) m₁ inputs p m₂) :
      Steps (.act a next) m (input :: inputs) p m₂

variable {M t}

/-- INTERNAL: the steps of the first of two programs. -/
theorem Steps.bind {p q : Prog Act Ans α} {f : α → Prog Act Ans β} {m m₁ : Mem}
    {inputs : List Input} (h : Steps M t p m inputs q m₁) :
    Steps M t (p >>= f) m inputs (q >>= f) m₁ := by
  induction h with
  | refl p m => exact .refl _ m
  | act a next p m m₁ m₂ input inputs answer hperform hnext ih =>
    exact .act a _ _ m m₁ m₂ input inputs answer hperform ih

/-- INTERNAL: steps after steps. -/
theorem Steps.trans {p q r : Prog Act Ans α} {m m₁ m₂ : Mem} {inputs inputs' : List Input}
    (h : Steps M t p m inputs q m₁) (h' : Steps M t q m₁ inputs' r m₂) :
    Steps M t p m (inputs ++ inputs') r m₂ := by
  induction h with
  | refl p m => exact h'
  | act a next p m m₁ m₃ input inputs answer hperform hnext ih =>
    exact .act a next _ m m₁ m₂ input _ answer hperform (ih h')

/-- **What a thread does alone, a system does when only that thread takes steps.** -/
theorem Steps.run {p q : Prog Act Ans Unit} {m m₁ : Mem} {inputs : List Input}
    (h : Steps M t p m inputs q m₁) (threads : ℕ → Option (Prog Act Ans Unit)) :
    (System.set ⟨m, threads⟩ t p).run M (inputs.map (SystemEvent.run t)) =
      System.set ⟨m₁, threads⟩ t q := by
  induction h with
  | refl p m => rfl
  | act a next p m m₁ m₂ input inputs answer hperform hnext ih =>
    rw [← ih, List.map_cons]
    simp only [System.run, List.foldl_cons]
    congr 1
    simp [System.step, System.set, System.advance, hperform]

end Prog

/-! ## One program that may stop anywhere -/

namespace Prog

variable {Act : Type} {Ans : Act → Type} {Mem Input α β : Type}
variable (perform : (a : Act) → Input → Mem → Option (Ans a × Mem))

/-- A program run with an input for each action. It stops where the inputs do, or where an
action is not possible; the value is there when it came to its end. -/
def runFor : Prog Act Ans α → List Input → Mem → Option α × Mem
  | done value, _, m => (some value, m)
  | act _ _, [], m => (none, m)
  | act a next, input :: inputs, m =>
    match perform a input m with
    | none => (none, m)
    | some (answer, m₁) => (next answer).runFor inputs m₁

/-- Whatever the inputs are: `stopped` holds of the memory before every action and at the
end, and `ended` holds of the value and the memory at the end. -/
def Keeps (stopped : Mem → Prop) : Prog Act Ans α → (α → Mem → Prop) → Mem → Prop
  | done value, ended, m => stopped m ∧ ended value m
  | act a next, ended, m => stopped m ∧ ∀ input answer m₁,
      perform a input m = some (answer, m₁) → Keeps stopped (next answer) ended m₁

variable {perform}

/-- **What a program keeps holds wherever it stops.** -/
theorem Keeps.runFor {stopped : Mem → Prop} {p : Prog Act Ans α} {ended : α → Mem → Prop} {m : Mem}
    (h : Keeps perform stopped p ended m) (inputs : List Input) :
    stopped (p.runFor perform inputs m).2 ∧
      ∀ value, (p.runFor perform inputs m).1 = some value → ended value (p.runFor perform inputs m).2 := by
  induction p generalizing inputs m with
  | done value =>
    refine ⟨h.1, fun result hresult => ?_⟩
    obtain rfl := Option.some.inj hresult
    exact h.2
  | act a next ih =>
    cases inputs with
    | nil => exact ⟨h.1, fun value hvalue => absurd hvalue (by simp [Prog.runFor])⟩
    | cons input inputs =>
      cases hperform : perform a input m with
      | none =>
        simp only [Prog.runFor, hperform]
        exact ⟨h.1, fun value hvalue => absurd hvalue (by simp)⟩
      | some result =>
        simp only [Prog.runFor, hperform]
        exact ih _ (h.2 input result.1 result.2 hperform) inputs

/-- INTERNAL: what the first of two programs keeps. -/
theorem Keeps.bind {stopped : Mem → Prop} {p : Prog Act Ans α} {f : α → Prog Act Ans β}
    {ended : β → Mem → Prop} {m : Mem}
    (h : Keeps perform stopped p (fun value m => Keeps perform stopped (f value) ended m) m) :
    Keeps perform stopped (p >>= f) ended m := by
  induction p generalizing m with
  | done value => exact h.2
  | act a next ih =>
    exact ⟨h.1, fun input answer m₁ hperform => ih _ (h.2 input answer m₁ hperform)⟩

/-- INTERNAL: a weaker end. -/
theorem Keeps.mono {stopped : Mem → Prop} {p : Prog Act Ans α} {ended ended' : α → Mem → Prop} {m : Mem}
    (h : Keeps perform stopped p ended m) (himp : ∀ value m, stopped m → ended value m → ended' value m) :
    Keeps perform stopped p ended' m := by
  induction p generalizing m with
  | done value => exact ⟨h.1, himp value m h.1 h.2⟩
  | act a next ih =>
    exact ⟨h.1, fun input answer m₁ hperform => ih _ (h.2 input answer m₁ hperform)⟩

/-- INTERNAL: a weaker demand on where it may stop. -/
theorem Keeps.stopped_mono {stopped stopped' : Mem → Prop} {p : Prog Act Ans α}
    {ended ended' : α → Mem → Prop} {m : Mem} (h : Keeps perform stopped p ended m)
    (hstopped : ∀ m, stopped m → stopped' m)
    (hended : ∀ value m, stopped m → ended value m → ended' value m) : Keeps perform stopped' p ended' m := by
  induction p generalizing m with
  | done value => exact ⟨hstopped m h.1, hended value m h.1 h.2⟩
  | act a next ih =>
    exact ⟨hstopped m h.1, fun input answer m₁ hperform => ih _ (h.2 input answer m₁ hperform)⟩

theorem Keeps.top (p : Prog Act Ans α) (m : Mem) :
    Keeps perform (fun _ => True) p (fun _ _ => True) m := by
  induction p generalizing m with
  | done value => exact ⟨trivial, trivial⟩
  | act a next ih => exact ⟨trivial, fun input answer m₁ _ => ih answer m₁⟩

/-- INTERNAL: a program that comes to its end performed its first action. -/
theorem runFor_act {a : Act} {next : Ans a → Prog Act Ans α} {inputs : List Input} {m m' : Mem} {value : α}
    (h : (act a next).runFor perform inputs m = (some value, m')) :
    ∃ input rest answer m₁, inputs = input :: rest ∧ perform a input m = some (answer, m₁) ∧
      (next answer).runFor perform rest m₁ = (some value, m') := by
  cases inputs with
  | nil => simp [runFor] at h
  | cons input rest =>
    cases hperform : perform a input m with
    | none => simp [runFor, hperform] at h
    | some result =>
      refine ⟨input, rest, result.1, result.2, rfl, hperform, ?_⟩
      simpa [runFor, hperform] using h

/-- Every action of the program is of a kind. -/
def Only (kind : Act → Prop) : Prog Act Ans α → Prop
  | done _ => True
  | act a next => kind a ∧ ∀ answer, Only kind (next answer)

theorem Only.bind {kind : Act → Prop} {p : Prog Act Ans α} {f : α → Prog Act Ans β}
    (h : Only kind p) (hf : ∀ value, Only kind (f value)) : Only kind (p >>= f) := by
  induction p with
  | done value => exact hf value
  | act a next ih => exact ⟨h.1, fun answer => ih answer (h.2 answer)⟩

/-- **What every action of a kind keeps, a program of such actions keeps.** -/
theorem Only.keeps {kind : Act → Prop} {p : Prog Act Ans α} {stopped fact : Mem → Prop} {m : Mem}
    (h : Only kind p)
    (hkept : ∀ a, kind a → ∀ input answer m m₁, perform a input m = some (answer, m₁) → stopped m →
      fact m → stopped m₁ ∧ fact m₁)
    (hm : stopped m) (hfact : fact m) : Keeps perform stopped p (fun _ => fact) m := by
  induction p generalizing m with
  | done value => exact ⟨hm, hfact⟩
  | act a next ih =>
    refine ⟨hm, fun input answer m₁ hperform => ?_⟩
    obtain ⟨hm₁, hfact₁⟩ := hkept a h.1 input answer m m₁ hperform hm hfact
    exact ih answer (h.2 answer) hm₁ hfact₁

end Prog

end VaultAccess.Library
