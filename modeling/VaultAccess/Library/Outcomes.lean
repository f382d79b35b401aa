import VaultAccess.Library.Programs

/-!
# What a program among others can end with

Between two actions of a program other threads may do anything, so each action finds any
memory. A program ends well if it does whatever answers its actions can give.
-/

set_option autoImplicit false

namespace VaultAccess.Library.Prog

variable {Act : Type} {Ans : Act → Type} {α β Input Mem : Type}

/-- The value a program ends with when its actions find the given memories. An action that waits
is tried again in the next one. -/
def runAmid (perform : (a : Act) → Input → Mem → Option (Ans a × Mem)) :
    List (Input × Mem) → Prog Act Ans α → Option α
  | _, done value => some value
  | [], act _ _ => none
  | (input, m) :: rest, act a next => match perform a input m with
    | none => runAmid perform rest (act a next)
    | some (answer, _) => runAmid perform rest (next answer)

/-- A program that stops for ever before its next action once it has taken so many. -/
def upTo : ℕ → Prog Act Ans α → Prog Act Ans (Option α)
  | _, done value => done (some value)
  | 0, act _ _ => done none
  | n + 1, act a next => act a fun answer => upTo n (next answer)

/-- Every end of the program is good, as far as the answers are possible. -/
def Ends (possible : (a : Act) → Ans a → Prop) : Prog Act Ans α → (α → Prop) → Prop
  | done value, good => good value
  | act a next, good => ∀ answer, possible a answer → Ends possible (next answer) good

variable {possible : (a : Act) → Ans a → Prop}

theorem Ends.mono {p : Prog Act Ans α} {good good' : α → Prop} (h : p.Ends possible good)
    (hgood : ∀ value, good value → good' value) : p.Ends possible good' := by
  induction p with
  | done value => exact hgood value h
  | act a next ih => exact fun answer hanswer => ih answer (h answer hanswer)

theorem Ends.top (p : Prog Act Ans α) : p.Ends possible fun _ => True := by
  induction p with
  | done value => trivial
  | act a next ih => exact fun answer _ => ih answer

/-- INTERNAL: one program after another. -/
theorem Ends.bind {p : Prog Act Ans α} {f : α → Prog Act Ans β} {middle : α → Prop} {good : β → Prop}
    (h : p.Ends possible middle) (hf : ∀ value, middle value → (f value).Ends possible good) :
    (p >>= f).Ends possible good := by
  induction p with
  | done value => exact hf value h
  | act a next ih => exact fun answer hanswer => ih answer (h answer hanswer)

/-- INTERNAL: a program that may stop. -/
theorem Ends.upTo {p : Prog Act Ans α} {good : α → Prop} (h : p.Ends possible good) (n : ℕ) :
    (p.upTo n).Ends possible fun result => ∀ value, result = some value → good value := by
  induction p generalizing n with
  | done value =>
    rw [Prog.upTo]
    intro value' heq
    rw [← Option.some.inj heq]
    exact h
  | act a next ih =>
    cases n with
    | zero =>
      rw [Prog.upTo]
      exact fun value heq => nomatch heq
    | succ n =>
      rw [Prog.upTo]
      exact fun answer hanswer => ih answer (h answer hanswer) n

/-- **A good end among any other threads.** -/
theorem Ends.runAmid {perform : (a : Act) → Input → Mem → Option (Ans a × Mem)} {p : Prog Act Ans α}
    {good : α → Prop} (h : p.Ends possible good)
    (hpossible : ∀ a input m answer m', perform a input m = some (answer, m') → possible a answer)
    (moments : List (Input × Mem)) {value : α} (hvalue : p.runAmid perform moments = some value) :
    good value := by
  induction moments generalizing p with
  | nil =>
    cases p with
    | done value' =>
      rw [← Option.some.inj hvalue]
      exact h
    | act a next => exact nomatch hvalue
  | cons moment rest ih =>
    obtain ⟨input, m⟩ := moment
    cases p with
    | done value' =>
      rw [← Option.some.inj hvalue]
      exact h
    | act a next =>
      rw [Prog.runAmid] at hvalue
      split at hvalue
      · exact ih h hvalue
      · next answer m' hperform => exact ih (h answer (hpossible _ _ _ _ _ hperform)) hvalue

end VaultAccess.Library.Prog
