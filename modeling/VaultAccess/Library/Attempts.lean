import VaultAccess.Library.Programs

/-!
# Attempts

A fallible program whose actions may each fail, and which may stop anywhere. `Tries` says
what holds of the memory wherever it stops and what holds of a value that it gives; `clean`
runs it with every action answered as it should be.
-/

set_option autoImplicit false

namespace VaultAccess.Library.Prog

variable {Act : Type} {Ans : Act → Type} {Mem Input α β ε : Type}

section Tries

variable (perform : (a : Act) → Input → Mem → Option (Ans a × Mem))

/-- `stopped` holds of the memory wherever the program stops, and `Q` of a value and the
memory that it comes with. -/
def Tries (stopped : Mem → Prop) (x : ExceptT ε (Prog Act Ans) α) (Q : α → Mem → Prop) (m : Mem) : Prop :=
  Keeps perform stopped x.run (fun result m => ∀ value, result = .ok value → Q value m) m

variable {perform} {stopped : Mem → Prop} {m : Mem}

theorem Tries.pure {value : α} {Q : α → Mem → Prop} (hm : stopped m) (h : Q value m) :
    Tries perform stopped (pure value : ExceptT ε (Prog Act Ans) α) Q m := by
  refine ⟨hm, ?_⟩
  intro value' hvalue
  cases hvalue
  exact h

theorem Tries.throw {error : ε} {Q : α → Mem → Prop} (hm : stopped m) :
    Tries perform stopped (throw error : ExceptT ε (Prog Act Ans) α) Q m := by
  refine ⟨hm, ?_⟩
  intro value hvalue
  cases hvalue

/-- **The rule of sequence.** -/
theorem Tries.bind {x : ExceptT ε (Prog Act Ans) α} {f : α → ExceptT ε (Prog Act Ans) β} {P : α → Mem → Prop}
    {Q : β → Mem → Prop} (hx : Tries perform stopped x P m)
    (hf : ∀ value m₁, stopped m₁ → P value m₁ → Tries perform stopped (f value) Q m₁) :
    Tries perform stopped (x >>= f) Q m := by
  apply Keeps.bind
  apply Keeps.mono hx
  intro result m₁ hstopped hresult
  cases result with
  | ok value => exact hf value m₁ hstopped (hresult value rfl)
  | error error => exact Tries.throw hstopped

theorem Tries.mono {x : ExceptT ε (Prog Act Ans) α} {Q Q' : α → Mem → Prop} (hx : Tries perform stopped x Q m)
    (h : ∀ value m₁, stopped m₁ → Q value m₁ → Q' value m₁) : Tries perform stopped x Q' m := by
  apply Keeps.mono hx
  intro result m₁ hstopped hresult value hvalue
  exact h value m₁ hstopped (hresult value hvalue)

/-- INTERNAL: a weaker demand on where it may stop; the stronger one still holds at the end. -/
theorem Tries.stopped_mono {stopped' : Mem → Prop} {x : ExceptT ε (Prog Act Ans) α} {Q : α → Mem → Prop}
    (hx : Tries perform stopped x Q m) (h : ∀ m, stopped m → stopped' m) :
    Tries perform stopped' x (fun value m => stopped m ∧ Q value m) m := by
  apply Keeps.stopped_mono hx h
  intro result m₁ hstopped hresult value hvalue
  exact ⟨hstopped, hresult value hvalue⟩

/-- **The rule of an action.** -/
theorem Tries.act {a : Act} {Q : Ans a → Mem → Prop} (hm : stopped m)
    (h : ∀ input answer m₁, perform a input m = some (answer, m₁) → stopped m₁ ∧ Q answer m₁) :
    Tries perform stopped (ExceptT.lift (Prog.perform a) : ExceptT ε (Prog Act Ans) (Ans a)) Q m := by
  refine ⟨hm, ?_⟩
  intro input answer m₁ hperform
  obtain ⟨hstopped, hQ⟩ := h input answer m₁ hperform
  refine ⟨hstopped, ?_⟩
  intro value hvalue
  cases hvalue
  exact hQ

/-- A failure that the program looks at. -/
theorem Tries.attempt {x : ExceptT ε (Prog Act Ans) α} {δ : Type} {P : α → Mem → Prop}
    {Q : Except ε α → Mem → Prop} (hx : Tries perform stopped x P m)
    (hok : ∀ value m₁, stopped m₁ → P value m₁ → Q (.ok value) m₁)
    (herror : ∀ error m₁, stopped m₁ → Q (.error error) m₁) :
    Tries perform stopped (ExceptT.lift x.run : ExceptT δ (Prog Act Ans) (Except ε α)) Q m := by
  apply Keeps.bind
  apply Keeps.mono hx
  intro result m₁ hstopped hresult
  refine ⟨hstopped, ?_⟩
  intro value hvalue
  cases hvalue
  cases result with
  | ok value => exact hok value m₁ hstopped (hresult value rfl)
  | error error => exact herror error m₁ hstopped

end Tries

/-! ## Without faults -/

section Clean

variable (answer : (a : Act) → Mem → Ans a × Mem)

/-- The program with these answers. -/
def clean : Prog Act Ans α → Mem → α × Mem
  | done value, m => (value, m)
  | act a next, m => (next (answer a m).1).clean (answer a m).2

variable {answer}

theorem clean_bind (p : Prog Act Ans α) (f : α → Prog Act Ans β) (m : Mem) :
    (p >>= f).clean answer m = (f (p.clean answer m).1).clean answer (p.clean answer m).2 := by
  induction p generalizing m with
  | done value => rfl
  | act a next ih => exact ih _ _

variable (answer) in
/-- Without faults the program gives this value, with this memory. -/
def Gives (x : ExceptT ε (Prog Act Ans) α) (m : Mem) (value : α) (m' : Mem) : Prop :=
  x.run.clean answer m = (.ok value, m')

theorem Gives.pure {value : α} {m : Mem} : Gives answer (pure value : ExceptT ε (Prog Act Ans) α) m value m := rfl

theorem Gives.bind {x : ExceptT ε (Prog Act Ans) α} {f : α → ExceptT ε (Prog Act Ans) β} {m m₁ m₂ : Mem}
    {value : α} {value' : β} (hx : Gives answer x m value m₁) (hf : Gives answer (f value) m₁ value' m₂) :
    Gives answer (x >>= f) m value' m₂ := by
  refine (clean_bind x.run _ m).trans ?_
  rw [hx]
  exact hf

theorem Gives.act {a : Act} {m : Mem} :
    Gives answer (ExceptT.lift (Prog.perform a) : ExceptT ε (Prog Act Ans) (Ans a)) m (answer a m).1
      (answer a m).2 := rfl

theorem Gives.unique {x : ExceptT ε (Prog Act Ans) α} {m m₁ m₂ : Mem} {value value' : α}
    (h : Gives answer x m value m₁) (h' : Gives answer x m value' m₂) : value = value' ∧ m₁ = m₂ := by
  have heq := h.symm.trans h'
  simp only [Prod.mk.injEq, Except.ok.injEq] at heq
  exact heq

/-- Without faults the program fails, with this memory. -/
def Fails (answer : (a : Act) → Mem → Ans a × Mem) (x : ExceptT ε (Prog Act Ans) α) (m : Mem) (error : ε)
    (m' : Mem) : Prop := x.run.clean answer m = (.error error, m')

theorem Fails.bind {x : ExceptT ε (Prog Act Ans) α} {f : α → ExceptT ε (Prog Act Ans) β} {m m₁ : Mem}
    {error : ε} (hx : Fails answer x m error m₁) : Fails answer (x >>= f) m error m₁ := by
  refine (clean_bind x.run _ m).trans ?_
  rw [hx]
  rfl

theorem Gives.bind_fails {x : ExceptT ε (Prog Act Ans) α} {f : α → ExceptT ε (Prog Act Ans) β} {m m₁ m₂ : Mem}
    {value : α} {error : ε} (hx : Gives answer x m value m₁) (hf : Fails answer (f value) m₁ error m₂) :
    Fails answer (x >>= f) m error m₂ := by
  refine (clean_bind x.run _ m).trans ?_
  rw [hx]
  exact hf

theorem Fails.not_gives {x : ExceptT ε (Prog Act Ans) α} {m m₁ m₂ : Mem} {value : α} {error : ε}
    (h : Fails answer x m error m₁) : ¬ Gives answer x m value m₂ := by
  intro h'
  have heq := h.symm.trans h'
  simp at heq

/-- A failure that the program looks at. -/
theorem Fails.attempt {x : ExceptT ε (Prog Act Ans) α} {δ : Type} {m m₁ : Mem} {error : ε}
    (h : Fails answer x m error m₁) :
    Gives answer (ExceptT.lift x.run : ExceptT δ (Prog Act Ans) (Except ε α)) m (.error error) m₁ := by
  refine (clean_bind x.run _ m).trans ?_
  rw [h]
  rfl

theorem Gives.attempt {x : ExceptT ε (Prog Act Ans) α} {δ : Type} {m m₁ : Mem} {value : α}
    (h : Gives answer x m value m₁) :
    Gives answer (ExceptT.lift x.run : ExceptT δ (Prog Act Ans) (Except ε α)) m (.ok value) m₁ := by
  refine (clean_bind x.run _ m).trans ?_
  rw [h]
  rfl

end Clean

end VaultAccess.Library.Prog
