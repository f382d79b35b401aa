import VaultAccess.Library.Concurrency

/-!
# One program amid the steps of others

A program runs while others change the memory between its actions; beside the memory it keeps
a note, which no action reads, of what its actions found. A program surely ends with a fact
when it does so whatever the inputs are and whatever others do.
-/

set_option autoImplicit false

namespace VaultAccess.Library

/-- What actions do, what others may do in between, and what is noted of an action before it. -/
structure Setting (Act : Type) (Ans : Act → Type) (Mem Input Note : Type) where
  perform : (a : Act) → Input → Mem → Option (Ans a × Mem)
  others : Mem → Mem → Prop
  refl : ∀ m, others m m
  trans : ∀ m m₁ m₂, others m m₁ → others m₁ m₂ → others m m₂
  note : Act → Mem → Note → Note
  /-- Actions that may be reached. -/
  good : Act → Prop

namespace Setting

variable {Act : Type} {Ans : Act → Type} {Mem Input Note α β : Type}
variable (S : Setting Act Ans Mem Input Note)

/-- How far a program comes. -/
inductive Amid : Prog Act Ans α → Mem → Note → Prog Act Ans α → Mem → Note → Prop where
  | refl (p : Prog Act Ans α) (m : Mem) (g : Note) : Amid p m g p m g
  | others (p q : Prog Act Ans α) (m m₁ m₂ : Mem) (g g₁ : Note) (hothers : S.others m m₁)
      (hrest : Amid p m₁ g q m₂ g₁) : Amid p m g q m₂ g₁
  | act (a : Act) (next : Ans a → Prog Act Ans α) (q : Prog Act Ans α) (input : Input)
      (answer : Ans a) (m m₁ m₂ : Mem) (g g₁ : Note)
      (hperform : S.perform a input m = some (answer, m₁))
      (hrest : Amid (next answer) m₁ (S.note a m g) q m₂ g₁) : Amid (.act a next) m g q m₂ g₁

/-- The program reaches only good actions, and ends with `Q`. -/
def Sure (Q : α → Mem → Note → Prop) : Prog Act Ans α → Mem → Note → Prop
  | .done value, m, g => Q value m g
  | .act a next, m, g => S.good a ∧ ∀ m₁, S.others m m₁ → ∀ input answer m₂,
      S.perform a input m₁ = some (answer, m₂) → Sure Q (next answer) m₂ (S.note a m₁ g)

/-- A fact that others keep. -/
def Stable (P : Mem → Note → Prop) : Prop := ∀ m m₁ g, S.others m m₁ → P m g → P m₁ g

/-- From memories with `P` the program surely ends with `Q`. -/
def Leads (P : Mem → Note → Prop) (p : Prog Act Ans α) (Q : α → Mem → Note → Prop) : Prop :=
  ∀ m g, P m g → S.Sure Q p m g

variable {S}

/-- INTERNAL: a program goes on. -/
theorem Amid.trans {p q r : Prog Act Ans α} {m m₁ m₂ : Mem} {g g₁ g₂ : Note} (h : S.Amid p m g q m₁ g₁)
    (h' : S.Amid q m₁ g₁ r m₂ g₂) : S.Amid p m g r m₂ g₂ := by
  induction h with
  | refl p m g => exact h'
  | others p q m m₁ m₂ g g₁ hothers _ ih => exact .others p r m m₁ _ g _ hothers (ih h')
  | act a next q input answer m m₁ m₂ g g₁ hperform _ ih =>
    exact .act a next r input answer m m₁ _ g _ hperform (ih h')

/-- INTERNAL: others that may do more. -/
theorem Amid.mono {S' : Setting Act Ans Mem Input Note} {p q : Prog Act Ans α} {m m' : Mem} {g g' : Note}
    (h : S.Amid p m g q m' g') (hperform : S'.perform = S.perform) (hnote : S'.note = S.note)
    (hothers : ∀ m m₁, S.others m m₁ → S'.others m m₁) : S'.Amid p m g q m' g' := by
  induction h with
  | refl p m g => exact .refl p m g
  | others p q m m₁ m₂ g g₁ hstep _ ih => exact .others p q m m₁ m₂ g g₁ (hothers m m₁ hstep) ih
  | act a next q input answer m m₁ m₂ g g₁ hact _ ih =>
    apply Amid.act a next q input answer m m₁ m₂ g g₁
    · rw [hperform]
      exact hact
    · rw [hnote]
      exact ih

/-- INTERNAL: **how far two programs come**: the first is under way, or it ended and the second is. -/
theorem Amid.bind_cases {x : Prog Act Ans α} {f : α → Prog Act Ans β} {q : Prog Act Ans β} {m m' : Mem}
    {g g' : Note} (h : S.Amid (x >>= f) m g q m' g') :
    (∃ p, S.Amid x m g p m' g' ∧ q = (p >>= f)) ∨
      ∃ value m₁ g₁, S.Amid x m g (.done value) m₁ g₁ ∧ S.Amid (f value) m₁ g₁ q m' g' := by
  generalize hp : (x >>= f) = p at h
  induction h generalizing x with
  | refl p m g => exact Or.inl ⟨x, .refl x m g, hp.symm⟩
  | others p q m m₁ m₂ g g₁ hstep _ ih =>
    rcases ih hp with ⟨r, hr, hq⟩ | ⟨value, m₃, g₃, hr, hq⟩
    · exact Or.inl ⟨r, .others x r m m₁ m₂ g g₁ hstep hr, hq⟩
    · exact Or.inr ⟨value, m₃, g₃, .others x _ m m₁ m₃ g g₃ hstep hr, hq⟩
  | act a next q input answer m m₁ m₂ g g₁ hperform hrest ih =>
    cases x with
    | done value =>
      refine Or.inr ⟨value, m, g, .refl _ m g, ?_⟩
      have hp : f value = .act a next := hp
      rw [hp]
      exact .act a next q input answer m m₁ m₂ g g₁ hperform hrest
    | act b rest =>
      obtain ⟨hact, hnext⟩ := Prog.act.inj hp
      subst hact
      obtain rfl := eq_of_heq hnext
      rcases ih rfl with ⟨r, hr, hq⟩ | ⟨value, m₃, g₃, hr, hq⟩
      · exact Or.inl ⟨r, .act b rest r input answer m m₁ m₂ g g₁ hperform hr, hq⟩
      · exact Or.inr ⟨value, m₃, g₃, .act b rest _ input answer m m₁ m₃ g g₃ hperform hr, hq⟩

/-! ## What is sure -/

/-- **What is sure stays sure as the program goes on.** -/
theorem Sure.amid {Q : α → Mem → Note → Prop} {p q : Prog Act Ans α} {m m' m₀ : Mem} {g g' : Note}
    (h : S.Amid p m g q m' g') (hothers : S.others m₀ m) (hsure : S.Sure Q p m₀ g) :
    ∃ m₁, S.others m₁ m' ∧ S.Sure Q q m₁ g' := by
  induction h generalizing m₀ with
  | refl p m g => exact ⟨m₀, hothers, hsure⟩
  | others p q m m₁ m₂ g g₁ hstep _ ih => exact ih (S.trans m₀ m m₁ hothers hstep) hsure
  | act a next q input answer m m₁ m₂ g g₁ hperform _ ih =>
    apply ih (S.refl m₁)
    exact hsure.2 m hothers input answer m₁ hperform

theorem Sure.good {Q : α → Mem → Note → Prop} {p : Prog Act Ans α} {m m' : Mem} {g g' : Note} {a : Act}
    {next : Ans a → Prog Act Ans α} (hsure : S.Sure Q p m g) (h : S.Amid p m g (.act a next) m' g') :
    S.good a := by
  obtain ⟨m₁, -, hreached⟩ := Sure.amid h (S.refl m) hsure
  exact hreached.1

theorem Sure.ended {Q : α → Mem → Note → Prop} {p : Prog Act Ans α} {m m' : Mem} {g g' : Note}
    {value : α} (hsure : S.Sure Q p m g) (h : S.Amid p m g (.done value) m' g') :
    ∃ m₁, S.others m₁ m' ∧ Q value m₁ g' := Sure.amid h (S.refl m) hsure

/-- INTERNAL: a weaker end. -/
theorem Sure.mono {Q Q' : α → Mem → Note → Prop} {p : Prog Act Ans α} {m : Mem} {g : Note}
    (h : S.Sure Q p m g) (himp : ∀ value m g, Q value m g → Q' value m g) : S.Sure Q' p m g := by
  induction p generalizing m g with
  | done value => exact himp value m g h
  | act a next ih =>
    refine ⟨h.1, ?_⟩
    intro m₁ hothers input answer m₂ hperform
    exact ih answer (h.2 m₁ hothers input answer m₂ hperform)

/-- INTERNAL: two programs. -/
theorem Sure.bind {Q : β → Mem → Note → Prop} {p : Prog Act Ans α} {f : α → Prog Act Ans β} {m : Mem}
    {g : Note} (h : S.Sure (fun value m g => S.Sure Q (f value) m g) p m g) : S.Sure Q (p >>= f) m g := by
  induction p generalizing m g with
  | done value => exact h
  | act a next ih =>
    refine ⟨h.1, ?_⟩
    intro m₁ hothers input answer m₂ hperform
    exact ih answer (h.2 m₁ hothers input answer m₂ hperform)

/-! ## Rules for programs that may fail -/

section Rules

variable {ε δ : Type} {P P' : Mem → Note → Prop}

/-- What a value or a failure ends with. -/
def Either (R : α → Mem → Note → Prop) (F : ε → Mem → Note → Prop) :
    Except ε α → Mem → Note → Prop
  | .ok value => R value
  | .error e => F e

theorem Leads.conseq {Q Q' : α → Mem → Note → Prop} {p : Prog Act Ans α} (h : S.Leads P p Q)
    (hpre : ∀ m g, P' m g → P m g) (hpost : ∀ value m g, Q value m g → Q' value m g) :
    S.Leads P' p Q' := by
  intro m g hm
  exact (h m g (hpre m g hm)).mono hpost

theorem leads_exists {ι : Type} {R : ι → Mem → Note → Prop} {Q : α → Mem → Note → Prop}
    {p : Prog Act Ans α} (h : ∀ i, S.Leads (R i) p Q) : S.Leads (fun m g => ∃ i, R i m g) p Q := by
  rintro m g ⟨i, hi⟩
  exact h i m g hi

theorem leads_fact {φ : Prop} {Q : α → Mem → Note → Prop} {p : Prog Act Ans α} (h : φ → S.Leads P p Q) :
    S.Leads (fun m g => φ ∧ P m g) p Q := by
  rintro m g ⟨hφ, hm⟩
  exact h hφ m g hm

/-- A value. -/
theorem leads_pure {Q : Except ε α → Mem → Note → Prop} {value : α}
    (h : ∀ m g, P m g → Q (.ok value) m g) :
    S.Leads P (pure value : ExceptT ε (Prog Act Ans) α).run Q := h

/-- A failure. -/
theorem leads_throw {Q : Except ε α → Mem → Note → Prop} {e : ε}
    (h : ∀ m g, P m g → Q (.error e) m g) :
    S.Leads P (throw e : ExceptT ε (Prog Act Ans) α).run Q := h

theorem leads_throwBind {Q : Except ε β → Mem → Note → Prop} {e : ε} {f : α → ExceptT ε (Prog Act Ans) β}
    (h : ∀ m g, P m g → Q (.error e) m g) :
    S.Leads P (throw e >>= f : ExceptT ε (Prog Act Ans) β).run Q := h

/-- **One action.** -/
theorem leads_act {a : Act} {Q : Except ε (Ans a) → Mem → Note → Prop} (hP : S.Stable P)
    (hgood : S.good a)
    (h : ∀ m g input answer m₁, P m g → S.perform a input m = some (answer, m₁) →
      Q (.ok answer) m₁ (S.note a m g)) :
    S.Leads P (ExceptT.lift (Prog.perform a) : ExceptT ε (Prog Act Ans) (Ans a)).run Q := by
  intro m g hm
  refine ⟨hgood, ?_⟩
  intro m₁ hothers input answer m₂ hperform
  exact h m₁ g input answer m₂ (hP m m₁ g hothers hm) hperform

/-- **One after the other.** -/
theorem leads_bind {Q : Except ε β → Mem → Note → Prop} {R : α → Mem → Note → Prop}
    {x : ExceptT ε (Prog Act Ans) α} {f : α → ExceptT ε (Prog Act Ans) β}
    (hx : S.Leads P x.run (Either R fun e => Q (.error e)))
    (hf : ∀ value, S.Leads (R value) (f value).run Q) : S.Leads P (x >>= f).run Q := by
  intro m g hm
  apply Sure.bind
  apply (hx m g hm).mono
  intro result m₁ g₁ h
  cases result with
  | ok value => exact hf value m₁ g₁ h
  | error e => exact h

/-- A program whose failure is a value. -/
theorem leads_attempt {Q : Except δ (Except ε α) → Mem → Note → Prop}
    {x : ExceptT ε (Prog Act Ans) α} (h : S.Leads P x.run fun result => Q (.ok result)) :
    S.Leads P (ExceptT.lift x.run : ExceptT δ (Prog Act Ans) (Except ε α)).run Q := by
  intro m g hm
  exact Sure.bind (h m g hm)

/-- Failures of another type. -/
theorem leads_adapt {Q : Except δ α → Mem → Note → Prop} {x : ExceptT ε (Prog Act Ans) α} (f : ε → δ)
    (h : S.Leads P x.run (Either (fun value => Q (.ok value)) fun e => Q (.error (f e)))) :
    S.Leads P (x.adapt f).run Q := by
  intro m g hm
  apply Sure.bind
  apply (h m g hm).mono
  intro result m₁ g₁ h
  cases result with
  | ok value => exact h
  | error e => exact h

end Rules

end Setting

/-! ## A thread of a system -/

section Threads

variable {Act : Type} {Ans : Act → Type} {Mem Input World Restart Call Note : Type}
variable {M : Machine Act Ans Mem Input World Restart Call}

/-- What a thread may find changed, in memories that satisfy the invariant. -/
def Discipline.Relies (D : Discipline M) (t : ℕ) (m m₁ : Mem) : Prop :=
  m₁ = m ∨ (D.inv m ∧ D.inv m₁ ∧ D.rely t m m₁)

/-- A thread, amid the others of a system. -/
def Discipline.setting (D : Discipline M) (t : ℕ) (note : Act → Mem → Note → Note)
    (good : Act → Prop) : Setting Act Ans Mem Input Note where
  perform := M.perform t
  others := D.Relies t
  refl _ := Or.inl rfl
  trans := by
    rintro m m₁ m₂ (rfl | h) (rfl | h')
    · exact Or.inl rfl
    · exact Or.inr h'
    · exact Or.inr h
    · exact Or.inr ⟨h.1, h'.2.1, D.rely_trans t m m₁ m₂ h.2.2 h'.2.2⟩
  note := note
  good := good

/-- The event does not end the thread or begin it again. -/
def Spares (t : ℕ) : SystemEvent Input World Restart Call → Prop
  | .spawn u _ | .abandon u => u ≠ t
  | .restart _ => False
  | _ => True

section Steps

variable {D : Discipline M} {t : ℕ} (note : Act → Mem → Note → Note) (good : Act → Prop)

theorem amid_rely {p : Prog Act Ans Unit} {m m₁ : Mem} (g : Note) (hinv : D.inv m) (hinv₁ : D.inv m₁)
    (hrely : D.rely t m m₁) : (D.setting t note good).Amid p m g p m₁ g :=
  .others p p m m₁ m₁ g g (Or.inr ⟨hinv, hinv₁, hrely⟩) (.refl p m₁ g)

theorem threads_set {sys : System Act Ans Mem} {mem : Mem} {u : ℕ} {q p : Prog Act Ans Unit} (hu : u ≠ t)
    (hp : sys.threads t = some p) : (System.set { sys with mem := mem } u q).threads t = some p := by
  simp only [System.set]
  rw [Function.update_of_ne hu.symm]
  exact hp

/-- INTERNAL: **one event of a system, as a thread sees it.** -/
theorem amid_step (hcode : ∀ t call, Triple D t (D.spawned t call) (M.code call) (fun _ _ => True))
    {sys : System Act Ans Mem} {p : Prog Act Ans Unit} (h : sys.Disciplined D)
    (hp : sys.threads t = some p) (g : Note) (event : SystemEvent Input World Restart Call)
    (hspares : Spares t event) :
    ∃ q g', (sys.step M event).threads t = some q ∧
      (D.setting t note good).Amid p sys.mem g q (sys.step M event).mem g' := by
  have hinv := (System.step_disciplined hcode sys event h).inv
  have hsame : ∃ q g', sys.threads t = some q ∧ (D.setting t note good).Amid p sys.mem g q sys.mem g' :=
    ⟨p, g, hp, .refl p _ g⟩
  cases event with
  | run u input =>
    simp only [System.step] at hinv ⊢
    cases hu : sys.threads u with
    | none => exact hsame
    | some q =>
      simp only [hu] at hinv ⊢
      cases q with
      | done value => exact hsame
      | act a next =>
        simp only [System.advance] at hinv ⊢
        cases hperform : M.perform u a input sys.mem with
        | none => exact hsame
        | some result =>
          obtain ⟨answer, mem⟩ := result
          simp only [hperform] at hinv ⊢
          by_cases hut : u = t
          · -- the thread itself takes its next action
            subst hut
            rw [hp, Option.some.injEq] at hu
            subst hu
            refine ⟨next answer, note a sys.mem g, by simp [System.set], ?_⟩
            exact .act a next _ input answer _ _ _ g _ hperform (.refl _ mem _)
          · have hgood := (h.safe u _ hu sys.mem (D.rely_refl u _) h.inv).1
            have hrely := (D.perform u a sys.mem input answer mem h.inv hgood hperform).2.2 t (Ne.symm hut)
            exact ⟨p, g, threads_set hut hp, amid_rely note good g h.inv hinv hrely⟩
  | spawn u call =>
    simp only [System.step] at hinv ⊢
    cases hspawn : M.spawn u call sys.mem with
    | none => exact hsame
    | some mem =>
      simp only [hspawn] at hinv ⊢
      have hrely := (D.spawn u call sys.mem mem h.inv hspawn).2.2 t (Ne.symm hspares)
      exact ⟨p, g, threads_set hspares hp, amid_rely note good g h.inv hinv hrely⟩
  | world w => exact ⟨p, g, hp, amid_rely note good g h.inv hinv ((D.world w sys.mem h.inv).2 t)⟩
  | abandon u =>
    simp only [System.step] at hinv ⊢
    cases hu : sys.threads u with
    | none => exact hsame
    | some q =>
      simp only [hu] at hinv ⊢
      have hrely := (D.abandon u sys.mem h.inv).2 t (Ne.symm hspares)
      exact ⟨p, g, threads_set hspares hp, amid_rely note good g h.inv hinv hrely⟩
  | restart r => exact hspares.elim

/-- **What a thread does in a run, it does amid the steps of others.** -/
theorem amid_run (hcode : ∀ t call, Triple D t (D.spawned t call) (M.code call) (fun _ _ => True))
    (events : List (SystemEvent Input World Restart Call)) {sys : System Act Ans Mem}
    {p : Prog Act Ans Unit} (h : sys.Disciplined D) (hp : sys.threads t = some p) (g : Note)
    (hspares : ∀ event ∈ events, Spares t event) :
    ∃ q g', (sys.run M events).threads t = some q ∧
      (D.setting t note good).Amid p sys.mem g q (sys.run M events).mem g' := by
  induction events generalizing sys p g with
  | nil => exact ⟨p, g, hp, .refl p _ g⟩
  | cons event events ih =>
    obtain ⟨q, g₁, hq, hstep⟩ := amid_step note good hcode h hp g event (hspares event List.mem_cons_self)
    obtain ⟨r, g₂, hr, hrest⟩ := ih (System.step_disciplined hcode sys event h) hq g₁
      fun later hlater => hspares later (List.mem_cons_of_mem _ hlater)
    exact ⟨r, g₂, hr, hstep.trans hrest⟩

end Steps

end Threads

end VaultAccess.Library
