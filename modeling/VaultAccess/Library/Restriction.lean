import VaultAccess.Library.Concurrency

/-!
# Runs under conditions

Many results hold only of runs in which the world behaves: no disk fails, nothing happens
while something else is under way. Such a run is a run of a smaller machine, which only
makes the steps that may happen; a discipline for the smaller machine is one for these
runs. No thread ends and no process restarts in them, so what a thread's code ensures at
its end can be read off at the end of a run.
-/

set_option autoImplicit false

namespace VaultAccess.Library

variable {Act : Type} {Ans : Act → Type} {Mem Input World Restart Call : Type}

/-- What may happen: which actions, with what they read and the memory they leave, which calls, and
which changes around the threads. -/
structure Conditions (Act : Type) (Mem Input Call : Type) where
  act : ℕ → Act → Input → Mem → Mem → Prop
  call : ℕ → Call → Mem → Prop
  world : Mem → Mem → Prop

section Restrict

variable (C : Conditions Act Mem Input Call) (M : Machine Act Ans Mem Input World Restart Call)

open Classical in
/-- The machine that only makes the steps that may happen. -/
noncomputable def Machine.restrict : Machine Act Ans Mem Input World Restart Call where
  perform t a input m := (M.perform t a input m).filter fun result => C.act t a input m result.2
  code := M.code
  spawn t call m := if C.call t call m then M.spawn t call m else none
  world w m := if C.world m (M.world w m) then M.world w m else m
  abandon _ m := m
  restart _ m := m

/-- What the conditions say about one event. -/
def System.Allowed (sys : System Act Ans Mem) : SystemEvent Input World Restart Call → Prop
  | .run t input => ∀ a next answer mem, sys.threads t = some (.act a next) →
      M.perform t a input sys.mem = some (answer, mem) → C.act t a input sys.mem mem
  | .spawn t call => C.call t call sys.mem
  | .world w => C.world sys.mem (M.world w sys.mem)
  | .abandon _ | .restart _ => False

variable {C M}

theorem Machine.restrict_perform {t : ℕ} {a : Act} {input : Input} {m m₁ : Mem} {answer : Ans a}
    (h : (M.restrict C).perform t a input m = some (answer, m₁)) :
    M.perform t a input m = some (answer, m₁) ∧ C.act t a input m m₁ := by
  simpa [Machine.restrict, Option.filter_eq_some_iff] using h

theorem Machine.restrict_spawn {t : ℕ} {call : Call} {m m₁ : Mem}
    (h : (M.restrict C).spawn t call m = some m₁) : M.spawn t call m = some m₁ ∧ C.call t call m := by
  simp only [Machine.restrict] at h
  split_ifs at h with hcall
  exact ⟨h, hcall⟩

/-- INTERNAL: an event that may happen is an event of the smaller machine. -/
theorem System.step_restrict {sys : System Act Ans Mem} {event : SystemEvent Input World Restart Call}
    (h : sys.Allowed C M event) : sys.step (M.restrict C) event = sys.step M event := by
  cases event with
  | run t input =>
    simp only [System.step]
    cases ht : sys.threads t with
    | none => rfl
    | some p =>
      cases p with
      | done value => rfl
      | act a next =>
        simp only [System.advance]
        cases hperform : M.perform t a input sys.mem with
        | none => simp [Machine.restrict, hperform]
        | some result =>
          have hmay := h a next result.1 result.2 ht hperform
          simp [Machine.restrict, hperform, Option.filter, hmay]
  | spawn t call =>
    have hcall : C.call t call sys.mem := h
    simp [System.step, Machine.restrict, hcall]
  | world w =>
    have hworld : C.world sys.mem (M.world w sys.mem) := h
    simp [System.step, Machine.restrict, hworld]
  | abandon t => exact h.elim
  | restart r => exact h.elim

/-- **A run in which only what may happen happens is a run of the smaller machine.** -/
theorem System.run_restrict {sys : System Act Ans Mem}
    {events : List (SystemEvent Input World Restart Call)}
    (h : Along (System.step M) (System.Allowed C M) sys events) :
    sys.run (M.restrict C) events = sys.run M events := by
  induction events generalizing sys with
  | nil => rfl
  | cons event rest ih =>
    simp only [System.run, List.foldl_cons]
    rw [System.step_restrict h.1]
    exact ih h.2

end Restrict

/-! ## What threads leave at their end -/

section Ending

variable {M : Machine Act Ans Mem Input World Restart Call} {D : Discipline M}

/-- The memory satisfies the invariant, and every thread is safe and leaves `ends` at its end. -/
structure System.Ending (D : Discipline M) (ends : ℕ → Mem → Prop) (sys : System Act Ans Mem) : Prop where
  inv : D.inv sys.mem
  safe : ∀ t p, sys.threads t = some p → Safe D t (fun _ => ends t) p sys.mem

/-- No thread is ended from outside. -/
def SystemEvent.undisturbed : SystemEvent Input World Restart Call → Prop
  | .abandon _ => False
  | _ => True

variable {ends : ℕ → Mem → Prop}

theorem System.Ending.idle {mem : Mem} (h : D.inv mem) :
    (System.idle mem : System Act Ans Mem).Ending D ends :=
  ⟨h, fun _ _ hp => absurd hp (by simp [System.idle])⟩

/-- INTERNAL: one thread goes on, the others rely on its step. -/
theorem System.Ending.set {sys : System Act Ans Mem} {mem : Mem} {t : ℕ} {p : Prog Act Ans Unit}
    (h : sys.Ending D ends) (hinv : D.inv mem) (hp : Safe D t (fun _ => ends t) p mem)
    (hrely : ∀ u, u ≠ t → D.rely u sys.mem mem) :
    (System.set { sys with mem := mem } t p).Ending D ends := by
  refine ⟨hinv, fun u q hq => ?_⟩
  by_cases hu : u = t
  · subst hu
    simp only [System.set, Function.update_self, Option.some.injEq] at hq
    rw [← hq]
    exact hp
  · simp only [System.set, Function.update_of_ne hu] at hq
    exact (h.safe u q hq).rely (hrely u hu)

/-- INTERNAL: **one event keeps the threads of a system to their ends.** -/
theorem System.step_ending
    (hcode : ∀ t call, Triple D t (D.spawned t call) (M.code call) (fun _ => ends t))
    (sys : System Act Ans Mem) (event : SystemEvent Input World Restart Call) (h : sys.Ending D ends)
    (hevent : event.undisturbed) : (sys.step M event).Ending D ends := by
  cases event with
  | run t input =>
    simp only [System.step]
    cases ht : sys.threads t with
    | none => exact h
    | some p =>
      cases p with
      | done value => exact h
      | act a next =>
        simp only [System.advance]
        cases hperform : M.perform t a input sys.mem with
        | none => exact h
        | some result =>
          obtain ⟨answer, mem⟩ := result
          obtain ⟨hgood, hnext⟩ := h.safe t _ ht sys.mem (D.rely_refl t _) h.inv
          obtain ⟨hinv, -, hrely⟩ := D.perform t a sys.mem input answer mem h.inv hgood hperform
          exact h.set hinv (hnext input answer mem hperform) hrely
  | spawn t call =>
    simp only [System.step]
    cases hspawn : M.spawn t call sys.mem with
    | none => exact h
    | some mem =>
      obtain ⟨hinv, hspawned, hrely⟩ := D.spawn t call sys.mem mem h.inv hspawn
      exact h.set hinv (hcode t call mem hinv hspawned) hrely
  | world w =>
    obtain ⟨hinv, hrely⟩ := D.world w sys.mem h.inv
    exact ⟨hinv, fun t p hp => (h.safe t p hp).rely (hrely t)⟩
  | abandon t => exact hevent.elim
  | restart r => exact .idle (D.restart r sys.mem h.inv)

/-- **A thread that came to its end left what its code ensures.** -/
theorem System.run_ends
    (hcode : ∀ t call, Triple D t (D.spawned t call) (M.code call) (fun _ => ends t))
    {mem : Mem} (hmem : D.inv mem) (events : List (SystemEvent Input World Restart Call))
    (hevents : ∀ event ∈ events, event.undisturbed) :
    D.inv ((System.idle mem : System Act Ans Mem).run M events).mem ∧
      ∀ t, ((System.idle mem).run M events).threads t = some (.done ()) →
        ends t ((System.idle mem).run M events).mem := by
  have hall : ∀ (sys : System Act Ans Mem) (events : List (SystemEvent Input World Restart Call)),
      sys.Ending D ends → (∀ event ∈ events, event.undisturbed) → (sys.run M events).Ending D ends := by
    intro sys events
    induction events generalizing sys with
    | nil => exact fun h _ => h
    | cons event rest ih =>
      intro h hevents
      exact ih _ (System.step_ending hcode sys event h (hevents event (by simp)))
        fun event' hevent' => hevents event' (by simp [hevent'])
  have hending := hall _ events (.idle hmem) hevents
  exact ⟨hending.inv, fun t ht => hending.safe t _ ht _ (D.rely_refl t _) hending.inv⟩

end Ending

/-- INTERNAL: nothing ends a thread where only what may happen happens. -/
theorem System.undisturbed_of_allowed {C : Conditions Act Mem Input Call}
    {M : Machine Act Ans Mem Input World Restart Call} {sys : System Act Ans Mem}
    {events : List (SystemEvent Input World Restart Call)}
    (h : Along (System.step M) (System.Allowed C M) sys events) : ∀ event ∈ events, event.undisturbed := by
  induction events generalizing sys with
  | nil => exact fun _ hevent => absurd hevent List.not_mem_nil
  | cons event rest ih =>
    intro event' hevent'
    rcases List.mem_cons.mp hevent' with rfl | hrest
    · cases event' with
      | abandon t => exact h.1.elim
      | run | spawn | world | restart => trivial
    · exact ih h.2 event' hrest

/-- **The rule of runs under conditions**: what the discipline of the smaller machine says of the memory
and of the ends of threads holds in every run in which only what may happen happens. -/
theorem System.allowed_ends {C : Conditions Act Mem Input Call}
    {M : Machine Act Ans Mem Input World Restart Call} {D : Discipline (M.restrict C)}
    {ends : ℕ → Mem → Prop}
    (hcode : ∀ t call, Triple D t (D.spawned t call) (M.code call) (fun _ => ends t)) {mem : Mem}
    (hmem : D.inv mem) {events : List (SystemEvent Input World Restart Call)}
    (h : Along (System.step M) (System.Allowed C M) (System.idle mem) events) :
    D.inv ((System.idle mem : System Act Ans Mem).run M events).mem ∧
      ∀ t, ((System.idle mem).run M events).threads t = some (.done ()) →
        ends t ((System.idle mem).run M events).mem := by
  rw [← System.run_restrict h]
  exact System.run_ends hcode hmem events (System.undisturbed_of_allowed h)

end VaultAccess.Library
