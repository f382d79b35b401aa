import VaultAccess.Library.Programs

/-!
# Rely and guarantee

A discipline for a machine names an invariant of the memory, what a thread may rely on
while others take steps, and what must hold where a thread performs an action. A program
is safe when every action it reaches is performed where it may be, whatever others do in
between; if the code of every call is safe, every run keeps to the discipline.
-/

set_option autoImplicit false

namespace VaultAccess.Library

variable {Act : Type} {Ans : Act → Type} {Mem Input World Restart Call : Type}

/-- What threads keep to, and why this is enough. -/
structure Discipline (M : Machine Act Ans Mem Input World Restart Call) where
  inv : Mem → Prop
  /-- What the steps of others keep for a thread. -/
  rely : ℕ → Mem → Mem → Prop
  /-- What every step of a process keeps. -/
  grows : Mem → Mem → Prop
  /-- Where a thread may perform an action. -/
  good : ℕ → Act → Mem → Prop
  rely_refl : ∀ t m, rely t m m
  rely_trans : ∀ t m m₁ m₂, rely t m m₁ → rely t m₁ m₂ → rely t m m₂
  rely_grows : ∀ t m m₁, rely t m m₁ → grows m m₁
  perform : ∀ t a m input answer m₁, inv m → good t a m →
    M.perform t a input m = some (answer, m₁) →
    inv m₁ ∧ grows m m₁ ∧ ∀ u, u ≠ t → rely u m m₁
  /-- What a thread finds when it begins. -/
  spawned : ℕ → Call → Mem → Prop
  spawn : ∀ t call m m₁, inv m → M.spawn t call m = some m₁ →
    inv m₁ ∧ spawned t call m₁ ∧ ∀ u, u ≠ t → rely u m m₁
  world : ∀ w m, inv m → inv (M.world w m) ∧ ∀ u, rely u m (M.world w m)
  abandon : ∀ t m, inv m → inv (M.abandon t m) ∧ ∀ u, u ≠ t → rely u m (M.abandon t m)
  restart : ∀ r m, inv m → inv (M.restart r m)

variable {M : Machine Act Ans Mem Input World Restart Call}

section Safe

variable (D : Discipline M) (t : ℕ) {α β : Type}

/-- Every action the program reaches from the memory is performed where it may be, and the program
ends with `Q`, whatever others do in between. -/
def Safe (Q : α → Mem → Prop) : Prog Act Ans α → Mem → Prop
  | .done value, m => ∀ m₁, D.rely t m m₁ → D.inv m₁ → Q value m₁
  | .act a next, m => ∀ m₁, D.rely t m m₁ → D.inv m₁ → D.good t a m₁ ∧
      ∀ input answer m₂, M.perform t a input m₁ = some (answer, m₂) → Safe Q (next answer) m₂

/-- A fact that the steps of others keep. -/
def Stable (P : Mem → Prop) : Prop := ∀ m m₁, D.rely t m m₁ → D.inv m₁ → P m → P m₁

/-- A fact that every step of the process keeps. -/
def Lasting (F : Mem → Prop) : Prop := ∀ m m₁, D.grows m m₁ → D.inv m₁ → F m → F m₁

/-- From memories with `P` the program is safe and ends with `Q`. -/
def Triple (P : Mem → Prop) (p : Prog Act Ans α) (Q : α → Mem → Prop) : Prop :=
  ∀ m, D.inv m → P m → Safe D t Q p m

variable {D t}

theorem Safe.rely {Q : α → Mem → Prop} {p : Prog Act Ans α} {m m₁ : Mem} (h : Safe D t Q p m)
    (hrely : D.rely t m m₁) : Safe D t Q p m₁ := by
  cases p with
  | done value => exact fun m₂ hr hi => h m₂ (D.rely_trans t m m₁ m₂ hrely hr) hi
  | act a next => exact fun m₂ hr hi => h m₂ (D.rely_trans t m m₁ m₂ hrely hr) hi

/-- INTERNAL: a weaker end. -/
theorem Safe.imp {Q Q' : α → Mem → Prop} {p : Prog Act Ans α} {m : Mem}
    (himp : ∀ value m, D.inv m → Q value m → Q' value m) (h : Safe D t Q p m) :
    Safe D t Q' p m := by
  induction p generalizing m with
  | done value => exact fun m₁ hr hi => himp value m₁ hi (h m₁ hr hi)
  | act a next ih =>
    intro m₁ hr hi
    obtain ⟨hgood, hnext⟩ := h m₁ hr hi
    exact ⟨hgood, fun input answer m₂ hperform => ih answer (hnext input answer m₂ hperform)⟩

/-- **A program made of two is safe if the second is safe where the first ends.** -/
theorem Safe.bind {Q : α → Mem → Prop} {R : β → Mem → Prop} {p : Prog Act Ans α}
    {f : α → Prog Act Ans β} {m : Mem} (h : Safe D t Q p m)
    (hf : ∀ value m, D.inv m → Q value m → Safe D t R (f value) m) (hi : D.inv m) :
    Safe D t R (p >>= f) m := by
  induction p generalizing m with
  | done value => exact hf value m hi (h m (D.rely_refl t m) hi)
  | act a next ih =>
    intro m₁ hr hi₁
    obtain ⟨hgood, hnext⟩ := h m₁ hr hi₁
    refine ⟨hgood, fun input answer m₂ hperform => ?_⟩
    exact ih answer (hnext input answer m₂ hperform) (D.perform t a m₁ input answer m₂ hi₁ hgood
      hperform).1

/-- INTERNAL: **a lasting fact is kept by every safe program.** -/
theorem Safe.frame {Q : α → Mem → Prop} {F : Mem → Prop} {p : Prog Act Ans α} {m : Mem}
    (hF : Lasting D F) (h : Safe D t Q p m) (hm : F m) :
    Safe D t (fun value m => Q value m ∧ F m) p m := by
  induction p generalizing m with
  | done value =>
    exact fun m₁ hr hi => ⟨h m₁ hr hi, hF m m₁ (D.rely_grows t m m₁ hr) hi hm⟩
  | act a next ih =>
    intro m₁ hr hi
    obtain ⟨hgood, hnext⟩ := h m₁ hr hi
    have hm₁ : F m₁ := hF m m₁ (D.rely_grows t m m₁ hr) hi hm
    refine ⟨hgood, fun input answer m₂ hperform => ?_⟩
    obtain ⟨hi₂, hgrows, -⟩ := D.perform t a m₁ input answer m₂ hi hgood hperform
    exact ih answer (hnext input answer m₂ hperform) (hF m₁ m₂ hgrows hi₂ hm₁)

/-! ## Rules -/

theorem Lasting.stable {F : Mem → Prop} (h : Lasting D F) : Stable D t F :=
  fun m m₁ hr hi hm => h m m₁ (D.rely_grows t m m₁ hr) hi hm

theorem Stable.and {P Q : Mem → Prop} (hP : Stable D t P) (hQ : Stable D t Q) :
    Stable D t fun m => P m ∧ Q m :=
  fun m m₁ hr hi h => ⟨hP m m₁ hr hi h.1, hQ m m₁ hr hi h.2⟩

/-- The program that ends at once. -/
theorem Triple.done {P : Mem → Prop} {Q : α → Mem → Prop} {value : α} (hP : Stable D t P)
    (h : ∀ m, D.inv m → P m → Q value m) : Triple D t P (.done value) Q :=
  fun m _ hm m₁ hr hi => h m₁ hi (hP m m₁ hr hi hm)

/-- **The rule of an action.** -/
theorem Triple.act {P : Mem → Prop} {a : Act} {next : Ans a → Prog Act Ans α} {Q : α → Mem → Prop}
    (R : Ans a → Mem → Prop) (hP : Stable D t P) (hgood : ∀ m, D.inv m → P m → D.good t a m)
    (hpost : ∀ m input answer m₁, D.inv m → P m → M.perform t a input m = some (answer, m₁) →
      R answer m₁)
    (hnext : ∀ answer, Triple D t (R answer) (next answer) Q) : Triple D t P (.act a next) Q := by
  intro m _ hm m₁ hr hi₁
  have hm₁ := hP m m₁ hr hi₁ hm
  have hg := hgood m₁ hi₁ hm₁
  refine ⟨hg, fun input answer m₂ hperform => ?_⟩
  exact hnext answer m₂ (D.perform t a m₁ input answer m₂ hi₁ hg hperform).1
    (hpost m₁ input answer m₂ hi₁ hm₁ hperform)

/-- **The rule of sequence.** -/
theorem Triple.bind {P : Mem → Prop} {Q : α → Mem → Prop} {R : β → Mem → Prop}
    {p : Prog Act Ans α} {f : α → Prog Act Ans β} (hp : Triple D t P p Q)
    (hf : ∀ value, Triple D t (Q value) (f value) R) : Triple D t P (p >>= f) R :=
  fun m hi hm => (hp m hi hm).bind (fun value m₁ hi₁ hq => hf value m₁ hi₁ hq) hi

/-- **The rule of consequence.** -/
theorem Triple.conseq {P P' : Mem → Prop} {Q Q' : α → Mem → Prop} {p : Prog Act Ans α}
    (h : Triple D t P p Q) (hpre : ∀ m, D.inv m → P' m → P m)
    (hpost : ∀ value m, D.inv m → Q value m → Q' value m) : Triple D t P' p Q' :=
  fun m hi hm => (h m hi (hpre m hi hm)).imp hpost

/-- **The frame rule, for lasting facts.** -/
theorem Triple.frame {P F : Mem → Prop} {Q : α → Mem → Prop} {p : Prog Act Ans α}
    (h : Triple D t P p Q) (hF : Lasting D F) :
    Triple D t (fun m => P m ∧ F m) p (fun value m => Q value m ∧ F m) :=
  fun m hi hm => (h m hi hm.1).frame hF hm.2

/-! ## Fallible programs -/

/-- What a program that may fail ends with. -/
def Ends {ε : Type} (Q : α → Mem → Prop) (R : Mem → Prop) (result : Except ε α) (m : Mem) : Prop :=
  match result with
  | .ok value => Q value m
  | .error _ => R m

variable (D t) in
/-- From memories with `P` the program is safe; it ends with `Q`, or fails with `R`. -/
def Spec {ε : Type} (P : Mem → Prop) (x : ExceptT ε (Prog Act Ans) α) (Q : α → Mem → Prop)
    (R : Mem → Prop) : Prop := Triple D t P x.run (Ends Q R)

section Spec

variable {ε δ : Type} {P R : Mem → Prop} {Q : α → Mem → Prop}

/-- A value. -/
theorem Spec.pure {value : α} (hP : Stable D t P) (h : ∀ m, D.inv m → P m → Q value m) :
    Spec D t P (pure value : ExceptT ε (Prog Act Ans) α) Q R := Triple.done hP h

/-- A failure. -/
theorem Spec.throw {e : ε} (hP : Stable D t P) (h : ∀ m, D.inv m → P m → R m) :
    Spec D t P (throw e : ExceptT ε (Prog Act Ans) α) Q R := Triple.done hP h

/-- **The rule of sequence.** -/
theorem Spec.bind {Q' : β → Mem → Prop} {x : ExceptT ε (Prog Act Ans) α}
    {f : α → ExceptT ε (Prog Act Ans) β} (hR : Stable D t R) (hx : Spec D t P x Q R)
    (hf : ∀ value, Spec D t (Q value) (f value) Q' R) : Spec D t P (x >>= f) Q' R := by
  refine Triple.bind hx fun result => ?_
  cases result with
  | ok value => exact hf value
  | error e => exact Triple.done hR fun _ _ hm => hm

/-- A value that is found in one of two ways. -/
theorem Spec.choose {Q' : β → Mem → Prop} {c : Prop} [Decidable c]
    {x y : ExceptT ε (Prog Act Ans) β} {k : β → ExceptT ε (Prog Act Ans) α} (hR : Stable D t R)
    (hx : c → Spec D t P x Q' R) (hy : ¬ c → Spec D t P y Q' R)
    (hk : ∀ value, Spec D t (Q' value) (k value) Q R) :
    Spec D t P (if c then x >>= k else y >>= k) Q R := by
  split_ifs with hc
  · exact Spec.bind hR (hx hc) hk
  · exact Spec.bind hR (hy hc) hk

/-- **The rule of consequence.** -/
theorem Spec.conseq {P' R' : Mem → Prop} {Q' : α → Mem → Prop} {x : ExceptT ε (Prog Act Ans) α}
    (h : Spec D t P x Q R) (hpre : ∀ m, D.inv m → P' m → P m)
    (hok : ∀ value m, D.inv m → Q value m → Q' value m) (herror : ∀ m, D.inv m → R m → R' m) :
    Spec D t P' x Q' R' := by
  refine Triple.conseq h hpre fun result m hi hm => ?_
  cases result with
  | ok value => exact hok value m hi hm
  | error e => exact herror m hi hm

/-- **The frame rule, for lasting facts.** -/
theorem Spec.frame {F : Mem → Prop} {x : ExceptT ε (Prog Act Ans) α} (h : Spec D t P x Q R)
    (hF : Lasting D F) :
    Spec D t (fun m => P m ∧ F m) x (fun value m => Q value m ∧ F m) (fun m => R m ∧ F m) := by
  refine Triple.conseq (Triple.frame h hF) (fun _ _ hm => hm) fun result m _ hm => ?_
  cases result with
  | ok value => exact hm
  | error e => exact hm

/-- **The rule of an action.** -/
theorem Spec.act {a : Act} {Q : Ans a → Mem → Prop} (hP : Stable D t P)
    (hQ : ∀ answer, Stable D t (Q answer)) (hgood : ∀ m, D.inv m → P m → D.good t a m)
    (hpost : ∀ m input answer m₁, D.inv m → P m → M.perform t a input m = some (answer, m₁) →
      Q answer m₁) :
    Spec D t P (ExceptT.lift (Prog.perform a) : ExceptT ε (Prog Act Ans) (Ans a)) Q R :=
  Triple.act Q hP hgood hpost fun answer => Triple.done (hQ answer) fun _ _ hm => hm

/-- A program whose failure is a value. -/
theorem Spec.attempt {x : ExceptT ε (Prog Act Ans) α} {Q : Except ε α → Mem → Prop}
    (hQ : ∀ result, Stable D t (Q result)) (h : Triple D t P x.run Q) :
    Spec D t P (ExceptT.lift x.run : ExceptT δ (Prog Act Ans) (Except ε α)) Q R :=
  Triple.bind h fun result => Triple.done (hQ result) fun _ _ hm => hm

/-- Failures of another type. -/
theorem Spec.adapt {x : ExceptT ε (Prog Act Ans) α} (f : ε → δ) (hQ : ∀ value, Stable D t (Q value))
    (hR : Stable D t R) (h : Spec D t P x Q R) : Spec D t P (x.adapt f) Q R := by
  refine Triple.bind h fun result => ?_
  cases result with
  | ok value => exact Triple.done (hQ value) fun _ _ hm => hm
  | error e => exact Triple.done hR fun _ _ hm => hm

end Spec

end Safe

/-! ## Runs -/

section Runs

variable {D : Discipline M}

/-- The memory satisfies the invariant and every thread is safe. -/
structure System.Disciplined (D : Discipline M) (sys : System Act Ans Mem) : Prop where
  inv : D.inv sys.mem
  safe : ∀ t p, sys.threads t = some p → Safe D t (fun _ _ => True) p sys.mem

theorem System.Disciplined.idle {mem : Mem} (h : D.inv mem) :
    (System.idle mem : System Act Ans Mem).Disciplined D :=
  ⟨h, fun _ _ hp => absurd hp (by simp [System.idle])⟩

/-- INTERNAL: one thread goes on, the others rely on its step. -/
theorem System.Disciplined.set {sys : System Act Ans Mem} {mem : Mem} {t : ℕ}
    {p : Prog Act Ans Unit} (h : sys.Disciplined D) (hinv : D.inv mem)
    (hp : Safe D t (fun _ _ => True) p mem) (hrely : ∀ u, u ≠ t → D.rely u sys.mem mem) :
    (System.set { sys with mem := mem } t p).Disciplined D := by
  refine ⟨hinv, fun u q hq => ?_⟩
  by_cases hu : u = t
  · subst hu
    simp only [System.set, Function.update_self, Option.some.injEq] at hq
    rw [← hq]
    exact hp
  · simp only [System.set, Function.update_of_ne hu] at hq
    exact (h.safe u q hq).rely (hrely u hu)

/-- INTERNAL: **one event keeps a system disciplined.** -/
theorem System.step_disciplined
    (hcode : ∀ t call, Triple D t (D.spawned t call) (M.code call) (fun _ _ => True))
    (sys : System Act Ans Mem) (event : SystemEvent Input World Restart Call)
    (h : sys.Disciplined D) : (sys.step M event).Disciplined D := by
  cases event with
  | run t input =>
    simp only [System.step]
    cases ht : sys.threads t with
    | none => exact h
    | some p =>
      cases p with
      | done value => exact h
      | act a next =>
        simp only [System.advance]
        cases hperform : M.perform t a input sys.mem with
        | none => exact h
        | some result =>
          obtain ⟨answer, mem⟩ := result
          obtain ⟨hgood, hnext⟩ := h.safe t _ ht sys.mem (D.rely_refl t _) h.inv
          obtain ⟨hinv, -, hrely⟩ := D.perform t a sys.mem input answer mem h.inv hgood hperform
          exact h.set hinv (hnext input answer mem hperform) hrely
  | spawn t call =>
    simp only [System.step]
    cases hspawn : M.spawn t call sys.mem with
    | none => exact h
    | some mem =>
      obtain ⟨hinv, hspawned, hrely⟩ := D.spawn t call sys.mem mem h.inv hspawn
      exact h.set hinv (hcode t call mem hinv hspawned) hrely
  | world w =>
    obtain ⟨hinv, hrely⟩ := D.world w sys.mem h.inv
    exact ⟨hinv, fun t p hp => (h.safe t p hp).rely (hrely t)⟩
  | abandon t =>
    simp only [System.step]
    cases ht : sys.threads t with
    | none => exact h
    | some p =>
      obtain ⟨hinv, hrely⟩ := D.abandon t sys.mem h.inv
      exact h.set hinv (fun _ _ _ => trivial) hrely
  | restart r => exact .idle (D.restart r sys.mem h.inv)

/-- **If the code of every call keeps to the discipline, so does every run.** -/
theorem System.run_disciplined
    (hcode : ∀ t call, Triple D t (D.spawned t call) (M.code call) (fun _ _ => True))
    (sys : System Act Ans Mem) (events : List (SystemEvent Input World Restart Call))
    (h : sys.Disciplined D) : (sys.run M events).Disciplined D :=
  run_invariant (System.step M) (System.Disciplined D) (System.step_disciplined hcode) sys events h

/-- INTERNAL: what an event keeps that starts no new process. -/
theorem System.step_grows (sys : System Act Ans Mem) (event : SystemEvent Input World Restart Call)
    (h : sys.Disciplined D) (hevent : ∀ r, event ≠ .restart r) :
    D.grows sys.mem (sys.step M event).mem := by
  have hrefl : D.grows sys.mem sys.mem := D.rely_grows 0 _ _ (D.rely_refl 0 sys.mem)
  cases event with
  | run t input =>
    simp only [System.step]
    cases ht : sys.threads t with
    | none => exact hrefl
    | some p =>
      cases p with
      | done value => exact hrefl
      | act a next =>
        simp only [System.advance]
        cases hperform : M.perform t a input sys.mem with
        | none => exact hrefl
        | some result =>
          have hgood := (h.safe t _ ht sys.mem (D.rely_refl t _) h.inv).1
          exact (D.perform t a sys.mem input result.1 result.2 h.inv hgood hperform).2.1
  | spawn t call =>
    simp only [System.step]
    cases hspawn : M.spawn t call sys.mem with
    | none => exact hrefl
    | some mem =>
      have hrely := (D.spawn t call sys.mem mem h.inv hspawn).2.2
      exact D.rely_grows _ _ _ (hrely (t + 1) (Nat.succ_ne_self t))
  | world w => exact D.rely_grows _ _ _ ((D.world w sys.mem h.inv).2 0)
  | abandon t =>
    simp only [System.step]
    cases sys.threads t with
    | none => exact hrefl
    | some p =>
      have hrely := (D.abandon t sys.mem h.inv).2
      exact D.rely_grows _ _ _ (hrely (t + 1) (Nat.succ_ne_self t))
  | restart r => exact absurd rfl (hevent r)

/-- **What every step keeps, a run keeps in which no new process starts.** -/
theorem System.run_grows
    (hcode : ∀ t call, Triple D t (D.spawned t call) (M.code call) (fun _ _ => True))
    (htrans : ∀ m m₁ m₂, D.grows m m₁ → D.grows m₁ m₂ → D.grows m m₂)
    (sys : System Act Ans Mem) (events : List (SystemEvent Input World Restart Call))
    (h : sys.Disciplined D) (hevents : ∀ r, SystemEvent.restart r ∉ events) :
    D.grows sys.mem (sys.run M events).mem := by
  induction events generalizing sys with
  | nil => exact D.rely_grows 0 _ _ (D.rely_refl 0 sys.mem)
  | cons event events ih =>
    have hstep := sys.step_grows event h fun r hr => hevents r (hr ▸ List.mem_cons_self)
    have hrest := ih (sys.step M event) (System.step_disciplined hcode sys event h)
      fun r hr => hevents r (List.mem_cons_of_mem event hr)
    exact htrans _ _ _ hstep hrest

end Runs

end VaultAccess.Library
