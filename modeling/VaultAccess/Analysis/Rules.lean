import VaultAccess.Analysis.Atomic

/-!
# Rules for the application's programs

What a thread holds is a list of mutexes, and what it knows is a fact about the memory.
A fact may last as long as the process does, or only while the thread holds the gate and
takes calm actions. A program is orderly when it keeps to the discipline, gives back what
it takes, and keeps what it knows.
-/

set_option autoImplicit false

namespace VaultAccess.Analysis

open VaultAccess.Library VaultAccess.Model VaultAccess.Model.Application

/-- A thread of the application. -/
structure Thread where
  E : Externals
  ownerUid : UInt32
  requestLifetime : ℕ
  number : ℕ

/-- The thread holds the mutexes and the fact holds. -/
structure Held (t : ℕ) (H : List Lock) (F : Shared → Prop) (m : Shared) : Prop where
  locks : ∀ l ∈ H, Holds t l m
  fact : F m

/-- Actions that leave the authority, the tokens, what was created, and the gate. -/
def calm : Act → Bool
  | .update _ | .provider _ | .insertToken .. | .createSecret .. | .release .gate => false
  | _ => true

/-- Calm actions that may be performed anywhere. -/
def plain : Act → Bool
  | .update _ | .provider _ | .insertToken .. | .createSecret .. | .release _ | .storeClosing
  | .publishEpoch | .setFlag _ | .newFlag | .register .. | .removeExecution _ | .handOver _
  | .returnsCancelled .. | .returnsAnswer .. => false
  | _ => true

/-- The action does not give up one of the mutexes. -/
def keepsLocks (H : List Lock) : Act → Prop
  | .release l => l ∉ H
  | _ => True

namespace Thread

variable (T : Thread)

/-- What the thread keeps to. -/
def discipline : Discipline (machine T.E T.ownerUid T.requestLifetime) :=
  Analysis.discipline T.E T.ownerUid T.requestLifetime

/-- A fact that the steps of others keep. -/
def Stable (F : Shared → Prop) : Prop := ∀ m m₁, Rely T.number m m₁ → Inv T.E m₁ → F m → F m₁

/-- A fact that an action of the thread keeps. -/
def Kept (a : Act) (F : Shared → Prop) : Prop :=
  ∀ input answer m m₁, Inv T.E m → F m →
    performAct T.E T.ownerUid T.number a input m = some (answer, m₁) → Inv T.E m₁ → Grows m m₁ → F m₁

/-- A fact that every step of the process keeps. -/
def Lasts (F : Shared → Prop) : Prop := ∀ m m₁, Grows m m₁ → Inv T.E m₁ → F m → F m₁

/-- A fact that others keep, and the calm actions of the thread. -/
structure Steady (F : Shared → Prop) : Prop where
  stable : T.Stable F
  kept : ∀ a, calm a = true → T.Kept a F

variable {T}

theorem Lasts.stable {F : Shared → Prop} (h : T.Lasts F) : T.Stable F :=
  fun m m₁ hrely hinv hm => h m m₁ hrely.toGrows hinv hm

theorem Lasts.kept {F : Shared → Prop} (h : T.Lasts F) (a : Act) : T.Kept a F :=
  fun _ _ m m₁ _ hm _ hinv hgrows => h m m₁ hgrows hinv hm

theorem Lasts.steady {F : Shared → Prop} (h : T.Lasts F) : T.Steady F :=
  ⟨h.stable, fun a _ => h.kept a⟩

theorem Lasts.and {F G : Shared → Prop} (hF : T.Lasts F) (hG : T.Lasts G) :
    T.Lasts fun m => F m ∧ G m :=
  fun m m₁ hgrows hinv hm => ⟨hF m m₁ hgrows hinv hm.1, hG m m₁ hgrows hinv hm.2⟩

/-- INTERNAL: both of two steady facts. -/
theorem Steady.and {F G : Shared → Prop} (hF : T.Steady F) (hG : T.Steady G) :
    T.Steady fun m => F m ∧ G m :=
  ⟨fun m m₁ hrely hinv hm => ⟨hF.stable m m₁ hrely hinv hm.1, hG.stable m m₁ hrely hinv hm.2⟩,
    fun a ha input answer m m₁ hi hm hperform hi₁ hgrows =>
      ⟨hF.kept a ha input answer m m₁ hi hm.1 hperform hi₁ hgrows,
        hG.kept a ha input answer m m₁ hi hm.2 hperform hi₁ hgrows⟩⟩

theorem held_stable {H : List Lock} {F : Shared → Prop} (h : T.Stable F) :
    T.Stable (Held T.number H F) :=
  fun m m₁ hrely hinv hm =>
    ⟨fun l hl => (hrely.holder l).mpr (hm.locks l hl), h m m₁ hrely hinv hm.fact⟩

end Thread

/-- INTERNAL: **an action gives up no mutex but the one it releases.** -/
theorem holds_performAct {E : Externals} {ownerUid : UInt32} {t : ℕ} (H : List Lock) (a : Act)
    {input : Input} {answer : Ans a} {m m₁ : Shared} (hkeeps : keepsLocks H a)
    (hperform : performAct E ownerUid t a input m = some (answer, m₁)) (hm : ∀ l ∈ H, Holds t l m) :
    ∀ l ∈ H, Holds t l m₁ := by
  have htake : ∀ l', ∀ l ∈ H, Holds t l (m.take t l') := by
    intro l' l hl
    by_cases heq : l = l'
    · simp [Holds, Shared.take, heq]
    · simpa [Holds, Shared.take, Function.update_of_ne heq] using hm l hl
  cases a with
  | acquire l' e =>
    simp only [performAct] at hperform
    split_ifs at hperform
    · rw [← (Prod.mk.inj (Option.some.inj hperform)).2]
      exact hm
    · rw [← (Prod.mk.inj (Option.some.inj hperform)).2]
      exact htake l'
  | tryAcquire l' =>
    simp only [performAct] at hperform
    split_ifs at hperform
    · rw [← (Prod.mk.inj (Option.some.inj hperform)).2]
      exact hm
    · rw [← (Prod.mk.inj (Option.some.inj hperform)).2]
      exact hm
    · rw [← (Prod.mk.inj (Option.some.inj hperform)).2]
      exact htake l'
  | force l' =>
    simp only [performAct] at hperform
    split_ifs at hperform
    rw [← (Prod.mk.inj (Option.some.inj hperform)).2]
    exact htake l'
  | reacquire ids =>
    simp only [performAct] at hperform
    split_ifs at hperform
    · rw [← (Prod.mk.inj (Option.some.inj hperform)).2]
      exact hm
    · rw [← (Prod.mk.inj (Option.some.inj hperform)).2]
      exact htake .executions
  | release l' =>
    simp only [performAct] at hperform
    split_ifs at hperform
    rw [← (Prod.mk.inj (Option.some.inj hperform)).2]
    intro l hl
    have hne : l ≠ l' := fun heq => hkeeps (heq ▸ hl)
    simpa [Holds, Shared.drop, Function.update_of_ne hne] using hm l hl
  | stall => simp [performAct] at hperform
  | loadClosing | storeClosing | loadEpoch | publishEpoch | loadUncertain | storeUncertain
  | newFlag | loadFlag | setFlag | now | unixSeconds | readAuthority | update | readState
  | provider | backend | eligible | resolve | unlock | port | lookupToken | insertToken
  | lookupExecution | listExecutions | register | removeExecution | supervise | handOver
  | createSecret | returnsCancelled | returnsAnswer =>
    rw [← (Prod.mk.inj (Option.some.inj hperform)).2]
    exact hm

theorem plain_spec {a : Act} (h : plain a = true) :
    calm a = true ∧ (∀ H, keepsLocks H a) ∧ ∀ t m, Good t a m := by
  cases a <;> simp_all [plain, calm, keepsLocks, Good]

section Rules

variable (T : Thread) {ε δ α β : Type}

/-- Holding the mutexes and knowing `F`, the program keeps to the discipline; it ends knowing `G`,
or fails knowing `R`, and holds the same mutexes. -/
def Does (H : List Lock) (F : Shared → Prop) (x : App ε α) (G : α → Shared → Prop)
    (R : Shared → Prop) : Prop :=
  Spec T.discipline T.number (Held T.number H F) x (fun value => Held T.number H (G value))
    (Held T.number H R)

/-- **The program keeps to the discipline, and keeps the fact.** -/
def Orderly (H : List Lock) (F : Shared → Prop) (x : App ε α) : Prop :=
  Does T H F x (fun _ => F) F

variable {T} {H : List Lock} {F R : Shared → Prop} {G : α → Shared → Prop}

/-! ## Values and sequences -/

theorem does_pure {value : α} (hF : T.Stable F) (h : ∀ m, Inv T.E m → F m → G value m) :
    Does T H F (pure value : App ε α) G R :=
  Spec.pure (Thread.held_stable hF) fun m hinv hm => ⟨hm.locks, h m hinv hm.fact⟩

theorem does_throw {e : ε} (hF : T.Stable F) (h : ∀ m, Inv T.E m → F m → R m) :
    Does T H F (throw e : App ε α) G R :=
  Spec.throw (Thread.held_stable hF) fun m hinv hm => ⟨hm.locks, h m hinv hm.fact⟩

/-- INTERNAL: **the rule of sequence.** -/
theorem does_bind {G' : β → Shared → Prop} {x : App ε α} {f : α → App ε β} (hR : T.Stable R)
    (hx : Does T H F x G R) (hf : ∀ value, Does T H (G value) (f value) G' R) :
    Does T H F (x >>= f) G' R :=
  Spec.bind (Thread.held_stable hR) hx hf

/-- INTERNAL: **the rule of consequence.** -/
theorem does_conseq {F' R' : Shared → Prop} {G' : α → Shared → Prop} {x : App ε α}
    (h : Does T H F x G R) (hpre : ∀ m, Inv T.E m → F' m → F m)
    (hok : ∀ value m, Inv T.E m → G value m → G' value m)
    (herror : ∀ m, Inv T.E m → R m → R' m) : Does T H F' x G' R' :=
  Spec.conseq h (fun m hinv hm => ⟨hm.locks, hpre m hinv hm.fact⟩)
    (fun value m hinv hm => ⟨hm.locks, hok value m hinv hm.fact⟩)
    fun m hinv hm => ⟨hm.locks, herror m hinv hm.fact⟩

/-- INTERNAL: **the frame rule.** -/
theorem does_frame {F' : Shared → Prop} {x : App ε α} (hF' : T.Lasts F') (h : Does T H F x G R) :
    Does T H (fun m => F m ∧ F' m) x (fun value m => G value m ∧ F' m) (fun m => R m ∧ F' m) :=
  Spec.conseq (Spec.frame h hF') (fun _ _ hm => ⟨⟨hm.locks, hm.fact.1⟩, hm.fact.2⟩)
    (fun _ _ _ hm => ⟨hm.1.locks, hm.1.fact, hm.2⟩) fun _ _ hm => ⟨hm.1.locks, hm.1.fact, hm.2⟩

/-- INTERNAL: an action of the application. -/
theorem spec_act {a : Act} {P : Shared → Prop} {Q : Ans a → Shared → Prop} (hP : T.Stable P)
    (hQ : ∀ answer, T.Stable (Q answer)) (hgood : ∀ m, Inv T.E m → P m → Good T.number a m)
    (hpost : ∀ m input answer m₁, Inv T.E m → P m →
      performAct T.E T.ownerUid T.number a input m = some (answer, m₁) → Inv T.E m₁ →
      Grows m m₁ → Q answer m₁) :
    Spec T.discipline T.number P (act a : App ε (Ans a)) Q R := by
  refine Spec.act hP hQ hgood fun m input answer m₁ hinv hm hperform => ?_
  have hstep := @keeps_performAct T.E T.ownerUid T.number m a input answer m₁ hinv
    (hgood m hinv hm) hperform
  exact hpost m input answer m₁ hinv hm hperform hstep.inv hstep.grows

/-- INTERNAL: **the rule of an action.** -/
theorem does_act {a : Act} {G : Ans a → Shared → Prop} (hkeeps : keepsLocks H a)
    (hF : T.Stable F) (hG : ∀ answer, T.Stable (G answer))
    (hgood : ∀ m, Inv T.E m → Held T.number H F m → Good T.number a m)
    (hpost : ∀ m input answer m₁, Inv T.E m → Held T.number H F m →
      performAct T.E T.ownerUid T.number a input m = some (answer, m₁) → Inv T.E m₁ →
      Grows m m₁ → G answer m₁) : Does T H F (act a : App ε (Ans a)) G R := by
  refine spec_act (Thread.held_stable hF) (fun answer => Thread.held_stable (hG answer)) hgood ?_
  intro m input answer m₁ hinv hm hperform hinv₁ hgrows
  exact ⟨holds_performAct H a hkeeps hperform hm.locks,
    hpost m input answer m₁ hinv hm hperform hinv₁ hgrows⟩

/-- INTERNAL: a program whose failure is a value. -/
theorem does_attempt {x : App ε α} {S : Shared → Prop} (hG : ∀ value, T.Stable (G value))
    (hR : T.Stable R) (h : Does T H F x G R) :
    Does T H F (attempt x : App δ (Except ε α)) (Ends G R) S := by
  have hstable : ∀ result : Except ε α, T.Stable (Ends G R result) := by
    intro result
    cases result with
    | ok value => exact hG value
    | error e => exact hR
  refine Spec.attempt (fun result => Thread.held_stable (hstable result)) ?_
  refine Triple.conseq h (fun _ _ hm => hm) fun result m _ hm => ?_
  cases result with
  | ok value => exact hm
  | error e => exact hm

theorem does_adapt {x : App ε α} (f : ε → δ) (hG : ∀ value, T.Stable (G value)) (hR : T.Stable R)
    (h : Does T H F x G R) : Does T H F (x.adapt f : App δ α) G R :=
  Spec.adapt f (fun value => Thread.held_stable (hG value)) (Thread.held_stable hR) h

/-- INTERNAL: `?` on a value. -/
theorem does_ofExcept {result : Except ε α} (f : ε → δ) (hF : T.Stable F)
    (hok : ∀ value, result = .ok value → ∀ m, Inv T.E m → F m → G value m)
    (herror : ∀ m, Inv T.E m → F m → R m) : Does T H F (ofExcept f result : App δ α) G R := by
  cases result with
  | ok value => exact does_pure hF (hok value rfl)
  | error e => exact does_throw hF herror

/-- INTERNAL: `?` on a value that may be missing. -/
theorem does_okOr {e : ε} {value? : Option α} (hF : T.Stable F)
    (hok : ∀ value, value? = some value → ∀ m, Inv T.E m → F m → G value m)
    (herror : ∀ m, Inv T.E m → F m → R m) : Does T H F (okOr e value? : App ε α) G R := by
  cases value? with
  | some value => exact does_pure hF (hok value rfl)
  | none => exact does_throw hF herror

/-- INTERNAL: a value that is there. -/
@[simp]
theorem okOr_some_bind {e : ε} {value : α} {f : α → App ε β} :
    (okOr e (some value) >>= f) = f value := rfl

/-- INTERNAL: a value that is missing. -/
@[simp]
theorem okOr_none_bind {e : ε} {f : α → App ε β} : (okOr e none >>= f) = throw e := rfl

/-- INTERNAL: an early failure. -/
theorem does_guard {c : Prop} [Decidable c] {e : ε} {k : Unit → App ε α} (hF : T.Stable F)
    (herror : c → ∀ m, Inv T.E m → F m → R m) (hR : T.Stable R)
    (hk : ¬ c → Does T H F (k ()) G R) :
    Does T H F (if c then throw e >>= k else k ()) G R := by
  split_ifs with hc
  · refine does_bind (G := fun _ _ => False) hR (does_throw hF (herror hc)) fun _ => ?_
    exact fun m _ hm => hm.fact.elim
  · exact hk hc

theorem does_choose {c : Prop} [Decidable c] {x y : App ε β} {k : β → App ε α}
    {G' : β → Shared → Prop} (hR : T.Stable R) (hx : c → Does T H F x G' R)
    (hy : ¬ c → Does T H F y G' R) (hk : ∀ value, Does T H (G' value) (k value) G R) :
    Does T H F (if c then x >>= k else y >>= k) G R :=
  Spec.choose (Thread.held_stable hR) hx hy hk

/-! ## Mutexes -/

/-- INTERNAL: the scope of a guard. -/
theorem spec_holding {l : Lock} {body : App ε α} (hl : l ∉ H) (hG : ∀ value, T.Stable (G value))
    (hR : T.Stable R) (hkeptG : ∀ value, T.Kept (.release l) (G value))
    (hkeptR : T.Kept (.release l) R) (hbody : Does T (l :: H) F body G R) :
    Spec T.discipline T.number (Held T.number (l :: H) F) (holding l body)
      (fun value => Held T.number H (G value)) (Held T.number H R) := by
  have hends : ∀ (H : List Lock) (result : Except ε α), T.Stable (Held T.number H (Ends G R result)) := by
    intro H result
    refine Thread.held_stable ?_
    cases result with
    | ok value => exact hG value
    | error e => exact hR
  refine Spec.bind (Q := fun result => Held T.number (l :: H) (Ends G R result))
    (Thread.held_stable hR) (does_attempt (S := R) hG hR hbody |>.conseq (fun _ _ hm => hm)
      (fun _ _ _ hm => hm) fun m _ hm => ⟨fun l' hl' => hm.locks l' (List.mem_cons_of_mem _ hl'),
        hm.fact⟩) fun result => ?_
  refine Spec.bind (Q := fun _ => Held T.number H (Ends G R result)) (Thread.held_stable hR)
    (spec_act (hends _ result) (fun _ => hends _ result)
      (fun m _ hm => hm.locks l (List.mem_cons_self ..)) ?_) fun _ => ?_
  · intro m input answer m₁ hinv hm hperform hinv₁ hgrows
    refine ⟨holds_performAct H (.release l) hl hperform fun l' hl' =>
      hm.locks l' (List.mem_cons_of_mem _ hl'), ?_⟩
    cases result with
    | ok value => exact hkeptG value input answer m m₁ hinv hm.fact hperform hinv₁ hgrows
    | error e => exact hkeptR input answer m m₁ hinv hm.fact hperform hinv₁ hgrows
  · cases result with
    | ok value => exact Spec.pure (hends H (.ok value)) fun _ _ hm => hm
    | error e => exact Spec.throw (hends H (.error e)) fun _ _ hm => hm

/-- INTERNAL: a mutex that was free is held. -/
theorem held_acquire {l : Lock} {e : Option ℕ} {input : Input} {m m₁ : Shared}
    (hm : ∀ l ∈ H, Holds T.number l m)
    (hperform : performAct T.E T.ownerUid T.number (.acquire l e) input m = some (true, m₁)) :
    ∀ l' ∈ l :: H, Holds T.number l' m₁ := by
  intro l' hl'
  rcases List.mem_cons.mp hl' with rfl | hl'
  · simp only [performAct] at hperform
    split_ifs at hperform
    · simp at hperform
    · rw [← (Prod.mk.inj (Option.some.inj hperform)).2]
      simp [Holds, Shared.take]
  · exact holds_performAct H (.acquire l e) trivial hperform hm l' hl'

/-- INTERNAL: a mutex is taken or poisoned; an entry to claim is noted with it. -/
theorem spec_acquire {l : Lock} {e : Option ℕ} {F' : Shared → Prop} {f : Bool → App ε α}
    {Q : α → Shared → Prop} {R : Shared → Prop} (hF : T.Stable F) (hF' : T.Stable F')
    (hkept : T.Kept (.acquire l e) F)
    (hpost : ∀ m input m₁, Inv T.E m → Held T.number H F m →
      performAct T.E T.ownerUid T.number (.acquire l e) input m = some (true, m₁) → Inv T.E m₁ →
      Grows m m₁ → F' m₁) (hR : T.Stable R)
    (htaken : Spec T.discipline T.number (Held T.number (l :: H) F') (f true) Q R)
    (hfailed : Spec T.discipline T.number (Held T.number H F) (f false) Q R) :
    Spec T.discipline T.number (Held T.number H F) (act (.acquire l e) >>= f) Q R := by
  refine Spec.bind (Q := fun ok m => if ok = true then Held T.number (l :: H) F' m
    else Held T.number H F m) hR (spec_act (Thread.held_stable hF) ?_
      (fun _ _ _ => trivial) ?_) fun ok => ?_
  · intro ok
    cases ok with
    | true => exact Thread.held_stable hF'
    | false => exact Thread.held_stable hF
  · intro m input ok m₁ hinv hm hperform hinv₁ hgrows
    cases ok with
    | true =>
      exact ⟨held_acquire hm.locks hperform,
        hpost m input m₁ hinv hm hperform hinv₁ hgrows⟩
    | false =>
      exact ⟨holds_performAct H (.acquire l e) trivial hperform hm.locks,
        hkept input false m m₁ hinv hm.fact hperform hinv₁ hgrows⟩
  · cases ok with
    | true => exact htaken
    | false => exact hfailed

/-- INTERNAL: **a guard.** -/
theorem does_withLock {l : Lock} {e : ε} {body : App ε α} (hl : l ∉ H) (hF : T.Stable F)
    (hG : ∀ value, T.Stable (G value)) (hR : T.Stable R) (hkept : T.Kept (.acquire l none) F)
    (hkeptG : ∀ value, T.Kept (.release l) (G value)) (hkeptR : T.Kept (.release l) R)
    (hFR : ∀ m, Inv T.E m → F m → R m) (hbody : Does T (l :: H) F body G R) :
    Does T H F (withLock l e body) G R :=
  spec_acquire hF hF hkept (fun m input m₁ hinv hm hperform hinv₁ hgrows =>
      hkept input true m m₁ hinv hm.fact hperform hinv₁ hgrows) (Thread.held_stable hR)
    (spec_holding hl hG hR hkeptG hkeptR hbody) (does_throw hF hFR)

/-! ## Orderly programs -/

theorem orderly_pure {value : α} (hF : T.Stable F) : Orderly T H F (pure value : App ε α) :=
  does_pure hF fun _ _ hm => hm

theorem orderly_throw {e : ε} (hF : T.Stable F) : Orderly T H F (throw e : App ε α) :=
  does_throw hF fun _ _ hm => hm

theorem orderly_throwBind {e : ε} {k : β → App ε α} (hF : T.Stable F) :
    Orderly T H F (throw e >>= k) := does_throw hF fun _ _ hm => hm

theorem orderly_bind {x : App ε α} {f : α → App ε β} (hF : T.Stable F) (hx : Orderly T H F x)
    (hf : ∀ value, Orderly T H F (f value)) : Orderly T H F (x >>= f) := does_bind hF hx hf

theorem does_of_orderly {x : App ε α} (h : Orderly T H F x) (hR : ∀ m, F m → R m) :
    Does T H F x (fun _ => F) R :=
  does_conseq h (fun _ _ hm => hm) (fun _ _ _ hm => hm) fun m _ hm => hR m hm

theorem orderly_act {a : Act} (hkeeps : keepsLocks H a) (hF : T.Stable F) (hkept : T.Kept a F)
    (hgood : ∀ m, Inv T.E m → Held T.number H F m → Good T.number a m) :
    Orderly T H F (act a : App ε (Ans a)) :=
  does_act hkeeps hF (fun _ => hF) hgood fun m input answer m₁ hinv hm hperform hinv₁ hgrows =>
    hkept input answer m m₁ hinv hm.fact hperform hinv₁ hgrows

/-- INTERNAL: a plain action does not fail. -/
theorem does_plain {a : Act} (hF : T.Steady F) (h : plain a = true) :
    Does T H F (act a : App ε (Ans a)) (fun _ => F) R := by
  obtain ⟨hcalm, hkeeps, hgood⟩ := plain_spec h
  exact does_act (hkeeps H) hF.stable (fun _ => hF.stable) (fun m _ _ => hgood T.number m)
    fun m input answer m₁ hinv hm hperform hinv₁ hgrows =>
      hF.kept a hcalm input answer m m₁ hinv hm.fact hperform hinv₁ hgrows

theorem orderly_plain {a : Act} (hF : T.Steady F) (h : plain a = true) :
    Orderly T H F (act a : App ε (Ans a)) := does_plain hF h

/-- INTERNAL: a program whose failure is a value. -/
theorem orderly_attempt {x : App ε α} (hF : T.Stable F) (h : Orderly T H F x) :
    Orderly T H F (attempt x : App δ (Except ε α)) := by
  refine does_conseq (does_attempt (S := F) (fun _ => hF) hF h) (fun _ _ hm => hm) ?_
    fun _ _ hm => hm
  intro result m _ hm
  cases result with
  | ok value => exact hm
  | error e => exact hm

theorem orderly_adapt {x : App ε α} (f : ε → δ) (hF : T.Stable F) (h : Orderly T H F x) :
    Orderly T H F (x.adapt f : App δ α) := does_adapt f (fun _ => hF) hF h

theorem orderly_ofExcept {result : Except ε α} (f : ε → δ) (hF : T.Stable F) :
    Orderly T H F (ofExcept f result : App δ α) :=
  does_ofExcept f hF (fun _ _ _ _ hm => hm) fun _ _ hm => hm

theorem orderly_okOr {e : ε} {value? : Option α} (hF : T.Stable F) :
    Orderly T H F (okOr e value? : App ε α) :=
  does_okOr hF (fun _ _ _ _ hm => hm) fun _ _ hm => hm

theorem orderly_guard {c : Prop} [Decidable c] {e : ε} {k : Unit → App ε α} (hF : T.Stable F)
    (hk : ¬ c → Orderly T H F (k ())) :
    Orderly T H F (if c then throw e >>= k else k ()) :=
  does_guard hF (fun _ _ _ hm => hm) hF hk

theorem orderly_ite {c : Prop} [Decidable c] {x y : App ε α} (hx : c → Orderly T H F x)
    (hy : ¬ c → Orderly T H F y) : Orderly T H F (if c then x else y) := by
  split_ifs with hc
  · exact hx hc
  · exact hy hc

theorem orderly_choose {c : Prop} [Decidable c] {x y : App ε β} {k : β → App ε α} (hF : T.Stable F)
    (hx : c → Orderly T H F x) (hy : ¬ c → Orderly T H F y)
    (hk : ∀ value, Orderly T H F (k value)) :
    Orderly T H F (if c then x >>= k else y >>= k) := does_choose hF hx hy hk

theorem orderly_withLock {l : Lock} {e : ε} {body : App ε α} (hF : T.Steady F) (hl : l ∉ H)
    (hgate : l ≠ .gate) (hbody : Orderly T (l :: H) F body) : Orderly T H F (withLock l e body) := by
  have hrelease : calm (.release l) = true := by cases l <;> simp_all [calm]
  exact does_withLock hl hF.stable (fun _ => hF.stable) hF.stable (hF.kept _ rfl)
    (fun _ => hF.kept _ hrelease) (hF.kept _ hrelease) (fun _ _ hm => hm) hbody

theorem orderly_withGate {e : ε} {body : App ε α} (hF : T.Lasts F) (hl : .gate ∉ H)
    (hbody : Orderly T (.gate :: H) F body) : Orderly T H F (withLock .gate e body) :=
  does_withLock hl hF.stable (fun _ => hF.stable) hF.stable (hF.kept _) (fun _ => hF.kept _)
    (hF.kept _) (fun _ _ hm => hm) hbody

end Rules

end VaultAccess.Analysis
