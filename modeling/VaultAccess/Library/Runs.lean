import Mathlib.Data.List.Basic
import Mathlib.Data.Nat.Notation

/-!
# Runs of a machine

A machine is a step function on states; a run folds it over a list of events. The
rules here carry a property from one step to whole runs: invariants, relations
between a state and every later one, and events that happen at most once.
-/

set_option autoImplicit false

namespace VaultAccess.Library

variable {State Event : Type}

/-- Every event satisfies `P` in the state where it happens. -/
def Along (step : State → Event → State) (P : State → Event → Prop) : State → List Event → Prop
  | _, [] => True
  | s, e :: rest => P s e ∧ Along step P (step s e) rest

/-- How many events of a run are marked in the state where they happen. -/
def countMarked (step : State → Event → State) (marked : State → Event → Bool) :
    State → List Event → ℕ
  | _, [] => 0
  | s, e :: rest => (if marked s e then 1 else 0) + countMarked step marked (step s e) rest

/-- INTERNAL: weaker conditions hold along the same runs. -/
theorem Along.imp {step : State → Event → State} {P Q : State → Event → Prop}
    (himp : ∀ s e, P s e → Q s e) {s : State} {events : List Event}
    (h : Along step P s events) : Along step Q s events := by
  induction events generalizing s with
  | nil => trivial
  | cons e rest ih => exact ⟨himp s e h.1, ih h.2⟩

/-- INTERNAL: what each event satisfies by itself. -/
theorem Along.and_mem {step : State → Event → State} {P : State → Event → Prop} {Q : Event → Prop}
    {s : State} {events : List Event} (h : Along step P s events) (hmem : ∀ e ∈ events, Q e) :
    Along step (fun s e => P s e ∧ Q e) s events := by
  induction events generalizing s with
  | nil => trivial
  | cons e rest ih =>
    exact ⟨⟨h.1, hmem e List.mem_cons_self⟩, ih h.2 fun e' he' => hmem e' (List.mem_cons_of_mem e he')⟩

/-- **What the events keep holds where each of them happens.** -/
theorem Along.and_inv {step : State → Event → State} {P : State → Event → Prop} {Inv : State → Prop}
    (hstep : ∀ s e, Inv s → P s e → Inv (step s e)) {s : State} {events : List Event}
    (h : Along step P s events) (hs : Inv s) : Along step (fun s e => P s e ∧ Inv s) s events := by
  induction events generalizing s with
  | nil => trivial
  | cons e rest ih => exact ⟨⟨h.1, hs⟩, ih h.2 (hstep s e hs h.1)⟩

/-- Every event passes a check in the state where it happens, and the last state passes one. -/
def checkRun (step : State → Event → State) (check : State → Event → Bool) (last : State → Bool) :
    State → List Event → Bool
  | s, [] => last s
  | s, e :: rest => check s e && checkRun step check last (step s e) rest

/-- **What one evaluation of a run tells.** -/
theorem along_of_checkRun {step : State → Event → State} {check : State → Event → Bool}
    {last : State → Bool} {s : State} {events : List Event}
    (h : checkRun step check last s events = true) :
    Along step (fun s e => check s e = true) s events ∧ last (events.foldl step s) = true := by
  induction events generalizing s with
  | nil => exact ⟨trivial, h⟩
  | cons e rest ih =>
    simp only [checkRun, Bool.and_eq_true] at h
    obtain ⟨halong, hlast⟩ := ih h.2
    exact ⟨⟨h.1, halong⟩, hlast⟩

/-- **The invariant rule**, for runs whose events satisfy `P`. -/
theorem run_invariant_along (step : State → Event → State) (Inv : State → Prop)
    (P : State → Event → Prop) (hstep : ∀ s e, Inv s → P s e → Inv (step s e)) (s : State)
    (events : List Event) (h : Inv s) (halong : Along step P s events) :
    Inv (events.foldl step s) := by
  induction events generalizing s with
  | nil => exact h
  | cons e rest ih => exact ih (step s e) (hstep s e h halong.1) halong.2

/-- **The invariant rule.** -/
theorem run_invariant (step : State → Event → State) (Inv : State → Prop)
    (hstep : ∀ s e, Inv s → Inv (step s e)) (s : State) (events : List Event) (h : Inv s) :
    Inv (events.foldl step s) := by
  induction events generalizing s with
  | nil => exact h
  | cons e rest ih => exact ih (step s e) (hstep s e h)

/-- **What one step relates, a run relates.** -/
theorem run_relation (step : State → Event → State) (Inv : State → Prop)
    (R : State → State → Prop) (hrefl : ∀ s, R s s) (htrans : ∀ a b c, R a b → R b c → R a c)
    (hinv : ∀ s e, Inv s → Inv (step s e)) (hstep : ∀ s e, Inv s → R s (step s e)) (s : State)
    (events : List Event) (h : Inv s) : R s (events.foldl step s) := by
  induction events generalizing s with
  | nil => exact hrefl s
  | cons e rest ih => exact htrans _ _ _ (hstep s e h) (ih (step s e) (hinv s e h))

/-- INTERNAL: nothing is marked after a state that rules it out for good. -/
theorem countMarked_eq_zero (step : State → Event → State) (marked : State → Event → Bool)
    (Inv Done : State → Prop) (hinv : ∀ s e, Inv s → Inv (step s e))
    (hdone : ∀ s e, Inv s → Done s → Done (step s e) ∧ marked s e = false) (s : State)
    (events : List Event) (h : Inv s) (hd : Done s) : countMarked step marked s events = 0 := by
  induction events generalizing s with
  | nil => rfl
  | cons e rest ih =>
    obtain ⟨hnext, hunmarked⟩ := hdone s e h hd
    simp only [countMarked, hunmarked, Bool.false_eq_true, if_false, Nat.zero_add]
    exact ih (step s e) (hinv s e h) hnext

/-- **An event that rules itself out happens at most once.** -/
theorem countMarked_le_one (step : State → Event → State) (marked : State → Event → Bool)
    (Inv Done : State → Prop) (hinv : ∀ s e, Inv s → Inv (step s e))
    (hdone : ∀ s e, Inv s → Done s → Done (step s e) ∧ marked s e = false)
    (hmarked : ∀ s e, Inv s → marked s e = true → Done (step s e)) (s : State)
    (events : List Event) (h : Inv s) : countMarked step marked s events ≤ 1 := by
  induction events generalizing s with
  | nil => exact Nat.zero_le 1
  | cons e rest ih =>
    cases hm : marked s e with
    | true =>
      have hzero := countMarked_eq_zero step marked Inv Done hinv hdone (step s e) rest
        (hinv s e h) (hmarked s e h hm)
      simp only [countMarked, hm, if_true, hzero]
      exact Nat.le_refl 1
    | false =>
      simp only [countMarked, hm, Bool.false_eq_true, if_false, Nat.zero_add]
      exact ih (step s e) (hinv s e h)

/-! ## Histories -/

/-- Every entry of a history satisfies `Φ` after the entries before it. -/
def Each {α : Type} (Φ : List α → α → Prop) (history : List α) : Prop :=
  ∀ before entry after, history = before ++ entry :: after → Φ before entry

theorem each_nil {α : Type} (Φ : List α → α → Prop) : Each Φ [] :=
  fun _ _ _ h => absurd h (by simp)

/-- INTERNAL: where an entry stands in a history with one more entry. -/
theorem split_snoc {α : Type} {history before after : List α} {entry x : α}
    (h : history ++ [entry] = before ++ x :: after) :
    (before = history ∧ x = entry ∧ after = []) ∨
      ∃ rest, after = rest ++ [entry] ∧ history = before ++ x :: rest := by
  rcases List.eq_nil_or_concat after with rfl | ⟨rest, last, rfl⟩
  · obtain ⟨hbefore, hx⟩ := List.append_inj' h rfl
    exact Or.inl ⟨hbefore.symm, (List.cons.inj hx).1.symm, rfl⟩
  · have h' : history ++ [entry] = (before ++ x :: rest) ++ [last] := by simpa using h
    obtain ⟨hhistory, hlast⟩ := List.append_inj' h' rfl
    exact Or.inr ⟨rest, by rw [List.concat_eq_append, hlast], hhistory⟩

/-- **One more entry.** -/
theorem Each.snoc {α : Type} {Φ : List α → α → Prop} {history : List α} (h : Each Φ history)
    {entry : α} (hentry : Φ history entry) : Each Φ (history ++ [entry]) := by
  intro before x after heq
  rcases split_snoc heq with ⟨rfl, rfl, -⟩ | ⟨rest, -, hhistory⟩
  · exact hentry
  · exact h before x rest hhistory

/-! ## Traces -/

variable {Call Answer : Type}

/-- A call that was made: the state it found, its answer and the state it left. -/
structure Entry (State Call Answer : Type) where
  before : State
  call : Call
  answer : Answer
  after : State

/-- The entry of a call made in a state. -/
def entryAt (step : State → Call → Answer × State) (s : State) (call : Call) :
    Entry State Call Answer where
  before := s
  call := call
  answer := (step s call).1
  after := (step s call).2

/-- The entries of a list of calls, each made in the state the one before it left. -/
def trace (step : State → Call → Answer × State) : State → List Call → List (Entry State Call Answer)
  | _, [] => []
  | s, call :: rest => entryAt step s call :: trace step (step s call).2 rest

theorem calls_trace (step : State → Call → Answer × State) (s : State) (calls : List Call) :
    (trace step s calls).map (·.call) = calls := by
  induction calls generalizing s with
  | nil => rfl
  | cons call rest ih => rw [trace, List.map_cons, ih, entryAt]

/-- INTERNAL: an entry of a trace is a call in the state it found, and the entries after
it are the trace from the state it left. -/
theorem trace_split {step : State → Call → Answer × State} {s : State} {calls : List Call}
    {front back : List (Entry State Call Answer)} {e : Entry State Call Answer}
    (h : trace step s calls = front ++ e :: back) :
    e = entryAt step e.before e.call ∧ ∃ rest, back = trace step e.after rest := by
  induction calls generalizing s front with
  | nil => exact absurd h (by simp [trace])
  | cons call rest ih =>
    cases front with
    | nil =>
      obtain ⟨rfl, rfl⟩ := List.cons.inj h
      exact ⟨rfl, rest, rfl⟩
    | cons first front => exact ih (List.cons.inj h).2

/-- INTERNAL: what holds of the first state and is kept by every call holds where each
entry of the trace begins. -/
theorem trace_invariant {step : State → Call → Answer × State} (Inv : State → Prop)
    (hstep : ∀ s call, Inv s → Inv (step s call).2) {s : State} {calls : List Call}
    {front back : List (Entry State Call Answer)} {e : Entry State Call Answer}
    (h : trace step s calls = front ++ e :: back) (hs : Inv s) : Inv e.before := by
  induction calls generalizing s front with
  | nil => exact absurd h (by simp [trace])
  | cons call rest ih =>
    cases front with
    | nil =>
      obtain ⟨rfl, -⟩ := List.cons.inj h
      exact hs
    | cons first front => exact ih (List.cons.inj h).2 (hstep s call hs)

/-- **What every call keeps unless its entry is marked** holds until the first marked
entry. -/
theorem trace_until {step : State → Call → Answer × State} (Inv : State → Prop)
    (Marked : Entry State Call Answer → Prop)
    (hstep : ∀ s call, Inv s → Inv (step s call).2 ∨ Marked (entryAt step s call))
    {s : State} {calls : List Call} {front back : List (Entry State Call Answer)}
    {e : Entry State Call Answer} (h : trace step s calls = front ++ e :: back) (hs : Inv s) :
    Inv e.before ∨ ∃ x ∈ front, Marked x := by
  induction calls generalizing s front with
  | nil => exact absurd h (by simp [trace])
  | cons call rest ih =>
    cases front with
    | nil =>
      obtain ⟨rfl, -⟩ := List.cons.inj h
      exact Or.inl hs
    | cons first front =>
      obtain ⟨rfl, hrest⟩ := List.cons.inj h
      rcases hstep s call hs with hnext | hmarked
      · rcases ih hrest hnext with hinv | ⟨x, hx, hmarked⟩
        · exact Or.inl hinv
        · exact Or.inr ⟨x, List.mem_cons_of_mem _ hx, hmarked⟩
      · exact Or.inr ⟨_, List.mem_cons_self, hmarked⟩

end VaultAccess.Library
