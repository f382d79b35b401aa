import Mathlib.Data.List.Nodup
import Mathlib.Order.Lattice

/-!
# Pages of a sorted list

A page holds the first rows whose keys are behind a cursor, and its own cursor is the key of its
last row if there are more. Who follows the cursors sees every row of a list that stays as it is;
and if the list changes between the pages, still every row whose key is there all the time.
-/

set_option autoImplicit false

namespace VaultAccess.Library.Pages

variable {α κ : Type} [LinearOrder κ] (key : α → κ)

/-- The key is behind the cursor. -/
def behind (after : Option κ) (k : κ) : Bool := after.all fun cursor => decide (cursor < k)

/-- At most so many rows behind a cursor, and the cursor of the next page. -/
def page (rows : List α) (limit : ℕ) (after : Option κ) : List α × Option κ :=
  let left := rows.filter fun row => behind after (key row)
  (left.take limit, if limit < left.length then (left.take limit).getLast?.map key else none)

/-- The pages that are asked for one after the other, each behind the cursor of the one before. -/
def follow (ask : ℕ → Option κ → List α × Option κ) : ℕ → ℕ → Option κ → List (List α × Option κ)
  | 0, _, _ => []
  | fuel + 1, i, after =>
    ask i after :: match (ask i after).2 with
      | none => []
      | some cursor => follow ask fuel (i + 1) (some cursor)

/-- The rows of pages. -/
def rowsOf (pages : List (List α × Option κ)) : List α := pages.flatMap Prod.fst

/-- The last page has no cursor. -/
def Finished (pages : List (List α × Option κ)) : Prop := ∃ front last, pages = front ++ [(last, none)]

/-- Rows in the order of their keys. -/
def Sorted (rows : List α) : Prop := rows.Pairwise fun a b => key a < key b

variable {key}

/-- INTERNAL: behind a cursor that is behind. -/
theorem behind_trans {after : Option κ} {cursor k : κ} (h : behind after cursor = true) (hk : cursor < k) :
    behind after k = true := by
  cases after with
  | none => rfl
  | some first =>
    simp only [behind, Option.all_some, decide_eq_true_eq] at h ⊢
    exact lt_trans h hk

/-! ## One page -/

section Page

variable {rows : List α} {limit : ℕ} {after : Option κ}

theorem mem_page {row : α} (h : row ∈ (page key rows limit after).1) :
    row ∈ rows ∧ behind after (key row) = true :=
  List.mem_filter.mp (List.mem_of_mem_take h)

theorem sorted_page (hsorted : Sorted key rows) : Sorted key (page key rows limit after).1 :=
  (hsorted.filter _).take

/-- INTERNAL: what is behind the last row of a beginning is the rest. -/
theorem filter_behind_last {left : List α} (hleft : Sorted key left) {row : α}
    (hrow : (left.take limit).getLast? = some row) :
    (∀ other ∈ left.take limit, key other ≤ key row) ∧
      left.filter (fun other => behind (some (key row)) (key other)) = left.drop limit := by
  obtain ⟨front, hfront⟩ := List.getLast?_eq_some_iff.mp hrow
  have hmem : row ∈ left.take limit := by
    rw [hfront]
    simp
  have htake := hleft.take (i := limit)
  have hle : ∀ other ∈ left.take limit, key other ≤ key row := by
    rw [hfront] at htake ⊢
    intro other hother
    rcases List.mem_append.mp hother with hother | hother
    · exact le_of_lt ((List.pairwise_append.mp htake).2.2 other hother row (by simp))
    · rw [List.mem_singleton.mp hother]
  refine ⟨hle, ?_⟩
  have hwhole := hleft
  unfold Sorted at hwhole
  rw [← List.take_append_drop limit left] at hwhole
  have hdrop := fun other hother => (List.pairwise_append.mp hwhole).2.2 row hmem other hother
  conv_lhs => rw [← List.take_append_drop limit left]
  rw [List.filter_append, List.filter_eq_nil_iff.mpr, List.nil_append, List.filter_eq_self.mpr]
  · intro other hother
    simp only [behind, Option.all_some, decide_eq_true_eq]
    exact hdrop other hother
  · intro other hother
    simp only [behind, Option.all_some, decide_eq_true_eq, not_lt]
    exact hle other hother

/-- INTERNAL: **a cursor** is the key of the last row of its page. -/
theorem page_cursor (hsorted : Sorted key rows) {cursor : κ}
    (h : (page key rows limit after).2 = some cursor) :
    ∃ row ∈ (page key rows limit after).1, key row = cursor ∧
      (∀ other ∈ (page key rows limit after).1, key other ≤ cursor) ∧
      rows.filter (fun row => behind after (key row)) =
        (page key rows limit after).1 ++ rows.filter fun row => behind (some cursor) (key row) := by
  unfold page at h ⊢
  dsimp only at h ⊢
  have hleft : Sorted key (rows.filter fun row => behind after (key row)) := hsorted.filter _
  split at h
  · obtain ⟨row, hrow, rfl⟩ := Option.map_eq_some_iff.mp h
    obtain ⟨hle, hdrop⟩ := filter_behind_last hleft hrow
    have hmem := List.mem_of_getLast? hrow
    have hbehind := (List.mem_filter.mp (List.mem_of_mem_take hmem)).2
    refine ⟨row, hmem, rfl, hle, ?_⟩
    -- what is behind the new cursor is what the page leaves
    have hrest : rows.filter (fun other => behind (some (key row)) (key other)) =
        (rows.filter fun other => behind after (key other)).filter
          fun other => behind (some (key row)) (key other) := by
      rw [List.filter_filter]
      apply List.filter_congr
      intro other _
      rw [Bool.eq_iff_iff, Bool.and_eq_true]
      constructor
      · intro hother
        refine ⟨hother, ?_⟩
        simp only [behind, Option.all_some, decide_eq_true_eq] at hother
        exact behind_trans hbehind hother
      · exact And.left
    rw [hrest, hdrop, List.take_append_drop]
  · cases h

/-- INTERNAL: the last page holds all that is left. -/
theorem page_last (hlimit : 1 ≤ limit) (h : (page key rows limit after).2 = none) :
    (page key rows limit after).1 = rows.filter fun row => behind after (key row) := by
  unfold page at h ⊢
  dsimp only at h ⊢
  split at h
  · next hmore =>
    have hnil := List.getLast?_eq_none_iff.mp (Option.map_eq_none_iff.mp h)
    rw [List.take_eq_nil_iff] at hnil
    rcases hnil with hzero | hempty
    · omega
    · rw [hempty] at hmore
      simp at hmore
  · next hall => exact List.take_of_length_le (by omega)

end Page

/-! ## Pages of a list that stays -/

variable {rows : List α} {limits : ℕ → ℕ}

/-- **Following the cursors shows every row once, in order, and ends.** -/
theorem follow_fixed (hsorted : Sorted key rows) (hlimits : ∀ i, 1 ≤ limits i) (fuel i : ℕ)
    (after : Option κ) (hfuel : (rows.filter fun row => behind after (key row)).length < fuel) :
    rowsOf (follow (fun i after => page key rows (limits i) after) fuel i after) =
        rows.filter (fun row => behind after (key row)) ∧
      Finished (follow (fun i after => page key rows (limits i) after) fuel i after) := by
  induction fuel generalizing i after with
  | zero => exact absurd hfuel (Nat.not_lt_zero _)
  | succ fuel ih =>
    unfold follow
    cases hcursor : (page key rows (limits i) after).2 with
    | none =>
      have hall := page_last (hlimits i) hcursor
      refine ⟨?_, [], (page key rows (limits i) after).1, ?_⟩
      · rw [← hall]
        simp [rowsOf]
      · exact congrArg (fun last => [last]) (Prod.ext rfl hcursor)
    | some cursor =>
      obtain ⟨row, hrow, -, -, hsplit⟩ := page_cursor hsorted hcursor
      have hshorter := congrArg List.length hsplit
      rw [List.length_append] at hshorter
      have hpositive := List.length_pos_of_mem hrow
      obtain ⟨hrows, front, last, hlast⟩ := ih (i + 1) (some cursor) (by omega)
      refine ⟨?_, (page key rows (limits i) after) :: front, last, ?_⟩
      · unfold rowsOf at hrows ⊢
        rw [List.flatMap_cons, hrows, hsplit]
      · rw [List.cons_append]
        exact congrArg _ hlast

/-! ## Pages of a list that changes -/

variable {views : ℕ → List α}

/-- INTERNAL: **the rows of the pages are in order**, behind the first cursor. -/
theorem follow_sorted (hsorted : ∀ i, Sorted key (views i)) (fuel i : ℕ) (after : Option κ) :
    Sorted key (rowsOf (follow (fun i after => page key (views i) (limits i) after) fuel i after)) ∧
      ∀ row ∈ rowsOf (follow (fun i after => page key (views i) (limits i) after) fuel i after),
        behind after (key row) = true := by
  induction fuel generalizing i after with
  | zero => exact ⟨List.Pairwise.nil, by simp [follow, rowsOf]⟩
  | succ fuel ih =>
    have hpage : Sorted key (page key (views i) (limits i) after).1 := sorted_page (hsorted i)
    unfold follow rowsOf
    rw [List.flatMap_cons]
    cases hcursor : (page key (views i) (limits i) after).2 with
    | none =>
      rw [List.flatMap_nil, List.append_nil]
      exact ⟨hpage, fun row hrow => (mem_page hrow).2⟩
    | some cursor =>
      obtain ⟨last, hlast, rfl, hle, -⟩ := page_cursor (hsorted i) hcursor
      obtain ⟨hrest, hbehind⟩ := ih (i + 1) (some (key last))
      constructor
      · apply List.pairwise_append.mpr
        refine ⟨hpage, hrest, ?_⟩
        intro row hrow other hother
        have hafter := hbehind other hother
        simp only [behind, Option.all_some, decide_eq_true_eq] at hafter
        exact lt_of_le_of_lt (hle row hrow) hafter
      · intro row hrow
        rcases List.mem_append.mp hrow with hrow | hrow
        · exact (mem_page hrow).2
        · have hafter := hbehind row hrow
          simp only [behind, Option.all_some, decide_eq_true_eq] at hafter
          exact behind_trans (mem_page hlast).2 hafter

/-- INTERNAL: **a key that is there all the time is shown.** -/
theorem follow_complete (hsorted : ∀ i, Sorted key (views i)) (hlimits : ∀ i, 1 ≤ limits i) {k : κ}
    (hpresent : ∀ i, ∃ row ∈ views i, key row = k) (fuel i : ℕ) (after : Option κ)
    (hafter : behind after k = true)
    (hfinished : Finished (follow (fun i after => page key (views i) (limits i) after) fuel i after)) :
    ∃ row ∈ rowsOf (follow (fun i after => page key (views i) (limits i) after) fuel i after),
      key row = k := by
  induction fuel generalizing i after with
  | zero =>
    obtain ⟨front, last, hlast⟩ := hfinished
    exact absurd hlast.symm (by simp [follow])
  | succ fuel ih =>
    obtain ⟨row, hrow, rfl⟩ := hpresent i
    have hleft : row ∈ (views i).filter fun row => behind after (key row) := List.mem_filter.mpr ⟨hrow, hafter⟩
    unfold follow rowsOf
    unfold follow at hfinished
    rw [List.flatMap_cons]
    cases hcursor : (page key (views i) (limits i) after).2 with
    | none =>
      rw [← page_last (hlimits i) hcursor] at hleft
      exact ⟨row, List.mem_append_left _ hleft, rfl⟩
    | some cursor =>
      rw [hcursor] at hfinished
      obtain ⟨last, -, -, -, hsplit⟩ := page_cursor (hsorted i) hcursor
      rw [hsplit] at hleft
      rcases List.mem_append.mp hleft with hshown | hlater
      · exact ⟨row, List.mem_append_left _ hshown, rfl⟩
      · have hrest : Finished (follow (fun i after => page key (views i) (limits i) after) fuel (i + 1)
            (some cursor)) := by
          obtain ⟨front, final, hfinal⟩ := hfinished
          cases front with
          | nil =>
            have hhead := (List.cons.inj hfinal).1
            rw [hhead] at hcursor
            cases hcursor
          | cons first front => exact ⟨front, final, (List.cons.inj hfinal).2⟩
        obtain ⟨other, hother, hkey⟩ := ih (i + 1) (some cursor) (List.mem_filter.mp hlater).2 hrest
        exact ⟨other, List.mem_append_right _ hother, hkey⟩

/-- **A key that is there all the time is shown exactly once.** -/
theorem follow_once (hsorted : ∀ i, Sorted key (views i)) (hlimits : ∀ i, 1 ≤ limits i) {k : κ}
    (hpresent : ∀ i, ∃ row ∈ views i, key row = k) (fuel : ℕ)
    (hfinished : Finished (follow (fun i after => page key (views i) (limits i) after) fuel 0 none)) :
    ((rowsOf (follow (fun i after => page key (views i) (limits i) after) fuel 0 none)).map key).count k = 1 := by
  obtain ⟨hpages, -⟩ := @follow_sorted _ _ _ _ limits _ hsorted fuel 0 none
  obtain ⟨row, hrow, rfl⟩ := follow_complete hsorted hlimits hpresent fuel 0 none rfl hfinished
  have hdistinct : ((rowsOf (follow (fun i after => page key (views i) (limits i) after) fuel 0 none)).map
      key).Nodup := List.pairwise_map.mpr (hpages.imp fun h => ne_of_lt h)
  exact List.count_eq_one_of_mem hdistinct (List.mem_map_of_mem hrow)

/-- INTERNAL: every cursor that is given is the key of a row that was there. -/
theorem follow_cursor (hsorted : ∀ i, Sorted key (views i)) (fuel i : ℕ) (after : Option κ) {rows : List α} {cursor : κ}
    (h : (rows, some cursor) ∈ follow (fun i after => page key (views i) (limits i) after) fuel i after) :
    ∃ j, ∃ row ∈ views j, key row = cursor := by
  induction fuel generalizing i after with
  | zero => exact absurd h (by simp [follow])
  | succ fuel ih =>
    unfold follow at h
    rcases List.mem_cons.mp h with heq | hrest
    · have hcursor : (page key (views i) (limits i) after).2 = some cursor := by rw [← heq]
      obtain ⟨row, hrow, hkey, -⟩ := page_cursor (hsorted i) hcursor
      exact ⟨i, row, (mem_page hrow).1, hkey⟩
    · cases hcursor : (page key (views i) (limits i) after).2 with
      | none =>
        rw [hcursor] at hrest
        exact absurd hrest (by simp)
      | some next =>
        rw [hcursor] at hrest
        exact ih (i + 1) (some next) hrest

end VaultAccess.Library.Pages
