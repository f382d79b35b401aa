import Mathlib.Data.List.Induction
import Mathlib.Order.Defs.LinearOrder
import VaultAccess.Library.Text

/-!
# Binary search, and the first of a sorted list kept as it comes

`binary_search_by` and `partition_point` of the standard library, by halving the part of
the list where the answer lies. A list that is kept sorted and cut at a bound while its
elements come one by one is the beginning of the whole list sorted at once.
-/

set_option autoImplicit false

namespace VaultAccess.Library

namespace Search

variable {α β : Type}

/-- Where the answer lies after halving `size` elements from `base` on; `compare` says on
which side of the answer an element is. -/
def narrow (compare : α → Ordering) (l : List α) : ℕ → ℕ → ℕ → ℕ
  | 0, _, base => base
  | fuel + 1, size, base =>
    if size ≤ 1 then base
    else
      let mid := base + size / 2
      narrow compare l fuel (size - size / 2)
        (if (l[mid]?).any fun x => compare x = .gt then base else mid)

/-- The place of an element that compares equal, or the place to insert one. -/
def binarySearchBy (compare : α → Ordering) (l : List α) : Except ℕ ℕ :=
  let base := narrow compare l l.length l.length 0
  match (l[base]?).map compare with
  | none => .error 0
  | some .eq => .ok base
  | some .lt => .error (base + 1)
  | some .gt => .error base

/-- `binary_search` for an element of a list in ascending order. -/
def binarySearch [LinearOrder α] (x : α) (l : List α) : Except ℕ ℕ :=
  binarySearchBy (fun y => if y < x then .lt else if y = x then .eq else .gt) l

/-- The number of elements at the beginning that satisfy the predicate. -/
def partitionPoint (first : α → Bool) (l : List α) : ℕ :=
  match binarySearchBy (fun x => if first x then .lt else .gt) l with
  | .ok place => place
  | .error place => place

/-- The list goes up past the answer. -/
def Ascending (compare : α → Ordering) (l : List α) : Prop :=
  l.Pairwise fun a b => (compare a = .gt → compare b = .gt) ∧ (compare b = .lt → compare a = .lt)

section

variable {compare : α → Ordering} {l : List α}

theorem Ascending.get (h : Ascending compare l) {i j : ℕ} (hij : i < j) {a b : α} (ha : l[i]? = some a)
    (hb : l[j]? = some b) : (compare a = .gt → compare b = .gt) ∧ (compare b = .lt → compare a = .lt) := by
  obtain ⟨hi, rfl⟩ := List.getElem?_eq_some_iff.mp ha
  obtain ⟨hj, rfl⟩ := List.getElem?_eq_some_iff.mp hb
  exact List.pairwise_iff_getElem.mp h i j hi hj hij

/-- The answer is not before `base`, and not from `base + size` on. -/
structure Holds (compare : α → Ordering) (l : List α) (size base : ℕ) : Prop where
  positive : 0 < size
  within : base + size ≤ l.length
  reached : base = 0 ∨ ∀ a, l[base]? = some a → compare a ≠ .gt
  after : ∀ i a, base + size ≤ i → l[i]? = some a → compare a = .gt

/-- INTERNAL: halving keeps the answer. -/
theorem Holds.narrow (hl : Ascending compare l) {fuel size base : ℕ} (h : Holds compare l size base)
    (hfuel : size ≤ fuel) : Holds compare l 1 (narrow compare l fuel size base) := by
  induction fuel generalizing size base with
  | zero => exact absurd h.positive (by omega)
  | succ fuel ih =>
    have hpositive := h.positive
    have hwithin := h.within
    unfold Search.narrow
    split
    · next hsmall =>
      obtain rfl : size = 1 := by omega
      exact h
    · next hlarge =>
      have hmid : base + size / 2 < l.length := by omega
      have hget : l[base + size / 2]? = some l[base + size / 2] := List.getElem?_eq_getElem hmid
      apply ih _ (by omega)
      simp only [hget, Option.any_some, decide_eq_true_eq]
      split
      · next hgt =>
        refine ⟨by omega, by omega, h.reached, ?_⟩
        intro i a hi ha
        rcases Nat.eq_or_lt_of_le (show base + size / 2 ≤ i by omega) with rfl | hlt
        · obtain rfl := Option.some.inj (hget.symm.trans ha)
          exact hgt
        · exact (hl.get hlt hget ha).1 hgt
      · next hle =>
        refine ⟨by omega, by omega, Or.inr ?_, ?_⟩
        · intro a ha
          obtain rfl := Option.some.inj (hget.symm.trans ha)
          exact hle
        · intro i a hi ha
          exact h.after i a (by omega) ha

/-- INTERNAL: where the search ends. -/
theorem holds_end (hl : Ascending compare l) (hne : l ≠ []) :
    Holds compare l 1 (narrow compare l l.length l.length 0) := by
  apply Holds.narrow hl _ le_rfl
  refine ⟨List.length_pos_iff.mpr hne, by omega, Or.inl rfl, ?_⟩
  intro i a hi ha
  rw [List.getElem?_eq_none (by omega)] at ha
  cases ha

/-- **What a binary search finds is there**, in whatever order the list is. -/
theorem mem_of_binarySearchBy (h : (binarySearchBy compare l).isOk = true) : ∃ x ∈ l, compare x = .eq := by
  unfold binarySearchBy at h
  cases hget : l[narrow compare l l.length l.length 0]? with
  | none => simp [hget, Except.isOk, Except.toBool] at h
  | some x =>
    refine ⟨x, List.mem_of_getElem? hget, ?_⟩
    cases hcompare : compare x with
    | eq => rfl
    | lt => simp [hget, hcompare, Except.isOk, Except.toBool] at h
    | gt => simp [hget, hcompare, Except.isOk, Except.toBool] at h

/-- **A binary search finds what is there.** -/
theorem binarySearchBy_isOk (hl : Ascending compare l) :
    (binarySearchBy compare l).isOk = true ↔ ∃ x ∈ l, compare x = .eq := by
  rcases List.eq_nil_or_concat l with rfl | ⟨front, last, hlast⟩
  · simp [binarySearchBy, narrow, Except.isOk, Except.toBool]
  have hne : l ≠ [] := by
    rw [hlast]
    simp
  have hend := holds_end hl hne
  have hbase : narrow compare l l.length l.length 0 < l.length := by
    have hwithin := hend.within
    omega
  have hget := List.getElem?_eq_getElem hbase
  unfold binarySearchBy
  simp only [hget, Option.map_some]
  constructor
  · intro hok
    refine ⟨_, List.getElem_mem hbase, ?_⟩
    split at hok <;> simp_all [Except.isOk, Except.toBool]
  · rintro ⟨x, hx, heq⟩
    obtain ⟨j, hj, rfl⟩ := List.getElem_of_mem hx
    have hjget := List.getElem?_eq_getElem hj
    have hle : j ≤ narrow compare l l.length l.length 0 := by
      by_contra hlt
      have hgt := hend.after j _ (by omega) hjget
      rw [heq] at hgt
      cases hgt
    have hfound : compare l[narrow compare l l.length l.length 0] = .eq := by
      rcases Nat.eq_or_lt_of_le hle with hsame | hlt
      · rw [← heq]
        congr 1
        simp only [hsame]
      · cases hcompare : compare l[narrow compare l l.length l.length 0] with
        | eq => rfl
        | lt =>
          have hlow := (hl.get hlt hjget hget).2 hcompare
          rw [heq] at hlow
          cases hlow
        | gt =>
          rcases hend.reached with hzero | hreached
          · omega
          · exact absurd hcompare (hreached _ hget)
    simp only [hfound]
    rfl

theorem compare_eq_iff [LinearOrder α] {x y : α} :
    (if y < x then Ordering.lt else if y = x then .eq else .gt) = .eq ↔ y = x := by
  split
  · next hlt => simp [ne_of_lt hlt]
  · split <;> simp_all

theorem mem_of_binarySearch [LinearOrder α] {x : α} {l : List α} (h : (binarySearch x l).isOk = true) :
    x ∈ l := by
  obtain ⟨y, hy, heq⟩ := mem_of_binarySearchBy h
  rw [← compare_eq_iff.mp heq]
  exact hy

/-- **A binary search of a sorted list finds exactly its members.** -/
theorem binarySearch_isOk [LinearOrder α] {x : α} {l : List α} (hl : l.Pairwise (· ≤ ·)) :
    (binarySearch x l).isOk = true ↔ x ∈ l := by
  have hascending : Ascending (fun y => if y < x then .lt else if y = x then .eq else .gt) l := by
    apply hl.imp
    intro a b hab
    constructor
    · intro hgt
      have hxa : x < a := by
        by_contra hle
        rcases lt_or_eq_of_le (not_lt.mp hle) with hlt | heq
        · simp [hlt] at hgt
        · simp [heq] at hgt
      have hxb := lt_of_lt_of_le hxa hab
      simp [not_lt.mpr (le_of_lt hxb), ne_of_gt hxb]
    · intro hlt
      have hbx : b < x := by
        by_contra hge
        simp only [if_neg hge] at hlt
        split at hlt
        · cases hlt
        · cases hlt
      simp [lt_of_le_of_lt hab hbx]
  unfold binarySearch
  rw [binarySearchBy_isOk hascending]
  constructor
  · rintro ⟨y, hy, heq⟩
    rw [← compare_eq_iff.mp heq]
    exact hy
  · intro hx
    exact ⟨x, hx, compare_eq_iff.mpr rfl⟩

/-- **The place where a partitioned list changes sides.** -/
theorem partitionPoint_append {first : α → Bool} {front back : List α}
    (hfront : ∀ x ∈ front, first x = true) (hback : ∀ x ∈ back, first x = false) :
    partitionPoint first (front ++ back) = front.length := by
  have hl : Ascending (fun x => if first x then .lt else .gt) (front ++ back) := by
    apply List.pairwise_append.mpr
    refine ⟨?_, ?_, ?_⟩
    · apply List.Pairwise.imp_of_mem _ (List.pairwise_of_forall (fun _ _ => trivial))
      intro a b ha hb _
      simp [hfront a ha, hfront b hb]
    · apply List.Pairwise.imp_of_mem _ (List.pairwise_of_forall (fun _ _ => trivial))
      intro a b ha hb _
      simp [hback a ha, hback b hb]
    · intro a ha b hb
      simp [hfront a ha, hback b hb]
  by_cases hempty : front ++ back = []
  · obtain ⟨rfl, rfl⟩ := List.append_eq_nil_iff.mp hempty
    rfl
  have hend := holds_end hl hempty
  generalize hbase : narrow (fun x => if first x then Ordering.lt else .gt) (front ++ back)
    (front ++ back).length (front ++ back).length 0 = base at hend
  have hlt : base < (front ++ back).length := by
    have hwithin := hend.within
    omega
  have hget := List.getElem?_eq_getElem hlt
  unfold partitionPoint binarySearchBy
  simp only [hbase, hget, Option.map_some]
  have hlength : (front ++ back).length = front.length + back.length := List.length_append
  by_cases hside : base < front.length
  · have hmem : first (front ++ back)[base] = true := by
      rw [List.getElem_append_left hside]
      exact hfront _ (List.getElem_mem _)
    simp only [hmem, if_true]
    by_contra hother
    have hnext : base + 1 < front.length := by omega
    have hgt := hend.after (base + 1) _ le_rfl (List.getElem?_eq_getElem (by omega))
    rw [List.getElem_append_left hnext, if_pos (hfront _ (List.getElem_mem _))] at hgt
    cases hgt
  · have hmem : first (front ++ back)[base] = false := by
      rw [List.getElem_append_right (by omega)]
      exact hback _ (List.getElem_mem _)
    simp only [hmem, Bool.false_eq_true, if_false]
    rcases hend.reached with rfl | hreached
    · omega
    · exact absurd (by simp [hmem]) (hreached _ hget)

end

/-! ## The first of what comes -/

section Keep

variable [LinearOrder β] (key : α → β) (limit : ℕ)

/-- One more element for the list of the first `limit` ones. -/
def keep (recent : List α) (x : α) : List α :=
  let position := partitionPoint (fun previous => key previous < key x) recent
  if position < limit then
    (if recent.length = limit then recent.dropLast else recent).insertIdx position x
  else recent

variable {key limit}

/-- INTERNAL: a sorted list on both sides of a key. -/
theorem exists_split {l : List α} (h : l.Pairwise fun a b => key a ≤ key b) (k : β) :
    ∃ front back, l = front ++ back ∧ (∀ a ∈ front, key a < k) ∧ ∀ b ∈ back, k ≤ key b := by
  induction l with
  | nil => exact ⟨[], [], rfl, by simp, by simp⟩
  | cons a l ih =>
    obtain ⟨hhead, htail⟩ := List.pairwise_cons.mp h
    rcases lt_or_ge (key a) k with hlt | hge
    · obtain ⟨front, back, rfl, hfront, hback⟩ := ih htail
      refine ⟨a :: front, back, rfl, ?_, hback⟩
      intro b hb
      rcases List.mem_cons.mp hb with rfl | hb
      · exact hlt
      · exact hfront b hb
    · refine ⟨[], a :: l, rfl, by simp, ?_⟩
      intro b hb
      rcases List.mem_cons.mp hb with rfl | hb
      · exact hge
      · exact le_trans hge (hhead b hb)

/-- INTERNAL: the sort of a list with one more element. -/
theorem sortByKey_snoc {events : List α} {x : α} (hx : ∀ a ∈ events, key a ≠ key x)
    (hevents : (events.map key).Nodup) {front back : List α}
    (hsplit : sortByKey key events = front ++ back) (hfront : ∀ a ∈ front, key a < key x)
    (hback : ∀ b ∈ back, key x ≤ key b) : sortByKey key (events ++ [x]) = front ++ x :: back := by
  have hsorted := pairwise_sortByKey key events
  rw [hsplit, List.pairwise_append] at hsorted
  apply @List.Perm.eq_of_pairwise _ fun a b => key a ≤ key b
  · intro a b ha hb hab hba
    have hkey := le_antisymm hab hba
    have hnodup : ((events ++ [x]).map key).Nodup := by
      rw [List.map_append, List.nodup_append]
      refine ⟨hevents, by simp, ?_⟩
      intro k hk k' hk'
      obtain ⟨c, hc, rfl⟩ := List.mem_map.mp hk
      rw [List.map_singleton, List.mem_singleton] at hk'
      rw [hk']
      exact hx c hc
    have hmem : b ∈ events ++ [x] := by
      have hperm : (front ++ back).Perm events := hsplit ▸ perm_sortByKey key events
      rcases List.mem_append.mp hb with hb | hb
      · exact List.mem_append_left _ (hperm.mem_iff.mp (List.mem_append_left _ hb))
      · rcases List.mem_cons.mp hb with rfl | hb
        · simp
        · exact List.mem_append_left _ (hperm.mem_iff.mp (List.mem_append_right _ hb))
    exact List.inj_on_of_nodup_map hnodup ((perm_sortByKey key _).mem_iff.mp ha) hmem hkey
  · exact pairwise_sortByKey key _
  · apply List.pairwise_append.mpr
    refine ⟨hsorted.1, List.pairwise_cons.mpr ⟨hback, hsorted.2.1⟩, ?_⟩
    intro a ha b hb
    rcases List.mem_cons.mp hb with rfl | hb
    · exact le_of_lt (hfront a ha)
    · exact hsorted.2.2 a ha b hb
  · have hsort : (sortByKey key events).Perm (front ++ back) := List.Perm.of_eq hsplit
    calc (sortByKey key (events ++ [x])).Perm (events ++ [x]) := perm_sortByKey key _
      List.Perm _ (x :: events) := List.perm_append_singleton x events
      List.Perm _ (x :: (front ++ back)) := ((perm_sortByKey key events).symm.trans hsort).cons x
      List.Perm _ (front ++ x :: back) := List.perm_middle.symm

theorem insertIdx_length (front back : List α) (x : α) :
    (front ++ back).insertIdx front.length x = front ++ x :: back := by
  induction front with
  | nil => rfl
  | cons a front ih => rw [List.cons_append, List.length_cons, List.insertIdx_succ_cons, ih, List.cons_append]

/-- INTERNAL: the first elements with one more. -/
theorem keep_take {front back : List α} {x : α} (hfront : ∀ a ∈ front, key a < key x)
    (hback : ∀ b ∈ back, key x ≤ key b) :
    keep key limit ((front ++ back).take limit) x = (front ++ x :: back).take limit := by
  rcases Nat.lt_or_ge front.length limit with hlt | hge
  · obtain ⟨n, rfl⟩ : ∃ n, limit = front.length + (n + 1) := ⟨limit - front.length - 1, by omega⟩
    have htake : (front ++ back).take (front.length + (n + 1)) = front ++ back.take (n + 1) :=
      List.take_length_add_append (n + 1)
    have hplace : partitionPoint (fun previous => decide (key previous < key x))
        (front ++ back.take (n + 1)) = front.length := by
      apply partitionPoint_append
      · intro a ha
        exact decide_eq_true (hfront a ha)
      · intro b hb
        exact decide_eq_false (not_lt.mpr (hback b (List.mem_of_mem_take hb)))
    have hresult : (front ++ x :: back).take (front.length + (n + 1)) = front ++ x :: back.take n :=
      (List.take_length_add_append (n + 1)).trans (by rw [List.take_succ_cons])
    rw [htake, hresult]
    simp only [keep, hplace, if_pos hlt]
    split
    · next hfull =>
      rw [List.length_append, List.length_take] at hfull
      have hdrop : (front ++ back.take (n + 1)).dropLast = front ++ back.take n := by
        rw [List.dropLast_eq_take, List.length_append, List.length_take, Nat.min_eq_left (by omega),
          show front.length + (n + 1) - 1 = front.length + n by omega, List.take_length_add_append,
          List.take_take, Nat.min_eq_left (by omega)]
      rw [hdrop, insertIdx_length]
    · next hroom =>
      rw [List.length_append, List.length_take] at hroom
      rw [insertIdx_length, List.take_of_length_le (show back.length ≤ n + 1 by omega),
        List.take_of_length_le (show back.length ≤ n by omega)]
  · have hplace : partitionPoint (fun previous => decide (key previous < key x)) (front.take limit) = limit := by
      have hpoint := @partitionPoint_append _ (fun previous => decide (key previous < key x))
        (front.take limit) []
        (fun a ha => decide_eq_true (hfront a (List.mem_of_mem_take ha))) (by simp)
      rw [List.append_nil, List.length_take, Nat.min_eq_left hge] at hpoint
      exact hpoint
    rw [List.take_append_of_le_length hge, List.take_append_of_le_length hge]
    simp only [keep, hplace, lt_irrefl, if_false]

/-- **The elements kept as they come are the first of the sorted list**, when no two have the
same key. -/
theorem foldl_keep {events : List α} (h : (events.map key).Nodup) :
    events.foldl (keep key limit) [] = (sortByKey key events).take limit := by
  induction events using List.reverseRecOn with
  | nil => simp [sortByKey]
  | append_singleton events x ih =>
    rw [List.map_append, List.map_singleton, List.nodup_append] at h
    obtain ⟨hevents, -, hdistinct⟩ := h
    have hx : ∀ a ∈ events, key a ≠ key x := fun a ha =>
      hdistinct (key a) (List.mem_map_of_mem ha) (key x) (by simp)
    obtain ⟨front, back, hsplit, hfront, hback⟩ := exists_split (pairwise_sortByKey key events) (key x)
    rw [List.foldl_append, List.foldl_cons, List.foldl_nil, ih hevents, hsplit, keep_take hfront hback,
      sortByKey_snoc hx hevents hsplit hfront hback]

end Keep

end Search

end VaultAccess.Library
