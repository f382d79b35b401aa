import VaultAccess.Model.Bridge
import Mathlib.Algebra.Order.BigOperators.Group.List

/-!
# The launch packet is read as it was written

The walk of the helper over the packet is followed entry by entry: it accepts exactly the
packets that `Bridge::send` writes for arguments and an environment within the limits, it
finds them again, and it never reads past the end of its buffer.
-/

set_option autoImplicit false

namespace VaultAccess.Analysis.Bridge

open VaultAccess.Library VaultAccess.Library.Frames VaultAccess.Library.Text VaultAccess.Model
open VaultAccess.Model.Bridge

/-! ## Entries of a buffer -/

/-- The offsets of the entries of a packet, behind their lengths. -/
def offsets : ℕ → List (List UInt8) → List ℕ
  | _, [] => []
  | start, value :: rest => (start + 4) :: offsets (start + 4 + value.length) rest

/-- The bytes of entries. -/
def total (values : List (List UInt8)) : ℕ := (values.map List.length).sum

/-- INTERNAL: the frames of entries. -/
theorem length_flatMap_frame (values : List (List UInt8)) :
    (values.flatMap frame).length = total values + 4 * values.length := by
  induction values with
  | nil => rfl
  | cons value rest ih =>
    simp only [List.flatMap_cons, List.length_append, length_frame, ih, total, List.map_cons,
      List.sum_cons, List.length_cons]
    omega

/-- INTERNAL: the checks of an entry. -/
theorem validEntry_iff (index : ℕ) (value : List UInt8) : validEntry index value = true ↔
    Terminated value ∧ (index = 0 → 2 ≤ value.length) := by
  have hfirst : (!(decide (index = 0) && decide (value.length < 2))) = true ↔
      (index = 0 → 2 ≤ value.length) := by
    simp only [Bool.not_eq_true', Bool.and_eq_false_iff, decide_eq_false_iff_not, Nat.not_lt]
    tauto
  simp only [validEntry, Bool.and_eq_true, hfirst, decide_eq_true_eq, Bool.not_eq_true',
    List.contains_eq_mem, decide_eq_false_iff_not]
  refine and_congr_left fun _ => ⟨?_, ?_⟩
  · rintro ⟨hlast, hinner⟩
    obtain ⟨text, rfl⟩ := List.getLast?_eq_some_iff.mp hlast
    exact ⟨text, rfl, by simpa using hinner⟩
  · rintro ⟨text, rfl, htext⟩
    simpa using htext

/-! ## One turn of the walk -/

/-- The walk after one more entry. -/
def advance (argc index : ℕ) (w : Walk) (value : List UInt8) : Walk :=
  if index ≥ argc then
    { w with
      cursor := w.cursor + 4 + value.length
      environment := w.environment ++ [w.cursor + 4]
      environmentBytes := w.environmentBytes + value.length }
  else
    { w with
      cursor := w.cursor + 4 + value.length
      arguments := w.arguments ++ [w.cursor + 4]
      argumentBytes := w.argumentBytes + value.length }

/-- The totals stay within their limits. -/
def Within (w : Walk) : Prop := w.argumentBytes ≤ MAX_ARG_BYTES ∧ w.environmentBytes ≤ MAX_BYTES

/-- INTERNAL: a turn of the walk over an entry that passes. -/
theorem walkEntry_frame (front value back : List UInt8) (argc index : ℕ) (w : Walk)
    (hcursor : w.cursor = front.length) (hlength : value.length < 256 ^ 4)
    (hvalid : validEntry index value = true) (hwithin : Within (advance argc index w value)) :
    walkEntry (front ++ (frame value ++ back)) argc index w = .ok (advance argc index w value) := by
  have hhead : slice (front ++ (frame value ++ back)) w.cursor (w.cursor + 4) =
      some (le 4 value.length) := by
    rw [frame, List.append_assoc]
    exact slice_append _ _ _ _ _ hcursor (by simp [hcursor])
  have hbody : slice (front ++ (frame value ++ back)) (w.cursor + 4) (w.cursor + 4 + value.length) =
      some value := by
    rw [frame, List.append_assoc, ← List.append_assoc front]
    exact slice_append _ _ _ _ _ (by simp [hcursor]) (by simp [hcursor])
  unfold advance at hwithin ⊢
  simp only [walkEntry, hhead, orReject, bind, Except.bind, unle_le 4 _ hlength, hbody, hvalid, pure,
    Except.pure, Bool.not_true, Bool.false_eq_true, if_false]
  split_ifs at hwithin ⊢ with hindex hsize hsize
  · exact absurd hwithin.2 (by simpa using hsize)
  · rfl
  · exact absurd hwithin.1 (by simpa using hsize)
  · rfl

/-- INTERNAL: **a turn of the walk that passes was over an entry.** -/
theorem walkEntry_ok {data : List UInt8} {argc index : ℕ} {w w' : Walk}
    (h : walkEntry data argc index w = .ok w') :
    ∃ front value back, data = front ++ (frame value ++ back) ∧ w.cursor = front.length ∧
      value.length < 256 ^ 4 ∧ validEntry index value = true ∧ w' = advance argc index w value ∧
      (Within w → Within w') := by
  unfold walkEntry at h
  cases hhead : slice data w.cursor (w.cursor + 4) with
  | none => simp [hhead, orReject, bind, Except.bind] at h
  | some head =>
    obtain ⟨front, back, rfl, hfront, hlength⟩ := slice_eq_some hhead
    have hfour : head.length = 4 := by omega
    cases hbody : slice (front ++ (head ++ back)) (w.cursor + 4) (w.cursor + 4 + unle head) with
    | none => simp [hhead, hbody, orReject, bind, Except.bind] at h
    | some value =>
      obtain ⟨front', back', hsplit, hfront', hlength'⟩ := slice_eq_some hbody
      have hsize : value.length = unle head := by omega
      have hpieces : front' = front ++ head ∧ back = value ++ back' := by
        rw [← List.append_assoc] at hsplit
        have hinj := List.append_inj hsplit (by simp; omega)
        exact ⟨hinj.1.symm, hinj.2⟩
      have hframe : frame value = head ++ value := by
        rw [frame, hsize, ← hfour, le_unle]
      refine ⟨front, value, back', ?_, hfront.symm, ?_, ?_⟩
      · rw [hframe, hpieces.2, List.append_assoc]
      · rw [hsize, ← hfour]
        exact unle_lt head
      · rw [← hsize] at hbody
        simp only [hhead, orReject, bind, Except.bind, pure, Except.pure, ← hsize, hbody] at h
        cases hvalid : validEntry index value with
        | false => simp [hvalid] at h
        | true =>
          simp only [hvalid, Bool.not_true, Bool.false_eq_true, if_false] at h
          refine ⟨rfl, ?_⟩
          unfold advance Within
          split_ifs at h ⊢ with hindex hsize hsize
          · refine ⟨(Except.ok.inj h).symm, fun hw => ?_⟩
            rw [← Except.ok.inj h]
            exact ⟨hw.1, Nat.le_of_not_lt hsize⟩
          · refine ⟨(Except.ok.inj h).symm, fun hw => ?_⟩
            rw [← Except.ok.inj h]
            exact ⟨Nat.le_of_not_lt hsize, hw.2⟩

/-- INTERNAL: a turn of the walk checks its reads. -/
theorem walkEntry_inBounds (data : List UInt8) (argc index : ℕ) (w : Walk) :
    walkEntry data argc index w ≠ .error .outOfBounds := by
  unfold walkEntry
  cases slice data w.cursor (w.cursor + 4) with
  | none => simp [orReject, bind, Except.bind]
  | some head =>
    simp only [orReject, bind, Except.bind, pure, Except.pure]
    cases slice data (w.cursor + 4) (w.cursor + 4 + unle head) with
    | none => simp
    | some value =>
      simp only
      split_ifs <;> simp

/-! ## The walk -/

/-- The walk over entries, from `index` on. -/
def advanceAll (argc : ℕ) : ℕ → Walk → List (List UInt8) → Walk
  | _, w, [] => w
  | index, w, value :: rest => advanceAll argc (index + 1) (advance argc index w value) rest

/-- Every entry passes its checks. -/
def ValidFrom (index : ℕ) (values : List (List UInt8)) : Prop :=
  (∀ value ∈ values, Terminated value) ∧
    (index = 0 → ∀ value, values.head? = some value → 2 ≤ value.length)

/-- INTERNAL: the first entry and the others. -/
theorem validFrom_cons (index : ℕ) (value : List UInt8) (rest : List (List UInt8)) :
    ValidFrom index (value :: rest) ↔ validEntry index value = true ∧ ValidFrom (index + 1) rest := by
  rw [validEntry_iff]
  simp only [ValidFrom, List.forall_mem_cons, List.head?_cons, Option.some.injEq, forall_eq',
    Nat.add_one_ne_zero, false_imp_iff, and_true]
  tauto

/-- INTERNAL: the totals only grow. -/
theorem within_of_advance {argc index : ℕ} {w : Walk} {value : List UInt8}
    (h : Within (advance argc index w value)) : Within w := by
  unfold advance at h
  split_ifs at h
  · exact ⟨h.1, le_trans (Nat.le_add_right _ _) h.2⟩
  · exact ⟨le_trans (Nat.le_add_right _ _) h.1, h.2⟩

theorem within_of_advanceAll {argc : ℕ} (values : List (List UInt8)) :
    ∀ {index : ℕ} {w : Walk}, Within (advanceAll argc index w values) → Within w := by
  induction values with
  | nil => exact id
  | cons value rest ih => exact fun h => within_of_advance (ih h)

theorem cursor_advance (argc index : ℕ) (w : Walk) (value : List UInt8) :
    (advance argc index w value).cursor = w.cursor + (frame value).length := by
  rw [length_frame]
  unfold advance
  split_ifs <;> simp only <;> omega

/-- INTERNAL: **the walk over entries that pass.** -/
theorem walk_frames (argc : ℕ) (values : List (List UInt8)) :
    ∀ (front back : List UInt8) (index : ℕ) (w : Walk), w.cursor = front.length →
      (∀ value ∈ values, value.length < 256 ^ 4) → ValidFrom index values →
      Within (advanceAll argc index w values) →
      walk (front ++ (values.flatMap frame ++ back)) argc values.length index w =
        .ok (advanceAll argc index w values) := by
  induction values with
  | nil => exact fun _ _ _ _ _ _ _ _ => rfl
  | cons value rest ih =>
    intro front back index w hcursor hlength hvalid hwithin
    obtain ⟨hentry, hrest⟩ := (validFrom_cons index value rest).mp hvalid
    have hfirst : walkEntry (front ++ ((value :: rest).flatMap frame ++ back)) argc index w =
        .ok (advance argc index w value) := by
      rw [List.flatMap_cons, List.append_assoc]
      exact walkEntry_frame front value _ argc index w hcursor (hlength value List.mem_cons_self) hentry
        (within_of_advanceAll rest hwithin)
    have hnext := ih (front ++ frame value) back (index + 1) (advance argc index w value)
      (by rw [cursor_advance, hcursor, List.length_append])
      (fun v hv => hlength v (List.mem_cons_of_mem _ hv)) hrest hwithin
    have hdata : (front ++ frame value) ++ (rest.flatMap frame ++ back) =
        front ++ ((value :: rest).flatMap frame ++ back) := by
      simp only [List.flatMap_cons, List.append_assoc]
    rw [hdata] at hnext
    simp only [List.length_cons, walk, hfirst, bind, Except.bind]
    exact hnext

/-- INTERNAL: **a walk that passes was over entries.** -/
theorem walk_ok {data : List UInt8} {argc : ℕ} (count : ℕ) :
    ∀ {index : ℕ} {w w' : Walk}, walk data argc count index w = .ok w' → w.cursor ≤ data.length →
      ∃ front values back, data = front ++ (values.flatMap frame ++ back) ∧ w.cursor = front.length ∧
        values.length = count ∧ (∀ value ∈ values, value.length < 256 ^ 4) ∧ ValidFrom index values ∧
        w' = advanceAll argc index w values ∧ (Within w → Within w') := by
  induction count with
  | zero =>
    intro index w w' h hcursor
    refine ⟨data.take w.cursor, [], data.drop w.cursor, by simp, by simp [hcursor], rfl, by simp,
      ⟨by simp, by simp⟩, (Except.ok.inj h).symm, ?_⟩
    rw [Except.ok.inj h]
    exact id
  | succ count ih =>
    intro index w w' h hcursor
    simp only [walk, bind, Except.bind] at h
    cases hentry : walkEntry data argc index w with
    | error fault => simp [hentry] at h
    | ok w₁ =>
      simp only [hentry] at h
      obtain ⟨front, value, back, rfl, hfront, hlength, hvalid, rfl, hwithin⟩ := walkEntry_ok hentry
      have hinside : (advance argc index w value).cursor ≤ (front ++ (frame value ++ back)).length := by
        rw [cursor_advance, hfront, List.length_append, List.length_append]
        omega
      obtain ⟨front', values, back', hsplit, hfront', hcount, hlengths, hvalids, rfl, hwithin'⟩ :=
        ih h hinside
      have hpieces : front' = front ++ frame value ∧ back = values.flatMap frame ++ back' := by
        rw [← List.append_assoc] at hsplit
        rw [cursor_advance, hfront] at hfront'
        have hinj := List.append_inj hsplit (by rw [List.length_append]; exact hfront')
        exact ⟨hinj.1.symm, hinj.2⟩
      refine ⟨front, value :: values, back', ?_, hfront, by rw [List.length_cons, hcount],
        List.forall_mem_cons.mpr ⟨hlength, hlengths⟩,
        (validFrom_cons index value values).mpr ⟨hvalid, hvalids⟩, rfl,
        fun hw => hwithin' (hwithin hw)⟩
      rw [hpieces.2, List.flatMap_cons, List.append_assoc]

/-- INTERNAL: the walk checks its reads. -/
theorem walk_inBounds (data : List UInt8) (argc count : ℕ) :
    ∀ (index : ℕ) (w : Walk), walk data argc count index w ≠ .error .outOfBounds := by
  induction count with
  | zero => exact fun _ _ => by simp [walk]
  | succ count ih =>
    intro index w
    have hentry := walkEntry_inBounds data argc index w
    simp only [walk, bind, Except.bind]
    cases hw : walkEntry data argc index w with
    | error fault =>
      rw [hw] at hentry
      simpa using hentry
    | ok w₁ => exact ih (index + 1) w₁

/-- INTERNAL: the walk over the arguments. -/
theorem advanceAll_arguments (argc : ℕ) (values : List (List UInt8)) :
    ∀ (index : ℕ) (w : Walk), index + values.length ≤ argc → advanceAll argc index w values =
      { w with
        cursor := w.cursor + (values.flatMap frame).length
        arguments := w.arguments ++ offsets w.cursor values
        argumentBytes := w.argumentBytes + total values } := by
  induction values with
  | nil => intro index w _; simp [advanceAll, offsets, total]
  | cons value rest ih =>
    intro index w hindex
    rw [List.length_cons] at hindex
    have hbelow : ¬ index ≥ argc := by omega
    rw [advanceAll, ih (index + 1) _ (by omega)]
    simp only [advance, if_neg hbelow, offsets, List.flatMap_cons, List.length_append, length_frame,
      total, List.map_cons, List.sum_cons, List.append_assoc, List.singleton_append, Nat.add_assoc,
      Nat.add_comm 4 value.length]

/-- INTERNAL: the walk over the environment. -/
theorem advanceAll_environment (argc : ℕ) (values : List (List UInt8)) :
    ∀ (index : ℕ) (w : Walk), argc ≤ index → advanceAll argc index w values =
      { w with
        cursor := w.cursor + (values.flatMap frame).length
        environment := w.environment ++ offsets w.cursor values
        environmentBytes := w.environmentBytes + total values } := by
  induction values with
  | nil => intro index w _; simp [advanceAll, offsets, total]
  | cons value rest ih =>
    intro index w hindex
    rw [advanceAll, ih (index + 1) _ (by omega)]
    simp only [advance, if_pos hindex, ge_iff_le, offsets, List.flatMap_cons, List.length_append,
      length_frame, total, List.map_cons, List.sum_cons, List.append_assoc, List.singleton_append,
      Nat.add_assoc, Nat.add_comm 4 value.length]

/-- INTERNAL: a walk in two parts. -/
theorem advanceAll_append (argc : ℕ) (values others : List (List UInt8)) :
    ∀ (index : ℕ) (w : Walk), advanceAll argc index w (values ++ others) =
      advanceAll argc (index + values.length) (advanceAll argc index w values) others := by
  induction values with
  | nil => exact fun _ _ => rfl
  | cons value rest ih =>
    intro index w
    simp only [List.cons_append, advanceAll, ih, List.length_cons, Nat.add_assoc, Nat.add_comm 1]

/-- INTERNAL: **the walk of the helper over arguments and an environment.** -/
theorem advanceAll_packet (arguments environment : List (List UInt8)) :
    advanceAll arguments.length 0 ⟨10, [], [], 0, 0⟩ (arguments ++ environment) =
      ⟨10 + ((arguments ++ environment).flatMap frame).length, offsets 10 arguments,
        offsets (10 + (arguments.flatMap frame).length) environment, total arguments,
        total environment⟩ := by
  have harguments := advanceAll_arguments arguments.length arguments 0 ⟨10, [], [], 0, 0⟩ (by omega)
  rw [advanceAll_append, harguments, advanceAll_environment _ environment _ _ (by omega)]
  simp [List.flatMap_append, Nat.add_assoc]

/-! ## The texts at the offsets -/

/-- INTERNAL: **the texts at the offsets of entries.** -/
theorem cstr_offsets (values : List (List UInt8)) :
    ∀ (front back : List UInt8), (∀ value ∈ values, Terminated value) →
      (offsets front.length values).map (cstr (front ++ (values.flatMap frame ++ back))) =
        values.map fun value => some value.dropLast := by
  induction values with
  | nil => exact fun _ _ _ => rfl
  | cons value rest ih =>
    intro front back h
    obtain ⟨hvalue, htext⟩ := (h value List.mem_cons_self).dropLast
    have hfirst : cstr (front ++ ((value :: rest).flatMap frame ++ back)) (front.length + 4) =
        some value.dropLast := by
      have hdata : front ++ ((value :: rest).flatMap frame ++ back) =
          (front ++ le 4 value.length) ++ (value.dropLast ++ 0 :: (rest.flatMap frame ++ back)) := by
        rw [List.flatMap_cons, frame]
        nth_rewrite 2 [hvalue]
        simp only [List.append_assoc, List.cons_append, List.nil_append]
      have hoffset : front.length + 4 = (front ++ le 4 value.length).length := by simp
      rw [hdata, hoffset]
      exact cstr_append _ _ _ htext
    have hnext := ih (front ++ frame value) back fun v hv => h v (List.mem_cons_of_mem _ hv)
    have hoffset : (front ++ frame value).length = front.length + 4 + value.length := by
      rw [List.length_append, length_frame]
      omega
    have hdata : (front ++ frame value) ++ (rest.flatMap frame ++ back) =
        front ++ ((value :: rest).flatMap frame ++ back) := by
      simp only [List.flatMap_cons, List.append_assoc]
    rw [hoffset, hdata] at hnext
    rw [offsets, List.map_cons, List.map_cons, hfirst, hnext]

/-! ## The environment -/

/-- The checks of the environment on its texts. -/
def textsOk : ℕ → List (List UInt8) → List (List UInt8) → Bool
  | _, _, [] => true
  | index, names, value :: rest =>
    if index < 2 then
      decide (value = bytes (if index = 0 then "LANG=C" else "LC_ALL=C")) &&
        textsOk (index + 1) names rest
    else
      let name := value.takeWhile (· ≠ 61)
      value.contains 61 && helperName name && !names.contains name &&
        textsOk (index + 1) (name :: names) rest

/-- INTERNAL: the checks of the environment depend on its texts only. -/
theorem checkEnvironment_eq (data : List UInt8) (texts : List (List UInt8)) :
    ∀ (index : ℕ) (names : List (List UInt8)) (positions : List ℕ),
      positions.map (cstr data) = texts.map some → checkEnvironment data index names positions =
        if textsOk index names texts then .ok () else .error .rejected := by
  induction texts with
  | nil =>
    intro index names positions h
    rw [List.map_eq_nil_iff.mp h]
    rfl
  | cons value rest ih =>
    intro index names positions h
    cases positions with
    | nil => simp at h
    | cons offset positions =>
      rw [List.map_cons, List.map_cons, List.cons.injEq] at h
      simp only [checkEnvironment, h.1, orFault, bind, Except.bind, textsOk,
        ih _ _ positions h.2]
      split_ifs <;> simp_all

/-- The helper's names hold neither an equals sign nor a NUL. -/
theorem helperName_bytes {name : List UInt8} (h : helperName name = true) :
    (61 : UInt8) ∉ name ∧ (0 : UInt8) ∉ name := by
  simp only [helperName, Bool.and_eq_true] at h
  have hbytes : nameBytes name = true := h.1.1.1.2
  have hclass : ∀ b ∈ name, b = 95 ∨ isUppercase b = true ∨ isDigit b = true := by
    cases name with
    | nil => simp
    | cons c rest =>
      simp only [nameBytes, Bool.and_eq_true, Bool.or_eq_true, decide_eq_true_eq, List.all_eq_true,
        or_assoc] at hbytes
      intro b hb
      rcases List.mem_cons.mp hb with rfl | hb
      · rcases hbytes.1 with hc | hc
        · exact Or.inl hc
        · exact Or.inr (Or.inl hc)
      · exact hbytes.2 b hb
  constructor
  · intro hmem
    have := hclass 61 hmem
    revert this
    decide
  · intro hmem
    have := hclass 0 hmem
    revert this
    decide

/-- The text of a variable. -/
def variableText (e : List UInt8 × List UInt8) : List UInt8 := e.1 ++ 61 :: e.2

/-- INTERNAL: the name of a variable is what stands before the first equals sign. -/
theorem takeWhile_variableText {e : List UInt8 × List UInt8} (h : (61 : UInt8) ∉ e.1) :
    (variableText e).takeWhile (· ≠ 61) = e.1 ∧ (variableText e).contains 61 = true := by
  constructor
  · unfold variableText
    rw [List.takeWhile_append_of_pos]
    · simp
    · intro b hb
      simp only [ne_eq, decide_eq_true_eq]
      rintro rfl
      exact h hb
  · simp [variableText]

/-- INTERNAL: a text with an equals sign is the text of a variable. -/
theorem exists_variableText {value : List UInt8} (h : value.contains 61 = true) :
    ∃ rest, value = variableText (value.takeWhile (· ≠ 61), rest) := by
  have hmem : (61 : UInt8) ∈ value := by simpa using h
  obtain ⟨front, back, rfl, hfront⟩ := List.eq_append_cons_of_mem hmem
  refine ⟨back, ?_⟩
  rw [show front ++ 61 :: back = variableText (front, back) from rfl, (takeWhile_variableText hfront).1]

/-- INTERNAL: **the texts after the baseline are those of vars with distinct names.** -/
theorem textsOk_iff (texts : List (List UInt8)) :
    ∀ (index : ℕ) (names : List (List UInt8)), 2 ≤ index → (textsOk index names texts = true ↔
      ∃ vars : List (List UInt8 × List UInt8), texts = vars.map variableText ∧
        (∀ e ∈ vars, helperName e.1 = true ∧ e.1 ∉ names) ∧ (vars.map Prod.fst).Nodup) := by
  induction texts with
  | nil =>
    intro index names _
    simp only [textsOk, true_iff]
    exact ⟨[], rfl, by simp, by simp⟩
  | cons value rest ih =>
    intro index names hindex
    simp only [textsOk, if_neg (Nat.not_lt.mpr hindex), Bool.and_eq_true, Bool.not_eq_true',
      ih (index + 1) _ (by omega)]
    constructor
    · rintro ⟨⟨⟨hequals, hname⟩, hnew⟩, vars, rfl, hnames, hdistinct⟩
      obtain ⟨tail, htail⟩ := exists_variableText hequals
      refine ⟨(value.takeWhile (· ≠ 61), tail) :: vars, ?_, ?_, ?_⟩
      · rw [List.map_cons, ← htail]
      · refine List.forall_mem_cons.mpr ⟨⟨hname, by simpa using hnew⟩, fun e he => ?_⟩
        exact ⟨(hnames e he).1, fun hmem => (hnames e he).2 (List.mem_cons_of_mem _ hmem)⟩
      · rw [List.map_cons, List.nodup_cons]
        refine ⟨fun hmem => ?_, hdistinct⟩
        obtain ⟨e, he, heq⟩ := List.mem_map.mp hmem
        exact (hnames e he).2 (heq ▸ List.mem_cons_self)
    · rintro ⟨vars, htexts, hnames, hdistinct⟩
      cases vars with
      | nil => simp at htexts
      | cons e vars =>
        rw [List.map_cons, List.cons.injEq] at htexts
        obtain ⟨rfl, rfl⟩ := htexts
        obtain ⟨hname, hnew⟩ := hnames e List.mem_cons_self
        obtain ⟨htake, hequals⟩ := takeWhile_variableText (helperName_bytes hname).1
        rw [List.map_cons, List.nodup_cons] at hdistinct
        rw [htake]
        refine ⟨⟨⟨hequals, hname⟩, by simpa using hnew⟩, vars, rfl, fun e' he' => ?_, hdistinct.2⟩
        obtain ⟨hname', hnew'⟩ := hnames e' (List.mem_cons_of_mem _ he')
        refine ⟨hname', fun hmem => ?_⟩
        rcases List.mem_cons.mp hmem with heq | hmem
        · exact hdistinct.1 (heq ▸ List.mem_map_of_mem he')
        · exact hnew' hmem

/-! ## What a packet carries -/

/-- The arguments and the variables of a child within the limits of the helper. -/
structure Child where
  argv : List (List UInt8)
  mappings : List (List UInt8 × List UInt8)
  argvCount : 1 ≤ argv.length ∧ argv.length ≤ Bridge.MAX_ARGS
  command : argv.head? ≠ some []
  argvTexts : ∀ text ∈ argv, (0 : UInt8) ∉ text
  argvBytes : total (argv.map (· ++ [0])) ≤ MAX_ARG_BYTES
  count : mappings.length + 2 ≤ MAX_ENTRIES
  names : ∀ e ∈ mappings, helperName e.1 = true
  distinct : (mappings.map Prod.fst).Nodup
  values : ∀ e ∈ mappings, (0 : UInt8) ∉ e.2
  bytes : total (([bytes "LANG=C", bytes "LC_ALL=C"] ++ mappings.map variableText).map (· ++ [0])) ≤
    MAX_BYTES

/-- The texts of the environment: the baseline, then the variables. -/
def Child.environment (child : Child) : List (List UInt8) :=
  [Text.bytes "LANG=C", Text.bytes "LC_ALL=C"] ++ child.mappings.map variableText

/-- The bytes of the packet for a child. -/
def Child.encode (child : Child) (code : UInt8) : List UInt8 :=
  payload code (child.argv.map (· ++ [0])) (child.environment.map (· ++ [0]))

/-- INTERNAL: texts with their NULs. -/
theorem terminated_map (texts : List (List UInt8)) (h : ∀ text ∈ texts, (0 : UInt8) ∉ text) :
    (∀ value ∈ texts.map (· ++ [0]), Terminated value) ∧
      (texts.map (· ++ [0])).map List.dropLast = texts := by
  constructor
  · intro value hvalue
    obtain ⟨text, htext, rfl⟩ := List.mem_map.mp hvalue
    exact ⟨text, rfl, h text htext⟩
  · rw [List.map_map]
    simp [Function.comp_def]

/-- INTERNAL: terminated entries are texts with their NULs. -/
theorem exists_texts (values : List (List UInt8)) (h : ∀ value ∈ values, Terminated value) :
    values = (values.map List.dropLast).map (· ++ [0]) ∧
      ∀ text ∈ values.map List.dropLast, (0 : UInt8) ∉ text := by
  constructor
  · rw [List.map_map]
    nth_rewrite 1 [← List.map_id values]
    exact List.map_congr_left fun value hvalue => (h value hvalue).dropLast.1
  · intro text htext
    obtain ⟨value, hvalue, rfl⟩ := List.mem_map.mp htext
    exact (h value hvalue).dropLast.2

/-- INTERNAL: the texts of the environment of a child hold no NUL. -/
theorem Child.environment_texts (child : Child) : ∀ text ∈ child.environment, (0 : UInt8) ∉ text := by
  intro text htext
  simp only [Child.environment, List.mem_append, List.mem_cons, List.not_mem_nil, or_false] at htext
  rcases htext with (rfl | rfl) | htext
  · decide
  · decide
  · obtain ⟨e, he, rfl⟩ := List.mem_map.mp htext
    have hname := (helperName_bytes (child.names e he)).2
    simp [variableText, hname, child.values e he]

theorem Child.textsOk (child : Child) : textsOk 0 [] child.environment = true := by
  have hvariables := (textsOk_iff (child.mappings.map variableText) 2 [] (le_refl 2)).mpr
    ⟨child.mappings, rfl, fun e he => ⟨child.names e he, List.not_mem_nil⟩, child.distinct⟩
  simp [Child.environment, Bridge.textsOk, hvariables]

theorem length_le_total {values : List (List UInt8)} {value : List UInt8} (h : value ∈ values) :
    value.length ≤ total values :=
  List.le_sum_of_mem (List.mem_map_of_mem h)

/-! ## The header -/

section Packets

variable {Fd : Type} (kernel : Kernel Fd)

/-- The descriptors of a packet are as many as its code demands, and pass the kernel's checks. -/
def FdsPass (code : UInt8) (fds : List Fd) : Prop :=
  (code = TRANSFER ∧ ∃ file, fds = [file] ∧ kernel.executable file = true) ∨
    (code = TRANSFER_SSH ∧ ∃ file directory, fds = [file, directory] ∧ kernel.executable file = true ∧
      kernel.directory directory = true) ∨
    (code = TRANSFER_PRODUCER ∧ ∃ file output, fds = [file, output] ∧ kernel.executable file = true ∧
      kernel.producerOutput output = true)

/-- The bytes of a packet with a code, two counts and what follows. -/
def header (code : UInt8) (argc envc : ℕ) (rest : List UInt8) : List UInt8 :=
  MAGIC ++ code :: (le 2 argc ++ (le 2 envc ++ rest))

/-- What the helper does once it has read the header. -/
def body (packet : Packet Fd) (argc envc : ℕ) : Except Model.Bridge.Fault (Launch Fd) := do
  if !(decide (1 ≤ argc) && decide (argc ≤ 128)) then .error .rejected
  if !(decide (2 ≤ envc) && decide (envc ≤ 32)) then .error .rejected
  let w ← walk packet.bytes argc (argc + envc) 0 ⟨10, [], [], 0, 0⟩
  if w.cursor ≠ packet.bytes.length then .error .rejected
  checkEnvironment packet.bytes 0 [] w.environment
  pure ⟨packet, w.arguments, w.environment⟩

/-- INTERNAL: a header that is in order is read. -/
theorem parse_header (code : UInt8) (argc envc : ℕ) (rest : List UInt8) (fds : List Fd)
    (hargc : argc < 256 ^ 2) (henvc : envc < 256 ^ 2) (hfds : FdsPass kernel code fds) :
    parse kernel ⟨header code argc envc rest, fds⟩ = body ⟨header code argc envc rest, fds⟩ argc envc := by
  have hlength : (header code argc envc rest).length = 10 + rest.length := by
    simp only [header, List.length_append, List.length_cons, length_le, MAGIC, List.length_nil]
    omega
  have hcode : Packet.code ⟨header code argc envc rest, fds⟩ = .ok code := by
    have hmagic : slice (header code argc envc rest) 0 5 = some MAGIC :=
      slice_append [] MAGIC _ 0 5 rfl rfl
    have hfifth : (header code argc envc rest)[5]? = some code := rfl
    simp only [Packet.code, hlength, hmagic, hfifth, orFault, bind, Except.bind]
    rw [if_neg (by omega)]
    rfl
  have hargcBytes : slice (header code argc envc rest) 6 8 = some (le 2 argc) := by
    have h := slice_append (MAGIC ++ [code]) (le 2 argc) (le 2 envc ++ rest) 6 8 rfl (by simp [MAGIC])
    simpa [header] using h
  have henvcBytes : slice (header code argc envc rest) 8 10 = some (le 2 envc) := by
    have h := slice_append (MAGIC ++ code :: le 2 argc) (le 2 envc) rest 8 10 (by simp [MAGIC])
      (by simp [MAGIC])
    simpa [header] using h
  have hshort : ¬ (header code argc envc rest).length < 10 := by omega
  have hssh : TRANSFER ≠ TRANSFER_SSH := by decide
  have hproducer : TRANSFER ≠ TRANSFER_PRODUCER := by decide
  have hother : TRANSFER_SSH ≠ TRANSFER_PRODUCER := by decide
  rcases hfds with ⟨rfl, file, rfl, hfile⟩ | ⟨rfl, file, directory, rfl, hfile, hdirectory⟩ |
    ⟨rfl, file, output, rfl, hfile, houtput⟩
  · simp [parse, body, hcode, hshort, hargcBytes, henvcBytes, unle_le 2 _ hargc, unle_le 2 _ henvc,
      hfile, orFault, bind, Except.bind, pure, Except.pure, hssh, hproducer]
  · simp [parse, body, hcode, hshort, hargcBytes, henvcBytes, unle_le 2 _ hargc, unle_le 2 _ henvc,
      hfile, hdirectory, orFault, bind, Except.bind, pure, Except.pure, hother]
  · simp [parse, body, hcode, hshort, hargcBytes, henvcBytes, unle_le 2 _ hargc, unle_le 2 _ henvc,
      hfile, houtput, orFault, bind, Except.bind, pure, Except.pure, hother.symm]

/-- INTERNAL: the code of a packet. -/
theorem code_cases (packet : Packet Fd) : packet.code = .error .rejected ∨
    ∃ code rest, packet.bytes = MAGIC ++ code :: rest ∧ packet.code = .ok code := by
  by_cases hsix : packet.bytes.length < 6
  · left
    simp [Packet.code, hsix, bind, Except.bind]
  · have hmagic : slice packet.bytes 0 5 = some (packet.bytes.take 5) := by
      rw [slice, if_pos ⟨by omega, by omega⟩]
      rfl
    have hfifth : packet.bytes[5]? = some packet.bytes[5] := List.getElem?_eq_getElem (by omega)
    by_cases heq : packet.bytes.take 5 = MAGIC
    · refine Or.inr ⟨packet.bytes[5], packet.bytes.drop 6, ?_, ?_⟩
      · rw [← heq, ← List.drop_eq_getElem_cons, List.take_append_drop]
      · simp [Packet.code, hsix, hmagic, heq, hfifth, orFault, bind, Except.bind]
    · left
      simp [Packet.code, hsix, hmagic, heq, orFault, bind, Except.bind]

/-- INTERNAL: descriptors that do not pass are rejected. -/
theorem parse_rejects_fds {packet : Packet Fd} {code : UInt8} (hcode : packet.code = .ok code)
    (hten : ¬ packet.bytes.length < 10) (h : ¬ FdsPass kernel code packet.fds) :
    parse kernel packet = .error .rejected := by
  have hssh : TRANSFER ≠ TRANSFER_SSH := by decide
  have hproducer : TRANSFER ≠ TRANSFER_PRODUCER := by decide
  have hother : TRANSFER_SSH ≠ TRANSFER_PRODUCER := by decide
  obtain ⟨data, fds⟩ := packet
  by_cases hknown : code = TRANSFER ∨ code = TRANSFER_SSH ∨ code = TRANSFER_PRODUCER
  · rcases hknown with rfl | rfl | rfl
    · rcases fds with _ | ⟨file, _ | ⟨other, more⟩⟩
      · simp [parse, hcode, hten, bind, Except.bind, hssh, hproducer]
      · have hfile : kernel.executable file = false := by simpa [FdsPass, hssh, hproducer] using h
        simp [parse, hcode, hten, bind, Except.bind, hssh, hproducer, orFault, hfile]
      · simp [parse, hcode, hten, bind, Except.bind, hssh, hproducer]
    · rcases fds with _ | ⟨file, _ | ⟨directory, _ | ⟨other, more⟩⟩⟩
      · simp [parse, hcode, hten, bind, Except.bind]
      · simp [parse, hcode, hten, bind, Except.bind]
      · have hpair : kernel.executable file = true → kernel.directory directory = false := by
          simpa [FdsPass, hssh.symm, hother] using h
        cases hfile : kernel.executable file with
        | false => simp [parse, hcode, hten, bind, Except.bind, orFault, hfile]
        | true =>
          simp [parse, hcode, hten, bind, Except.bind, orFault, hfile, hpair hfile]
      · simp [parse, hcode, hten, bind, Except.bind]
    · rcases fds with _ | ⟨file, _ | ⟨output, _ | ⟨other, more⟩⟩⟩
      · simp [parse, hcode, hten, bind, Except.bind]
      · simp [parse, hcode, hten, bind, Except.bind]
      · have hpair : kernel.executable file = true → kernel.producerOutput output = false := by
          simpa [FdsPass, hproducer.symm, hother.symm] using h
        cases hfile : kernel.executable file with
        | false => simp [parse, hcode, hten, bind, Except.bind, orFault, hfile]
        | true =>
          simp [parse, hcode, hten, bind, Except.bind, orFault, hfile, hpair hfile,
            hother.symm]
      · simp [parse, hcode, hten, bind, Except.bind]
  · rw [not_or, not_or] at hknown
    simp [parse, hcode, bind, Except.bind, hknown.1, hknown.2.1, hknown.2.2]

/-- INTERNAL: **a packet whose header is not in order is rejected.** -/
theorem parse_cases (packet : Packet Fd) : parse kernel packet = .error .rejected ∨
    ∃ code argc envc rest, packet.bytes = header code argc envc rest ∧ argc < 256 ^ 2 ∧
      envc < 256 ^ 2 ∧ FdsPass kernel code packet.fds := by
  rcases code_cases packet with hcode | ⟨code, rest, hbytes, hcode⟩
  · left
    simp [parse, hcode, bind, Except.bind]
  by_cases hten : packet.bytes.length < 10
  · left
    simp only [parse, hcode, hten, bind, Except.bind, if_true]
    split_ifs <;> rfl
  by_cases hfds : FdsPass kernel code packet.fds
  · right
    have hrest : 4 ≤ rest.length := by
      rw [hbytes, List.length_append, List.length_cons] at hten
      simp only [MAGIC, List.length_cons, List.length_nil] at hten
      omega
    have hargc : (rest.take 2).length = 2 := by
      rw [List.length_take]
      omega
    have henvc : ((rest.drop 2).take 2).length = 2 := by
      rw [List.length_take, List.length_drop]
      omega
    have hlow := le_unle (rest.take 2)
    have hhigh := le_unle ((rest.drop 2).take 2)
    have hargcLt := unle_lt (rest.take 2)
    have henvcLt := unle_lt ((rest.drop 2).take 2)
    rw [hargc] at hlow hargcLt
    rw [henvc] at hhigh henvcLt
    refine ⟨code, unle (rest.take 2), unle ((rest.drop 2).take 2), (rest.drop 2).drop 2, ?_, hargcLt,
      henvcLt, hfds⟩
    rw [header, hlow, hhigh, List.take_append_drop, List.take_append_drop, hbytes]
  · exact Or.inl (parse_rejects_fds kernel hcode hten hfds)

/-! ## Packets that are accepted -/

/-- INTERNAL: the entries of a child pass the checks of the walk. -/
theorem Child.validFrom (child : Child) :
    ValidFrom 0 (child.argv.map (· ++ [0]) ++ child.environment.map (· ++ [0])) := by
  obtain ⟨hargv, -⟩ := terminated_map child.argv child.argvTexts
  obtain ⟨henvironment, -⟩ := terminated_map child.environment child.environment_texts
  refine ⟨fun value hvalue => (List.mem_append.mp hvalue).elim (hargv value) (henvironment value), ?_⟩
  intro _ value hvalue
  have hcount := child.argvCount.1
  have hcommand := child.command
  cases hargs : child.argv with
  | nil => simp [hargs] at hcount
  | cons first rest =>
    rw [hargs] at hcommand hvalue
    have hne : first ≠ [] := by simpa using hcommand
    have heq : first ++ [0] = value := by simpa using hvalue
    have hpos := List.length_pos_of_ne_nil hne
    rw [← heq, List.length_append]
    simp only [List.length_cons, List.length_nil]
    omega

/-- The texts of entries. -/
def texts (values : List (List UInt8)) : List (List UInt8) := values.map List.dropLast

/-- INTERNAL: the texts at the offsets of a packet. -/
theorem cstr_header (code : UInt8) (argc envc : ℕ) (arguments environment : List (List UInt8))
    (h : ∀ value ∈ arguments ++ environment, Terminated value) :
    (offsets 10 arguments).map (cstr (header code argc envc ((arguments ++ environment).flatMap frame))) =
        (texts arguments).map some ∧
      (offsets (10 + (arguments.flatMap frame).length) environment).map
        (cstr (header code argc envc ((arguments ++ environment).flatMap frame))) =
          (texts environment).map some := by
  have hfront : (header code argc envc []).length = 10 := by simp [header, MAGIC]
  have hfirst : header code argc envc ((arguments ++ environment).flatMap frame) =
      header code argc envc [] ++ (arguments.flatMap frame ++ environment.flatMap frame) := by
    simp [header, List.flatMap_append]
  have hsecond : header code argc envc ((arguments ++ environment).flatMap frame) =
      (header code argc envc [] ++ arguments.flatMap frame) ++ (environment.flatMap frame ++ []) := by
    simp [header, List.flatMap_append]
  have harguments := cstr_offsets arguments (header code argc envc []) (environment.flatMap frame)
    fun v hv => h v (List.mem_append_left _ hv)
  have henvironment := cstr_offsets environment (header code argc envc [] ++ arguments.flatMap frame) []
    fun v hv => h v (List.mem_append_right _ hv)
  rw [← hfirst, hfront] at harguments
  rw [← hsecond, List.length_append, hfront] at henvironment
  exact ⟨harguments.trans (List.map_map).symm, henvironment.trans (List.map_map).symm⟩

/-- **The packet of a child is accepted**, with the offsets of its arguments and its environment. -/
theorem parse_encode (child : Child) (code : UInt8) (fds : List Fd) (hfds : FdsPass kernel code fds) :
    parse kernel ⟨child.encode code, fds⟩ = .ok ⟨⟨child.encode code, fds⟩,
      offsets 10 (child.argv.map (· ++ [0])),
      offsets (10 + ((child.argv.map (· ++ [0])).flatMap frame).length)
        (child.environment.map (· ++ [0]))⟩ := by
  let arguments := child.argv.map (· ++ [0])
  let environment := child.environment.map (· ++ [0])
  have hargc : arguments.length = child.argv.length := List.length_map _
  have henvc : environment.length = child.mappings.length + 2 := by
    simp [environment, Child.environment]
  have hargcCount := child.argvCount
  have henvcCount := child.count
  simp only [Bridge.MAX_ARGS, MAX_ENTRIES] at hargcCount henvcCount
  have hheader : child.encode code = header code arguments.length environment.length
      ((arguments ++ environment).flatMap frame) := rfl
  have hwithin : Within (advanceAll arguments.length 0 ⟨10, [], [], 0, 0⟩ (arguments ++ environment)) := by
    rw [advanceAll_packet]
    exact ⟨child.argvBytes, child.bytes⟩
  have hlengths : ∀ value ∈ arguments ++ environment, value.length < 256 ^ 4 := by
    intro value hvalue
    rcases List.mem_append.mp hvalue with hvalue | hvalue
    · exact lt_of_le_of_lt ((length_le_total hvalue).trans child.argvBytes) (by decide)
    · exact lt_of_le_of_lt ((length_le_total hvalue).trans child.bytes) (by decide)
  let front := header code arguments.length environment.length []
  have hdata : child.encode code = front ++ ((arguments ++ environment).flatMap frame ++ []) := by
    rw [hheader]
    simp [front, header]
  have hfront : front.length = 10 := by simp [front, header, MAGIC]
  have hwalk := walk_frames arguments.length (arguments ++ environment) front [] 0 ⟨10, [], [], 0, 0⟩
    hfront.symm hlengths child.validFrom hwithin
  rw [← hdata, advanceAll_packet, List.length_append] at hwalk
  have hcursor : (child.encode code).length = 10 + ((arguments ++ environment).flatMap frame).length := by
    rw [hdata, List.length_append, hfront, List.append_nil]
  have htexts := (cstr_header code arguments.length environment.length arguments environment
    child.validFrom.1).2
  have hbaseline : texts environment = child.environment :=
    (terminated_map child.environment child.environment_texts).2
  rw [← hheader, hbaseline] at htexts
  have henvironment := checkEnvironment_eq (child.encode code) child.environment 0 [] _ htexts
  rw [child.textsOk, if_pos rfl] at henvironment
  have hparse := parse_header kernel code arguments.length environment.length
    ((arguments ++ environment).flatMap frame) fds (by omega) (by omega) hfds
  rw [← hheader] at hparse
  rw [hparse]
  have hargcOk : (decide (1 ≤ arguments.length) && decide (arguments.length ≤ 128)) = true := by
    simp only [Bool.and_eq_true, decide_eq_true_eq]
    omega
  have henvcOk : (decide (2 ≤ environment.length) && decide (environment.length ≤ 32)) = true := by
    simp only [Bool.and_eq_true, decide_eq_true_eq]
    omega
  simp only [body, hargcOk, henvcOk, hwalk, hcursor, henvironment, bind, Except.bind, pure, Except.pure,
    Bool.not_true, Bool.false_eq_true, if_false, ne_eq, not_true_eq_false]
  rfl

/-- INTERNAL: **a walk that reaches the end of the packet was over its entries.** -/
theorem walk_header {code : UInt8} {argc envc : ℕ} {rest : List UInt8} {w : Walk}
    (h : walk (header code argc envc rest) argc (argc + envc) 0 ⟨10, [], [], 0, 0⟩ = .ok w)
    (hcursor : w.cursor = (header code argc envc rest).length) :
    ∃ arguments environment, rest = (arguments ++ environment).flatMap frame ∧
      arguments.length = argc ∧ environment.length = envc ∧ ValidFrom 0 (arguments ++ environment) ∧
      w = ⟨10 + rest.length, offsets 10 arguments,
        offsets (10 + (arguments.flatMap frame).length) environment, total arguments,
        total environment⟩ ∧ Within w := by
  have hfrontLength : (header code argc envc []).length = 10 := by simp [header, MAGIC]
  have hheader : header code argc envc rest = header code argc envc [] ++ rest := by simp [header]
  have hlength : (header code argc envc rest).length = 10 + rest.length := by
    rw [hheader, List.length_append, hfrontLength]
  obtain ⟨front, values, back, hsplit, hfront, hcount, -, hvalid, rfl, hwithin⟩ :=
    walk_ok (argc + envc) h (show 10 ≤ _ by omega)
  have hparts : front = header code argc envc [] ∧ rest = values.flatMap frame ++ back := by
    rw [hheader] at hsplit
    have hinj := List.append_inj hsplit (by rw [hfrontLength]; exact hfront)
    exact ⟨hinj.1.symm, hinj.2⟩
  obtain ⟨arguments, environment, rfl, rfl⟩ : ∃ arguments environment,
      values = arguments ++ environment ∧ arguments.length = argc :=
    ⟨values.take argc, values.drop argc, (List.take_append_drop _ _).symm, by
      rw [List.length_take]
      omega⟩
  have hwithin := hwithin ⟨Nat.zero_le _, Nat.zero_le _⟩
  rw [advanceAll_packet] at hcursor hwithin ⊢
  -- nothing is left behind the entries
  have hback : back = [] := by
    rw [hlength, hparts.2, List.length_append] at hcursor
    exact List.length_eq_zero_iff.mp (by simp only at hcursor; omega)
  have hrest : rest = (arguments ++ environment).flatMap frame := by
    rw [hparts.2, hback, List.append_nil]
  refine ⟨arguments, environment, hrest, rfl, ?_, hvalid, ?_, hwithin⟩
  · rw [List.length_append] at hcount
    omega
  · rw [hrest]

/-- INTERNAL: the environment of an accepted packet is the baseline and variables. -/
theorem exists_mappings {environment : List (List UInt8)} (h : textsOk 0 [] (texts environment) = true)
    (hcount : 2 ≤ environment.length) : ∃ mappings : List (List UInt8 × List UInt8),
      texts environment = [Text.bytes "LANG=C", Text.bytes "LC_ALL=C"] ++ mappings.map variableText ∧
        (∀ e ∈ mappings, helperName e.1 = true) ∧ (mappings.map Prod.fst).Nodup := by
  have hlength : (texts environment).length = environment.length := List.length_map _
  rcases htexts : texts environment with _ | ⟨first, _ | ⟨second, others⟩⟩
  · rw [htexts, List.length_nil] at hlength
    omega
  · rw [htexts, List.length_singleton] at hlength
    omega
  · rw [htexts] at h
    simp only [textsOk, Nat.zero_lt_two, if_true, Nat.zero_add, Nat.one_lt_two, Bool.and_eq_true,
      decide_eq_true_eq, Nat.one_ne_zero, if_false] at h
    obtain ⟨rfl, rfl, hothers⟩ := h
    obtain ⟨mappings, rfl, hnames, hdistinct⟩ := (textsOk_iff others 2 [] (le_refl 2)).mp hothers
    exact ⟨mappings, rfl, fun e he => (hnames e he).1, hdistinct⟩

/-- **A packet that is accepted is the packet of a child.** -/
theorem exists_child {packet : Packet Fd} {launch : Launch Fd} (h : parse kernel packet = .ok launch) :
    ∃ (child : Child) (code : UInt8), packet.bytes = child.encode code ∧
      FdsPass kernel code packet.fds := by
  rcases parse_cases kernel packet with hrejected | ⟨code, argc, envc, rest, hbytes, hargc, henvc, hfds⟩
  · rw [hrejected] at h
    simp at h
  obtain ⟨data, fds⟩ := packet
  simp only at hbytes hfds
  subst hbytes
  rw [parse_header kernel code argc envc rest fds hargc henvc hfds] at h
  simp only [body, bind, Except.bind, pure, Except.pure] at h
  split_ifs at h with hargcRange henvcRange
  simp only [Bool.not_eq_true', Bool.and_eq_false_iff, decide_eq_false_iff_not, not_or, not_not]
    at hargcRange henvcRange
  cases hwalk : walk (header code argc envc rest) argc (argc + envc) 0 ⟨10, [], [], 0, 0⟩ with
  | error fault => simp [hwalk] at h
  | ok w =>
    simp only [hwalk] at h
    split_ifs at h with hcursor
    rw [not_not] at hcursor
    obtain ⟨arguments, environment, rfl, rfl, rfl, ⟨hterminated, hcommand⟩, rfl, hwithin⟩ :=
      walk_header hwalk hcursor
    have htexts := (cstr_header code arguments.length environment.length arguments environment
      hterminated).2
    rw [checkEnvironment_eq _ _ 0 [] _ htexts] at h
    cases hok : textsOk 0 [] (texts environment) with
    | false => simp [hok] at h
    | true =>
      obtain ⟨hargvEq, hargvTexts⟩ := exists_texts arguments fun v hv =>
        hterminated v (List.mem_append_left _ hv)
      obtain ⟨henvEq, henvTexts⟩ := exists_texts environment fun v hv =>
        hterminated v (List.mem_append_right _ hv)
      obtain ⟨mappings, hmappings, hnames, hdistinct⟩ := exists_mappings hok henvcRange.1
      have hvalues : ∀ e ∈ mappings, (0 : UInt8) ∉ e.2 := by
        intro e he hzero
        have hmem : variableText e ∈ texts environment := by
          rw [hmappings]
          exact List.mem_append_right _ (List.mem_map_of_mem he)
        exact henvTexts (variableText e) hmem (by simp [variableText, hzero])
      have hcount : mappings.length + 2 = environment.length := by
        have hlength := congrArg List.length hmappings
        rw [texts, List.length_map, List.length_append, List.length_map] at hlength
        simp only [List.length_cons, List.length_nil] at hlength
        omega
      refine ⟨⟨texts arguments, mappings, ?_, ?_, hargvTexts, ?_, ?_, hnames, hdistinct, hvalues, ?_⟩,
        code, ?_, hfds⟩
      · rw [texts, List.length_map]
        exact hargcRange
      · intro hempty
        cases arguments with
        | nil => simp [texts] at hempty
        | cons first others =>
          have htwo := hcommand rfl first rfl
          have hnil : first.dropLast = [] := by simpa [texts] using hempty
          have hlength := congrArg List.length hnil
          rw [List.length_dropLast, List.length_nil] at hlength
          omega
      · rw [texts, ← hargvEq]
        exact hwithin.1
      · rw [hcount]
        exact henvcRange.2
      · rw [← hmappings, texts, ← henvEq]
        exact hwithin.2
      · simp only [Child.encode, Child.environment]
        rw [← hmappings, texts, texts, ← hargvEq, ← henvEq]
        rfl

/-- INTERNAL: **the helper never reads past the end of its buffer.** -/
theorem parse_inBounds (packet : Packet Fd) : parse kernel packet ≠ .error .outOfBounds := by
  rcases parse_cases kernel packet with hrejected | ⟨code, argc, envc, rest, hbytes, hargc, henvc, hfds⟩
  · rw [hrejected]
    simp
  obtain ⟨data, fds⟩ := packet
  simp only at hbytes hfds
  subst hbytes
  rw [parse_header kernel code argc envc rest fds hargc henvc hfds]
  simp only [body, bind, Except.bind, pure, Except.pure]
  split_ifs
  · simp
  · simp
  cases hwalk : walk (header code argc envc rest) argc (argc + envc) 0 ⟨10, [], [], 0, 0⟩ with
  | error fault =>
    have hinside := walk_inBounds (header code argc envc rest) argc (argc + envc) 0 ⟨10, [], [], 0, 0⟩
    rw [hwalk] at hinside
    simpa using hinside
  | ok w =>
    simp only
    split_ifs with hcursor
    · simp
    · obtain ⟨arguments, environment, rfl, rfl, rfl, ⟨hterminated, -⟩, rfl, -⟩ :=
        walk_header hwalk (not_not.mp hcursor)
      have htexts := (cstr_header code arguments.length environment.length arguments environment
        hterminated).2
      rw [checkEnvironment_eq _ _ 0 [] _ htexts]
      split_ifs <;> simp

end Packets

end VaultAccess.Analysis.Bridge
