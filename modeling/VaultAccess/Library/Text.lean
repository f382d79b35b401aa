import Mathlib.Algebra.GroupWithZero.Nat
import Mathlib.Data.List.Sort
import Mathlib.Data.String.Basic

/-!
# Characters, bytes and duplicate checks

The ASCII and control-character classes of the standard library, the byte view
of a text, splitting at a separator, and the sort-and-compare-neighbours test for
duplicates with its meaning.
-/

set_option autoImplicit false

namespace VaultAccess.Library

namespace Text

/-- UTF-8 bytes of a list of characters. -/
def utf8 (text : List Char) : List UInt8 := text.flatMap String.utf8EncodeChar

/-- UTF-8 bytes of a text. -/
def bytes (text : String) : List UInt8 := utf8 text.toList

/-- Unicode control characters (category Cc). -/
def isControl (c : Char) : Bool := c.toNat < 32 || (127 ≤ c.toNat && c.toNat ≤ 159)

def isAsciiDigit (c : Char) : Bool := '0' ≤ c && c ≤ '9'

def isAsciiLowercase (c : Char) : Bool := 'a' ≤ c && c ≤ 'z'

def isAsciiUppercase (c : Char) : Bool := 'A' ≤ c && c ≤ 'Z'

def isAsciiAlphanumeric (c : Char) : Bool :=
  isAsciiDigit c || isAsciiLowercase c || isAsciiUppercase c

/-- Printable ASCII without the space. -/
def isAsciiGraphic (c : Char) : Bool := '!' ≤ c && c ≤ '~'

def isAsciiHexdigit (c : Char) : Bool :=
  isAsciiDigit c || ('a' ≤ c && c ≤ 'f') || ('A' ≤ c && c ≤ 'F')

/-- A lowercase hexadecimal digit. -/
def isLowerHex (c : Char) : Bool := isAsciiDigit c || ('a' ≤ c && c ≤ 'f')

def toAsciiLowercase (c : Char) : Char :=
  if isAsciiUppercase c then Char.ofNat (c.toNat + 32) else c

/-- The parts of a text between the separators. -/
def split (separator : Char) : List Char → List (List Char)
  | [] => [[]]
  | c :: rest =>
    if c = separator then [] :: split separator rest
    else match split separator rest with
      | [] => [[c]]
      | part :: parts => (c :: part) :: parts

/-! ## The classes by code point -/

theorem isAsciiDigit_iff (c : Char) : isAsciiDigit c = true ↔ 48 ≤ c.toNat ∧ c.toNat ≤ 57 := by
  simp only [isAsciiDigit, Bool.and_eq_true, decide_eq_true_eq]
  rfl

theorem isAsciiLowercase_iff (c : Char) :
    isAsciiLowercase c = true ↔ 97 ≤ c.toNat ∧ c.toNat ≤ 122 := by
  simp only [isAsciiLowercase, Bool.and_eq_true, decide_eq_true_eq]
  rfl

theorem isAsciiUppercase_iff (c : Char) :
    isAsciiUppercase c = true ↔ 65 ≤ c.toNat ∧ c.toNat ≤ 90 := by
  simp only [isAsciiUppercase, Bool.and_eq_true, decide_eq_true_eq]
  rfl

theorem isAsciiGraphic_iff (c : Char) : isAsciiGraphic c = true ↔ 33 ≤ c.toNat ∧ c.toNat ≤ 126 := by
  simp only [isAsciiGraphic, Bool.and_eq_true, decide_eq_true_eq]
  rfl

theorem isAsciiAlphanumeric_iff (c : Char) : isAsciiAlphanumeric c = true ↔
    (48 ≤ c.toNat ∧ c.toNat ≤ 57) ∨ (97 ≤ c.toNat ∧ c.toNat ≤ 122) ∨
      (65 ≤ c.toNat ∧ c.toNat ≤ 90) := by
  simp only [isAsciiAlphanumeric, Bool.or_eq_true, isAsciiDigit_iff, isAsciiLowercase_iff,
    isAsciiUppercase_iff, or_assoc]

theorem isLowerHex_iff (c : Char) : isLowerHex c = true ↔
    (48 ≤ c.toNat ∧ c.toNat ≤ 57) ∨ (97 ≤ c.toNat ∧ c.toNat ≤ 102) := by
  simp only [isLowerHex, Bool.or_eq_true, isAsciiDigit_iff, Bool.and_eq_true, decide_eq_true_eq]
  rfl

theorem isAsciiHexdigit_iff (c : Char) : isAsciiHexdigit c = true ↔
    (48 ≤ c.toNat ∧ c.toNat ≤ 57) ∨ (97 ≤ c.toNat ∧ c.toNat ≤ 102) ∨
      (65 ≤ c.toNat ∧ c.toNat ≤ 70) := by
  simp only [isAsciiHexdigit, Bool.or_eq_true, isAsciiDigit_iff, Bool.and_eq_true,
    decide_eq_true_eq, or_assoc]
  rfl

theorem isControl_iff (c : Char) :
    isControl c = true ↔ c.toNat < 32 ∨ (127 ≤ c.toNat ∧ c.toNat ≤ 159) := by
  simp only [isControl, Bool.or_eq_true, Bool.and_eq_true, decide_eq_true_eq]

theorem toNat_toAsciiLowercase (c : Char) :
    (toAsciiLowercase c).toNat = if 65 ≤ c.toNat ∧ c.toNat ≤ 90 then c.toNat + 32 else c.toNat := by
  unfold toAsciiLowercase
  by_cases h : isAsciiUppercase c = true
  · have hrange := (isAsciiUppercase_iff c).mp h
    have hvalid : (c.toNat + 32).isValidChar := Or.inl (by omega)
    rw [if_pos h, if_pos hrange, Char.ofNat, dif_pos hvalid]
    rfl
  · rw [if_neg h, if_neg (fun hc => h ((isAsciiUppercase_iff c).mpr hc))]

theorem isControl_of_isAsciiGraphic (c : Char) (h : isAsciiGraphic c = true) :
    isControl c = false := by
  have hrange := (isAsciiGraphic_iff c).mp h
  rw [Bool.eq_false_iff, ne_eq, isControl_iff]
  omega

/-- INTERNAL: the size of a text is the sum of the sizes of its characters. -/
theorem utf8ByteSize_ofList (l : List Char) :
    (String.ofList l).utf8ByteSize = (l.map Char.utf8Size).sum := by
  induction l with
  | nil => rfl
  | cons c l ih =>
    rw [show c :: l = [c] ++ l from rfl, String.ofList_append, String.utf8ByteSize_append, ih]
    simp

theorem length_utf8 (l : List Char) : (utf8 l).length = (l.map Char.utf8Size).sum := by
  unfold utf8
  induction l with
  | nil => rfl
  | cons c l ih => simp [ih]

theorem length_bytes (text : String) : (bytes text).length = text.utf8ByteSize := by
  unfold bytes
  rw [length_utf8, ← utf8ByteSize_ofList, String.ofList_toList]

/-- INTERNAL: texts with the same bytes are the same. -/
theorem bytes_injective : Function.Injective bytes := by
  intro s t h
  have hencode : s.toList.utf8Encode = t.toList.utf8Encode := by
    unfold List.utf8Encode
    exact congrArg List.toByteArray h
  rw [← String.ofList_toList (s := s), ← String.ofList_toList (s := t)]
  exact String.toByteArray_inj.mp hencode

theorem utf8Size_eq_one_iff {c : Char} : c.utf8Size = 1 ↔ c.toNat < 128 := by
  rw [Char.utf8Size_eq_one_iff, UInt32.le_iff_toNat_le]
  exact Nat.lt_succ_iff.symm

theorem utf8EncodeChar_of_utf8Size {c : Char} (h : c.utf8Size = 1) :
    String.utf8EncodeChar c = [UInt8.ofNat c.toNat] :=
  String.utf8EncodeChar_eq_singleton h

/-- INTERNAL: an ASCII text has as many bytes as characters. -/
theorem utf8ByteSize_of_ascii (l : List Char) (h : ∀ c ∈ l, c.toNat < 128) :
    (String.ofList l).utf8ByteSize = l.length := by
  rw [utf8ByteSize_ofList]
  induction l with
  | nil => rfl
  | cons c l ih =>
    have hc : c.utf8Size = 1 := by
      have hle : c.val ≤ 127 := Nat.le_of_lt_succ (h c (by simp))
      exact if_pos hle
    rw [List.map_cons, List.sum_cons, hc, ih (fun d hd => h d (by simp [hd])), List.length_cons]
    omega

/-- INTERNAL: the decimal text of an integer. -/
theorem toList_toString_int (i : Int) : (toString i).toList =
    if i < 0 then '-' :: Nat.toDigits 10 i.natAbs else Nat.toDigits 10 i.natAbs := by
  cases i with
  | ofNat n =>
    have hneg : ¬ Int.ofNat n < 0 := by simp
    rw [if_neg hneg]
    exact Nat.toList_repr
  | negSucc n =>
    rw [if_pos (Int.negSucc_lt_zero n)]
    show ("-" ++ Nat.repr (n + 1)).toList = _
    rw [String.toList_append, Nat.toList_repr]
    rfl

theorem isAsciiDigit_of_mem_toDigits (n : ℕ) (c : Char) (h : c ∈ Nat.toDigits 10 n) :
    isAsciiDigit c = true := by
  have hdigit := Nat.isDigit_of_mem_toDigits (by decide) (by decide) h
  simp only [Char.isDigit, Bool.and_eq_true, decide_eq_true_eq] at hdigit
  exact (isAsciiDigit_iff c).mpr ⟨hdigit.1, hdigit.2⟩

/-- INTERNAL: a text splits into at least one part. -/
theorem split_ne_nil (separator : Char) (l : List Char) : split separator l ≠ [] := by
  cases l with
  | nil => simp [split]
  | cons c l =>
    unfold split
    split_ifs
    · simp
    · split <;> simp

/-- INTERNAL: a text without the separator is one part. -/
theorem split_of_notMem {separator : Char} {l : List Char} (h : separator ∉ l) :
    split separator l = [l] := by
  induction l with
  | nil => rfl
  | cons c l ih =>
    rw [List.mem_cons, not_or] at h
    unfold split
    rw [if_neg fun heq => h.1 heq.symm, ih h.2]

/-- INTERNAL: the part before the first separator. -/
theorem split_append {separator : Char} {front : List Char} (h : separator ∉ front)
    (back : List Char) :
    split separator (front ++ separator :: back) = front :: split separator back := by
  induction front with
  | nil => simp [split]
  | cons c front ih =>
    rw [List.mem_cons, not_or] at h
    rw [List.cons_append]
    conv => lhs; unfold split
    rw [if_neg fun heq => h.1 heq.symm, ih h.2]

/-- INTERNAL: the first part ends where the first separator stands, or is all of the text. -/
theorem split_eq_cons {separator : Char} {l front : List Char} {parts : List (List Char)}
    (h : split separator l = front :: parts) :
    separator ∉ front ∧ (l = front ∧ parts = [] ∨
      ∃ back, l = front ++ separator :: back ∧ split separator back = parts) := by
  induction l generalizing front parts with
  | nil =>
    obtain ⟨rfl, rfl⟩ := List.cons.inj h
    exact ⟨List.not_mem_nil, .inl ⟨rfl, rfl⟩⟩
  | cons c l ih =>
    unfold split at h
    split_ifs at h with hc
    · obtain ⟨rfl, rfl⟩ := List.cons.inj h
      exact ⟨List.not_mem_nil, .inr ⟨l, by rw [hc]; rfl, rfl⟩⟩
    · cases hsplit : split separator l with
      | nil => exact absurd hsplit (split_ne_nil separator l)
      | cons part rest =>
        rw [hsplit] at h
        obtain ⟨rfl, rfl⟩ := List.cons.inj h
        obtain ⟨hnot, hrest⟩ := ih hsplit
        have hnew : separator ∉ c :: part := by
          rw [List.mem_cons, not_or]
          exact ⟨fun heq => hc heq.symm, hnot⟩
        refine ⟨hnew, ?_⟩
        rcases hrest with ⟨rfl, rfl⟩ | ⟨back, rfl, hback⟩
        · exact .inl ⟨rfl, rfl⟩
        · exact .inr ⟨back, rfl, hback⟩

/-- INTERNAL: **what splits into three parts.** -/
theorem split_eq_three {separator : Char} {l a b c : List Char} :
    split separator l = [a, b, c] ↔ separator ∉ a ∧ separator ∉ b ∧ separator ∉ c ∧
      l = a ++ separator :: (b ++ separator :: c) := by
  constructor
  · intro h
    obtain ⟨ha, ⟨-, hnil⟩ | ⟨behind, hl, h⟩⟩ := split_eq_cons h
    · cases hnil
    obtain ⟨hb, ⟨-, hnil⟩ | ⟨last, hbehind, h⟩⟩ := split_eq_cons h
    · cases hnil
    obtain ⟨hc, ⟨hlast, -⟩ | ⟨others, -, h⟩⟩ := split_eq_cons h
    · exact ⟨ha, hb, hc, by rw [hl, hbehind, hlast]⟩
    · exact absurd h (split_ne_nil separator others)
  · rintro ⟨ha, hb, hc, rfl⟩
    rw [split_append ha, split_append hb, split_of_notMem hc]

/-- INTERNAL: a map that keeps the separator commutes with splitting. -/
theorem split_map (separator : Char) (f : Char → Char) (hf : ∀ c, f c = separator ↔ c = separator)
    (l : List Char) : split separator (l.map f) = (split separator l).map (List.map f) := by
  induction l with
  | nil => rfl
  | cons c l ih =>
    simp only [List.map_cons, split, hf, ih]
    split_ifs
    · rfl
    · cases h : split separator l with
      | nil => exact absurd h (split_ne_nil separator l)
      | cons part parts => rfl

theorem split_cons_ne (separator d : Char) (l : List Char) : split separator (d :: l) ≠ [[]] := by
  unfold split
  split_ifs
  · simp [split_ne_nil separator l]
  · split <;> simp

/-- INTERNAL: a trailing separator leaves an empty last part. -/
theorem getLast?_split (separator : Char) (l : List Char) (h : l.getLast? = some separator) :
    (split separator l).getLast? = some [] := by
  induction l with
  | nil => simp at h
  | cons c l ih =>
    cases l with
    | nil =>
      have hc : c = separator := by simpa using h
      simp [split, hc]
    | cons d l =>
      have hlast := ih (by simpa using h)
      have hne := split_cons_ne separator d l
      unfold split
      cases hsplit : split separator (d :: l) with
      | nil => exact absurd hsplit (split_ne_nil separator _)
      | cons part parts =>
        rw [hsplit] at hlast hne
        cases parts with
        | nil =>
          have hpart : part = [] := by simpa using hlast
          exact absurd (by rw [hpart]) hne
        | cons next parts =>
          split_ifs <;> simpa using hlast

/-- INTERNAL: the parts hold exactly the characters that are not separators. -/
theorem mem_split_iff (separator : Char) (l : List Char) (c : Char) :
    (∃ part ∈ split separator l, c ∈ part) ↔ c ∈ l ∧ c ≠ separator := by
  induction l with
  | nil => simp [split]
  | cons d l ih =>
    unfold split
    split_ifs with hd
    · simp only [List.mem_cons, exists_eq_or_imp, List.not_mem_nil, false_or, ih]
      grind
    · cases hsplit : split separator l with
      | nil => exact absurd hsplit (split_ne_nil separator l)
      | cons part parts =>
        rw [hsplit] at ih
        simp only [List.mem_cons, exists_eq_or_imp] at ih ⊢
        grind

end Text

section Duplicates

variable {α : Type} [LinearOrder α]

/-- Some neighbours of the list are equal. -/
def adjacentEqual : List α → Bool
  | a :: b :: rest => a = b || adjacentEqual (b :: rest)
  | _ => false

/-- Sort, then compare neighbours. -/
def hasDuplicates (values : List α) : Bool :=
  adjacentEqual (values.insertionSort (· ≤ ·))

/-- INTERNAL: in a sorted list, equal neighbours are exactly the repetitions. -/
theorem adjacentEqual_eq_false_iff (l : List α) (h : l.Pairwise (· ≤ ·)) :
    adjacentEqual l = false ↔ l.Nodup := by
  induction l with
  | nil => simp [adjacentEqual]
  | cons a l ih =>
    cases l with
    | nil => simp [adjacentEqual]
    | cons b rest =>
      rw [List.pairwise_cons] at h
      have hrest := ih h.2
      simp only [adjacentEqual, Bool.or_eq_false_iff, decide_eq_false_iff_not, hrest,
        List.nodup_cons (a := a)]
      refine and_congr_left ?_
      intro hnodup
      constructor
      · intro hne hmem
        rcases List.mem_cons.mp hmem with heq | hin
        · exact hne heq
        · have hba : b ≤ a := List.rel_of_pairwise_cons h.2 hin
          exact hne (le_antisymm (h.1 b (by simp)) hba)
      · intro hnot heq
        exact hnot (by simp [heq])

/-- **The neighbour test finds exactly the lists without repetition.** -/
theorem hasDuplicates_eq_false_iff (values : List α) :
    hasDuplicates values = false ↔ values.Nodup := by
  unfold hasDuplicates
  rw [adjacentEqual_eq_false_iff _ (List.pairwise_insertionSort (· ≤ ·) values)]
  exact (List.perm_insertionSort (· ≤ ·) values).nodup_iff

/-- INTERNAL: the test does not depend on the order of the list. -/
theorem hasDuplicates_perm (l₁ l₂ : List α) (h : l₁.Perm l₂) :
    hasDuplicates l₁ = hasDuplicates l₂ := by
  have hiff : hasDuplicates l₁ = false ↔ hasDuplicates l₂ = false := by
    rw [hasDuplicates_eq_false_iff, hasDuplicates_eq_false_iff]
    exact h.nodup_iff
  cases h₁ : hasDuplicates l₁ <;> cases h₂ : hasDuplicates l₂ <;> simp_all

end Duplicates

section StableSort

variable {α β : Type} [LinearOrder β]

/-- The stable sort by a key. -/
def sortByKey (key : α → β) (values : List α) : List α :=
  values.insertionSort fun a b => key a ≤ key b

theorem perm_sortByKey (key : α → β) (values : List α) : (sortByKey key values).Perm values :=
  List.perm_insertionSort _ values

theorem sortByKey_of_pairwise (key : α → β) (values : List α)
    (h : values.Pairwise fun a b => key a ≤ key b) : sortByKey key values = values :=
  List.Pairwise.insertionSort_eq h

theorem pairwise_sortByKey (key : α → β) (values : List α) :
    (sortByKey key values).Pairwise fun a b => key a ≤ key b := by
  have : Std.Total fun a b : α => key a ≤ key b := ⟨fun a b => le_total (key a) (key b)⟩
  have : IsTrans α fun a b => key a ≤ key b := ⟨fun _ _ _ hab hbc => le_trans hab hbc⟩
  exact List.pairwise_insertionSort _ values

/-- INTERNAL: sorting twice is sorting once. -/
@[simp]
theorem sortByKey_idem (key : α → β) (values : List α) :
    sortByKey key (sortByKey key values) = sortByKey key values :=
  sortByKey_of_pairwise key _ (pairwise_sortByKey key values)

end StableSort

end VaultAccess.Library
