import Mathlib.Algebra.GroupWithZero.Nat
import Mathlib.Algebra.Order.BigOperators.Group.List
import VaultAccess.Library.Json
import VaultAccess.Library.Lists
import VaultAccess.Library.Text

/-!
# Reading documents and measuring them

Typed readers for JSON documents: an object is read by the names of its members, with
no other member and none twice. And the size of a document's compact text in bytes, with
a bound for every kind of document.
-/

set_option autoImplicit false

namespace VaultAccess.Library.Json

open VaultAccess.Library.Text

variable {α : Type}

/-! ## Readers -/

/-- The members of an object, when all of them have one of the names and none stands
twice. -/
def closed (names : List String) : Json → Option (List (String × Json))
  | obj members =>
    if (members.all fun member => names.contains member.1) && decide (members.map Prod.fst).Nodup
    then some members
    else none
  | _ => none

/-- The value of a member. -/
def member (name : String) (members : List (String × Json)) : Option Json := members.lookup name

/-- A member that must be there. -/
def required (name : String) (members : List (String × Json)) (read : Json → Option α) : Option α :=
  (member name members).bind read

/-- A member that may be left out. -/
def defaulted (name : String) (members : List (String × Json)) (read : Json → Option α)
    (default : α) : Option α :=
  match member name members with
  | none => some default
  | some value => read value

def readString : Json → Option String
  | str s => some s
  | _ => none

def readBool : Json → Option Bool
  | bool b => some b
  | _ => none

/-- An unsigned integer below `bound`. -/
@[irreducible] def readNat (bound : ℕ) : Json → Option ℕ
  | int n => if 0 ≤ n ∧ n < bound then some n.toNat else none
  | _ => none

def readList (read : Json → Option α) : Json → Option (List α)
  | arr items => items.mapM read
  | _ => none

/-- `null` or a value. -/
def readOption (read : Json → Option α) : Json → Option (Option α)
  | null => some none
  | value => (read value).map some

theorem readNat_int {bound n : ℕ} (h : n < bound) : readNat bound (int n) = some n := by
  unfold readNat
  simp only []
  rw [if_pos ⟨Int.natCast_nonneg n, by exact_mod_cast h⟩, Int.toNat_natCast]

/-- INTERNAL: a list is read back when its items are. -/
theorem readList_map {read : Json → Option α} {write : α → Json} {items : List α}
    (h : ∀ item ∈ items, read (write item) = some item) :
    readList read (arr (items.map write)) = some items := by
  unfold readList
  rw [mapM_eq_some_iff, List.forall₂_map_left_iff, List.forall₂_same]
  exact h

/-! ## Sizes -/

/-- Bytes of a text. -/
def weight (text : List Char) : ℕ := (text.map Char.utf8Size).sum

/-- Bytes of a document's compact text. -/
def size (document : Json) : ℕ := weight (render document)

theorem length_toVec (document : Json) : document.toVec.length = size document :=
  length_utf8 (render document)

@[simp] theorem weight_nil : weight [] = 0 := rfl

@[simp] theorem weight_cons (c : Char) (text : List Char) :
    weight (c :: text) = c.utf8Size + weight text := by
  simp [weight]

@[simp] theorem weight_append (a b : List Char) : weight (a ++ b) = weight a + weight b := by
  simp [weight]

/-- INTERNAL: the bytes of an ASCII text are its characters. -/
theorem weight_of_ascii {text : List Char} (h : ∀ c ∈ text, c.toNat < 128) :
    weight text = text.length := by
  induction text with
  | nil => rfl
  | cons c text ih =>
    rw [weight_cons, utf8Size_eq_one_iff.mpr (h c (by simp)), ih fun d hd => h d (by simp [hd])]
    simp [Nat.add_comm]

/-- INTERNAL: a character that is not a control character is escaped to at most twice its
size. -/
theorem weight_escapeChar_le {c : Char} (h : isControl c = false) :
    weight (escapeChar c) ≤ 2 * c.utf8Size := by
  have hpos : 1 ≤ c.utf8Size := c.utf8Size_pos
  have hrange : ¬ c.toNat < 32 := by
    intro hlow
    rw [isControl, decide_eq_true hlow] at h
    exact absurd h (by simp)
  unfold escapeChar
  split_ifs with hquote hslash
  · subst hquote
    decide
  · subst hslash
    decide
  all_goals first
    | (exfalso; omega)
    | (rw [weight_cons, weight_nil]; omega)

/-- INTERNAL: a text without control characters is quoted to at most twice its size. -/
theorem weight_quote_le {s : String} (h : ∀ c ∈ s.toList, isControl c = false) :
    weight (quote s) ≤ 2 + 2 * s.utf8ByteSize := by
  have hflat : ∀ text : List Char, (∀ c ∈ text, isControl c = false) →
      weight (text.flatMap escapeChar) ≤ 2 * weight text := by
    intro text htext
    induction text with
    | nil => exact Nat.le_refl _
    | cons c text ih =>
      rw [List.flatMap_cons, weight_append, weight_cons]
      have hc := weight_escapeChar_le (htext c (by simp))
      have hrest := ih fun d hd => htext d (by simp [hd])
      omega
  have hsize : weight s.toList = s.utf8ByteSize := by
    rw [weight, ← utf8ByteSize_ofList, String.ofList_toList]
  have hbody := hflat s.toList h
  have hmarks : ('"').utf8Size = 1 := by decide
  unfold quote
  rw [List.cons_append, weight_cons, weight_append, weight_cons, weight_nil, hmarks]
  omega

/-- INTERNAL: a printable ASCII text without quotes and backslashes is quoted as it is. -/
theorem weight_quote_plain {s : String}
    (h : ∀ c ∈ s.toList, isAsciiGraphic c = true ∧ c ≠ '"' ∧ c ≠ '\\') :
    weight (quote s) = 2 + s.utf8ByteSize := by
  have hescape : ∀ c ∈ s.toList, escapeChar c = [c] := by
    intro c hc
    obtain ⟨hgraphic, hquote, hslash⟩ := h c hc
    have hrange := (isAsciiGraphic_iff c).mp hgraphic
    unfold escapeChar
    rw [if_neg hquote, if_neg hslash, if_neg (by omega), if_neg (by omega), if_neg (by omega),
      if_neg (by omega), if_neg (by omega), if_neg (by omega)]
  have hflat : s.toList.flatMap escapeChar = s.toList := by
    rw [List.flatMap_congr hescape, List.flatMap_singleton']
  have hsize : weight s.toList = s.utf8ByteSize := by
    rw [weight, ← utf8ByteSize_ofList, String.ofList_toList]
  have hmarks : ('"').utf8Size = 1 := by decide
  unfold quote
  rw [hflat, List.cons_append, weight_cons, weight_append, weight_cons, weight_nil, hmarks]
  omega

/-- INTERNAL: a list of documents takes a comma for each item at most. -/
theorem weight_renderItems_le (items : List Json) :
    weight (renderItems items) ≤ (items.map fun item => size item + 1).sum := by
  have hcomma : (',').utf8Size = 1 := by decide
  induction items with
  | nil => exact Nat.le_refl _
  | cons item rest ih =>
    cases rest with
    | nil =>
      simp only [renderItems, List.map_cons, List.map_nil, List.sum_cons, List.sum_nil, size]
      omega
    | cons next rest =>
      simp only [renderItems, weight_append, weight_cons, hcomma]
      rw [List.map_cons, List.sum_cons]
      simp only [size] at ih ⊢
      omega

/-- INTERNAL: the members of an object take a colon and a comma each at most. -/
theorem weight_renderMembers_le (members : List (String × Json)) :
    weight (renderMembers members) ≤
      (members.map fun member => weight (quote member.1) + size member.2 + 2).sum := by
  have hcomma : (',').utf8Size = 1 := by decide
  have hcolon : (':').utf8Size = 1 := by decide
  induction members with
  | nil => exact Nat.le_refl _
  | cons first rest ih =>
    obtain ⟨name, value⟩ := first
    cases rest with
    | nil =>
      simp only [renderMembers, weight_append, weight_cons, hcolon, List.map_cons, List.map_nil,
        List.sum_cons, List.sum_nil, size]
      omega
    | cons next rest =>
      obtain ⟨name', value'⟩ := next
      simp only [renderMembers, weight_append, weight_cons, hcomma, hcolon]
      rw [List.map_cons, List.sum_cons]
      simp only [size] at ih ⊢
      omega

/-- **An array**: two brackets and its items. -/
theorem size_arr_le (items : List Json) : size (arr items) ≤ 2 + (items.map fun item => size item + 1).sum := by
  have hopen : ('[').utf8Size = 1 := by decide
  have hclose : (']').utf8Size = 1 := by decide
  have hitems := weight_renderItems_le items
  unfold size
  rw [render, List.cons_append, weight_cons, weight_append, weight_cons, weight_nil, hopen, hclose]
  simp only [size] at hitems
  omega

/-- **An object**: two braces and its members. -/
theorem size_obj_le (members : List (String × Json)) :
    size (obj members) ≤ 2 + (members.map fun member => weight (quote member.1) + size member.2 + 2).sum := by
  have hopen : ('\x7b').utf8Size = 1 := by decide
  have hclose : ('\x7d').utf8Size = 1 := by decide
  have hmembers := weight_renderMembers_le members
  unfold size
  rw [render, List.cons_append, weight_cons, weight_append, weight_cons, weight_nil, hopen, hclose]
  simp only [size] at hmembers
  omega

/-- INTERNAL: every item within a bound. -/
theorem size_arr_map_le {items : List α} {write : α → Json} {bound : ℕ}
    (h : ∀ item ∈ items, size (write item) + 1 ≤ bound) :
    size (arr (items.map write)) ≤ 2 + bound * items.length := by
  refine (size_arr_le _).trans (Nat.add_le_add_left ?_ 2)
  rw [List.map_map]
  have hsum := List.sum_le_card_nsmul (items.map ((fun item => size item + 1) ∘ write)) bound (by
    intro n hn
    obtain ⟨item, hitem, rfl⟩ := List.mem_map.mp hn
    exact h item hitem)
  rw [List.length_map, Nat.nsmul_eq_mul, Nat.mul_comm] at hsum
  exact hsum

/-- INTERNAL: the digits of a natural number. -/
theorem size_nat_le {n k : ℕ} (hk : 0 < k) (h : n < 10 ^ k) : size (int n) ≤ k := by
  have hdigits : (Nat.toDigits 10 n).length ≤ k := (Nat.length_toDigits_le_iff (by decide) hk).mpr h
  have hrender : render (int n) = Nat.toDigits 10 n := by
    rw [render, decimal, toList_toString_int, if_neg (by omega)]
    simp
  unfold size
  rw [hrender, weight_of_ascii]
  · exact hdigits
  · intro c hc
    have hrange := (isAsciiDigit_iff c).mp (isAsciiDigit_of_mem_toDigits n c hc)
    omega

end VaultAccess.Library.Json
