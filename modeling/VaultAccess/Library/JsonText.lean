import VaultAccess.Library.Documents
import VaultAccess.Library.Unambiguous

/-!
# Texts of documents on one line

The compact text of a document has no control characters, so it fits on one line. A reader of
JSON texts gives back the document of a compact text, as long as it is not nested too deep and
its integers have 64 bits.
-/

set_option autoImplicit false

namespace VaultAccess.Library.Json

open VaultAccess.Library.Text

/-! ## Readers of texts -/

/-- Nested at most so deep, with integers of 64 bits. -/
def fits : ℕ → Json → Bool
  | _, null | _, bool _ | _, str _ => true
  | _, int n => -2 ^ 63 ≤ n && n < 2 ^ 64
  | 0, arr _ | 0, obj _ => false
  | depth + 1, arr items => items.all (fits depth)
  | depth + 1, obj members => members.all fun member => fits depth member.2

/-- A reader of JSON texts, with what is relied on. It may read other texts too. -/
structure Reader where
  read : List UInt8 → Option Json
  /-- Compact texts are read back, nested less than 128 deep. -/
  reads : ∀ document, fits 127 document = true → read document.toVec = some document

open Classical in
/-- The reader of compact texts and nothing else. -/
noncomputable def Reader.compact : Reader where
  read data := if h : ∃ document : Json, document.toVec = data then some h.choose else none
  reads document _ := by
    have h : ∃ document' : Json, document'.toVec = document.toVec := ⟨document, rfl⟩
    rw [dif_pos h, toVec_injective h.choose_spec]

/-! ## No control characters -/

theorem printable_hexDigit {n : ℕ} (h : n < 16) : 32 ≤ (hexDigit n).toNat := by
  have hall : ∀ k : Fin 16, 32 ≤ (hexDigit k).toNat := by decide
  exact hall ⟨n, h⟩

theorem printable_of_all {text : List Char} (h : (text.all fun c => decide (32 ≤ c.toNat)) = true) :
    ∀ c ∈ text, 32 ≤ c.toNat := fun c hc => of_decide_eq_true (List.all_eq_true.mp h c hc)

/-- INTERNAL: an escaped character. -/
theorem printable_escapeChar (c : Char) : ∀ d ∈ escapeChar c, 32 ≤ d.toNat := by
  unfold escapeChar
  split_ifs with hquote hslash hb ht hn hf hr hcontrol
  · exact printable_of_all rfl
  · exact printable_of_all rfl
  · exact printable_of_all rfl
  · exact printable_of_all rfl
  · exact printable_of_all rfl
  · exact printable_of_all rfl
  · exact printable_of_all rfl
  · intro d hd
    have hhigh := printable_hexDigit (n := c.toNat / 16) (by omega)
    have hlow := printable_hexDigit (n := c.toNat % 16) (by omega)
    simp only [List.mem_cons, List.not_mem_nil, or_false] at hd
    rcases hd with rfl | rfl | rfl | rfl | rfl | rfl
    · decide
    · decide
    · decide
    · decide
    · exact hhigh
    · exact hlow
  · intro d hd
    rw [List.mem_singleton.mp hd]
    omega

/-- INTERNAL: a quoted text. -/
theorem printable_quote (s : String) : ∀ c ∈ quote s, 32 ≤ c.toNat := by
  have hmark : 32 ≤ ('"').toNat := by decide
  intro c hc
  unfold quote at hc
  simp only [List.cons_append, List.mem_cons, List.mem_append, List.mem_flatMap, List.not_mem_nil,
    or_false] at hc
  rcases hc with rfl | ⟨d, -, hd⟩ | rfl
  · exact hmark
  · exact printable_escapeChar d c hd
  · exact hmark

/-- INTERNAL: a number. -/
theorem printable_decimal (n : Int) : ∀ c ∈ decimal n, 32 ≤ c.toNat := by
  have hminus : 32 ≤ ('-').toNat := by decide
  have hdigit : ∀ c ∈ Nat.toDigits 10 n.natAbs, 32 ≤ c.toNat := by
    intro c hc
    have hrange := (isAsciiDigit_iff c).mp (isAsciiDigit_of_mem_toDigits _ c hc)
    omega
  intro c hc
  rw [decimal, toList_toString_int] at hc
  split_ifs at hc
  · rcases List.mem_cons.mp hc with rfl | hrest
    · exact hminus
    · exact hdigit c hrest
  · exact hdigit c hc

mutual

/-- INTERNAL: the text of a document. -/
theorem printable_render (j : Json) : ∀ c ∈ render j, 32 ≤ c.toNat := by
  cases j with
  | null =>
    rw [render]
    exact printable_of_all rfl
  | bool value =>
    cases value with
    | true =>
      rw [render]
      exact printable_of_all rfl
    | false =>
      rw [render]
      exact printable_of_all rfl
  | int n =>
    rw [render]
    exact printable_decimal n
  | str s =>
    rw [render]
    exact printable_quote s
  | arr items =>
    intro c hc
    rw [render] at hc
    simp only [List.cons_append, List.mem_cons, List.mem_append, List.not_mem_nil, or_false] at hc
    rcases hc with rfl | hitems | rfl
    · decide
    · exact printable_renderItems items c hitems
    · decide
  | obj members =>
    intro c hc
    rw [render] at hc
    simp only [List.cons_append, List.mem_cons, List.mem_append, List.not_mem_nil, or_false] at hc
    rcases hc with rfl | hmembers | rfl
    · decide
    · exact printable_renderMembers members c hmembers
    · decide

/-- INTERNAL: the items of an array. -/
theorem printable_renderItems (items : List Json) : ∀ c ∈ renderItems items, 32 ≤ c.toNat := by
  cases items with
  | nil => simp [renderItems]
  | cons item rest =>
    intro c hc
    cases rest with
    | nil =>
      rw [renderItems] at hc
      exact printable_render item c hc
    | cons next rest =>
      rw [renderItems] at hc
      · simp only [List.mem_append, List.mem_cons] at hc
        rcases hc with hitem | rfl | hrest
        · exact printable_render item c hitem
        · decide
        · exact printable_renderItems (next :: rest) c hrest
      · simp

/-- INTERNAL: the members of an object. -/
theorem printable_renderMembers (members : List (String × Json)) :
    ∀ c ∈ renderMembers members, 32 ≤ c.toNat := by
  cases members with
  | nil => simp [renderMembers]
  | cons member rest =>
    obtain ⟨name, value⟩ := member
    intro c hc
    cases rest with
    | nil =>
      rw [renderMembers] at hc
      simp only [List.mem_append, List.mem_cons] at hc
      rcases hc with hname | rfl | hvalue
      · exact printable_quote name c hname
      · decide
      · exact printable_render value c hvalue
    | cons next rest =>
      rw [renderMembers] at hc
      · simp only [List.append_assoc, List.cons_append, List.mem_append, List.mem_cons] at hc
        rcases hc with hname | rfl | hvalue | rfl | hrest
        · exact printable_quote name c hname
        · decide
        · exact printable_render value c hvalue
        · decide
        · exact printable_renderMembers (next :: rest) c hrest
      · simp

end

/-- INTERNAL: the bytes of a character that is no control character. -/
theorem printable_utf8EncodeChar {c : Char} (h : 32 ≤ c.toNat) :
    ∀ b ∈ String.utf8EncodeChar c, 32 ≤ b.toNat := by
  have hmod : ∀ n, n % 256 < 256 := fun n => Nat.mod_lt n (by decide)
  have hval : 32 ≤ c.val.toNat := h
  intro b hb
  unfold String.utf8EncodeChar at hb
  simp only [] at hb
  split_ifs at hb
  all_goals
    simp only [List.mem_cons, List.not_mem_nil, or_false] at hb
    rcases hb with rfl | rfl | rfl | rfl
  all_goals
    rw [UInt8.toNat_ofNat']
    omega

/-- **A compact text is on one line.** None of its bytes is a control character. -/
theorem printable_toVec (document : Json) : ∀ b ∈ document.toVec, 32 ≤ b.toNat := by
  intro b hb
  obtain ⟨c, hc, hbyte⟩ := List.mem_flatMap.mp hb
  exact printable_utf8EncodeChar (printable_render document c hc) b hbyte

/-- INTERNAL: a compact text is not empty. -/
theorem toVec_ne_nil (document : Json) : document.toVec ≠ [] := by
  obtain ⟨c, rest, hrender, -⟩ := render_cons document
  have hsize := c.utf8Size_pos
  intro hnil
  have hlength : document.toVec.length = 0 := by rw [hnil, List.length_nil]
  rw [length_toVec, size, hrender, weight_cons] at hlength
  omega

end VaultAccess.Library.Json
