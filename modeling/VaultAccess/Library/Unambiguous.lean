import VaultAccess.Library.Escapes
import VaultAccess.Library.Json

/-!
# A document is determined by its text

The compact text of a JSON document can be read in one way only: no text of a document
begins another one that is followed by a comma or a closing bracket.
-/

set_option autoImplicit false

namespace VaultAccess.Library.Json

open VaultAccess.Library.Text

/-! ## Strings -/

/-- The value of a hexadecimal digit. -/
def hexValue (c : Char) : ℕ := if c.toNat < 58 then c.toNat - 48 else c.toNat - 87

/-- The first character of the text of a string, and the rest. -/
def unescape : List Char → Option (Char × List Char)
  | '\\' :: 'b' :: rest => some (Char.ofNat 8, rest)
  | '\\' :: 't' :: rest => some (Char.ofNat 9, rest)
  | '\\' :: 'n' :: rest => some (Char.ofNat 10, rest)
  | '\\' :: 'f' :: rest => some (Char.ofNat 12, rest)
  | '\\' :: 'r' :: rest => some (Char.ofNat 13, rest)
  | '\\' :: 'u' :: _ :: _ :: high :: low :: rest =>
    some (Char.ofNat (16 * hexValue high + hexValue low), rest)
  | '\\' :: c :: rest => some (c, rest)
  | c :: rest => some (c, rest)
  | [] => none

theorem hexValue_hexDigit {n : ℕ} (h : n < 16) : hexValue (hexDigit n) = n := by
  have hall : ∀ k : Fin 16, hexValue (hexDigit k) = k := by decide
  exact hall ⟨n, h⟩

/-- INTERNAL: an escaped character is read back. -/
theorem unescape_escapeChar (c : Char) (rest : List Char) :
    unescape (escapeChar c ++ rest) = some (c, rest) := by
  have hcode : ∀ n, c.toNat = n → c = Char.ofNat n := fun n h => by rw [← h, Char.ofNat_toNat]
  unfold escapeChar
  split_ifs with hquote hslash hb ht hn hf hr hcontrol
  · subst hquote
    rfl
  · subst hslash
    rfl
  · rw [hcode 8 hb]
    rfl
  · rw [hcode 9 ht]
    rfl
  · rw [hcode 10 hn]
    rfl
  · rw [hcode 12 hf]
    rfl
  · rw [hcode 13 hr]
    rfl
  · simp only [List.cons_append, List.nil_append, unescape]
    rw [hexValue_hexDigit (by omega), hexValue_hexDigit (by omega), Nat.div_add_mod, Char.ofNat_toNat]
  · simp only [List.cons_append, List.nil_append]
    unfold unescape
    split <;> simp_all

theorem escapeChar_append {c d : Char} {x y : List Char} (h : escapeChar c ++ x = escapeChar d ++ y) :
    c = d ∧ x = y := by
  have hread := congrArg unescape h
  rw [unescape_escapeChar, unescape_escapeChar] at hread
  exact Prod.mk.inj (Option.some.inj hread)

theorem escapeChar_ne_quote (c : Char) (x y : List Char) : escapeChar c ++ x ≠ '"' :: y := by
  unfold escapeChar
  split_ifs with hquote <;> simp_all

/-- INTERNAL: the end of a quoted string is found. -/
theorem flatMap_escapeChar_append (s t : List Char) {x y : List Char}
    (h : s.flatMap escapeChar ++ '"' :: x = t.flatMap escapeChar ++ '"' :: y) : s = t ∧ x = y := by
  apply flatMap_append_inj ?_ ?_ s t h
  · intro c d x y hsame
    exact escapeChar_append hsame
  · exact escapeChar_ne_quote

theorem quote_append {s t : String} {x y : List Char} (h : quote s ++ x = quote t ++ y) : s = t ∧ x = y := by
  simp only [quote, List.cons_append, List.append_assoc, List.cons.injEq, true_and, List.nil_append] at h
  obtain ⟨hchars, hrest⟩ := flatMap_escapeChar_append _ _ h
  exact ⟨String.toList_inj.mp hchars, hrest⟩

/-! ## Hexadecimal numbers -/

/-- The number that hexadecimal digits are read as. -/
def hexNumber (digits : List Char) : ℕ := digits.foldl (fun n c => 16 * n + hexValue c) 0

theorem digitChar_spec : ∀ k < 16,
    isLowerHex (Nat.digitChar k) = true ∧ hexValue (Nat.digitChar k) = k := by decide

theorem hexNumber_snoc (digits : List Char) (c : Char) :
    hexNumber (digits ++ [c]) = 16 * hexNumber digits + hexValue c := by
  simp [hexNumber, List.foldl_append]

theorem hexNumber_zeros (n : ℕ) (digits : List Char) :
    hexNumber (List.replicate n '0' ++ digits) = hexNumber digits := by
  induction n with
  | zero => rfl
  | succ n ih => exact ih

/-- INTERNAL: **the hexadecimal digits of a number.** -/
theorem toDigits_hex (n : ℕ) :
    (∀ c ∈ Nat.toDigits 16 n, isLowerHex c = true) ∧ hexNumber (Nat.toDigits 16 n) = n := by
  induction n using Nat.strongRecOn with
  | ind n ih =>
    have hlast := digitChar_spec (n % 16) (Nat.mod_lt n (by omega))
    rw [Nat.toDigits_eq_if (by omega)]
    split_ifs with hsmall
    · rw [Nat.mod_eq_of_lt hsmall] at hlast
      refine ⟨?_, by simpa [hexNumber] using hlast.2⟩
      simpa using hlast.1
    · obtain ⟨hdigits, hnumber⟩ := ih (n / 16) (by omega)
      refine ⟨?_, ?_⟩
      · intro c hc
        rcases List.mem_append.mp hc with hfront | hback
        · exact hdigits c hfront
        · rw [List.mem_singleton.mp hback]
          exact hlast.1
      · rw [hexNumber_snoc, hnumber, hlast.2]
        omega

/-! ## Numbers -/

/-- What may follow a document inside another one. -/
def Closes (rest : List Char) : Prop := ∀ c, rest.head? = some c → c = ',' ∨ c = ']' ∨ c = '}'

/-- INTERNAL: digits end where something else begins. -/
theorem digits_append (a b : List Char) {x y : List Char} (ha : ∀ c ∈ a, isAsciiDigit c = true)
    (hb : ∀ c ∈ b, isAsciiDigit c = true) (hx : ∀ c, x.head? = some c → isAsciiDigit c = false)
    (hy : ∀ c, y.head? = some c → isAsciiDigit c = false) (h : a ++ x = b ++ y) : a = b ∧ x = y := by
  induction a generalizing b with
  | nil =>
    cases b with
    | nil => exact ⟨rfl, h⟩
    | cons d b =>
      rw [List.nil_append] at h
      have hdigit := hx d (by rw [h]; rfl)
      rw [hb d (by simp)] at hdigit
      simp at hdigit
  | cons c a ih =>
    cases b with
    | nil =>
      rw [List.nil_append] at h
      have hdigit := hy c (by rw [← h]; rfl)
      rw [ha c (by simp)] at hdigit
      simp at hdigit
    | cons d b =>
      simp only [List.cons_append, List.cons.injEq] at h
      obtain ⟨rfl, htail⟩ := h
      obtain ⟨rfl, hend⟩ := ih b (fun e he => ha e (by simp [he])) (fun e he => hb e (by simp [he])) htail
      exact ⟨rfl, hend⟩

theorem Closes.digit {rest : List Char} (h : Closes rest) (c : Char) (hc : rest.head? = some c) :
    isAsciiDigit c = false := by
  rcases h c hc with rfl | rfl | rfl <;> decide

theorem toDigits_cons (n : ℕ) : ∃ c rest, Nat.toDigits 10 n = c :: rest ∧ isAsciiDigit c = true := by
  cases hdigits : Nat.toDigits 10 n with
  | nil => exact absurd hdigits (by simp [Nat.toDigits_ne_nil])
  | cons c rest =>
    exact ⟨c, rest, rfl, isAsciiDigit_of_mem_toDigits n c (by rw [hdigits]; simp)⟩

/-- INTERNAL: decimal texts are told apart. -/
theorem decimal_append {n m : Int} {x y : List Char} (hx : Closes x) (hy : Closes y)
    (h : decimal n ++ x = decimal m ++ y) : n = m ∧ x = y := by
  have hdigits : ∀ k : ℕ, ∀ c ∈ Nat.toDigits 10 k, isAsciiDigit c = true := isAsciiDigit_of_mem_toDigits
  have hsame : ∀ {a b : ℕ}, Nat.toDigits 10 a ++ x = Nat.toDigits 10 b ++ y → a = b ∧ x = y := by
    intro a b hab
    obtain ⟨hlist, hrest⟩ := digits_append _ _ (hdigits a) (hdigits b) hx.digit hy.digit hab
    exact ⟨by rw [← Nat.ofDigitChars_ten_toDigits (n := a), hlist, Nat.ofDigitChars_ten_toDigits], hrest⟩
  have hsign : ∀ (k : ℕ) (u v : List Char), '-' :: u ≠ Nat.toDigits 10 k ++ v := by
    intro k u v heq
    obtain ⟨c, rest, hk, hc⟩ := toDigits_cons k
    rw [hk, List.cons_append, List.cons.injEq] at heq
    rw [← heq.1] at hc
    simp [isAsciiDigit] at hc
  unfold decimal at h
  rw [toList_toString_int, toList_toString_int] at h
  split_ifs at h with hn hm hm
  · simp only [List.cons_append, List.cons.injEq, true_and] at h
    obtain ⟨habs, hrest⟩ := hsame h
    exact ⟨by omega, hrest⟩
  · exact absurd h (hsign _ _ _)
  · exact absurd h.symm (hsign _ _ _)
  · obtain ⟨habs, hrest⟩ := hsame h
    exact ⟨by omega, hrest⟩

/-! ## Documents -/

/-- The kind of document a character begins. -/
def charKind (c : Char) : ℕ :=
  if c = 'n' then 0 else if c = 't' then 1 else if c = 'f' then 2 else if c = '"' then 3
  else if c = '[' then 4 else if c = '{' then 5
  else if c = '-' || isAsciiDigit c then 6 else 7

/-- The kind of a document. -/
def kind : Json → ℕ
  | null => 0
  | bool true => 1
  | bool false => 2
  | str _ => 3
  | arr _ => 4
  | obj _ => 5
  | int _ => 6

/-- INTERNAL: a digit begins a number. -/
theorem charKind_digit {c : Char} (h : isAsciiDigit c = true) : charKind c = 6 := by
  have hrange := (isAsciiDigit_iff c).mp h
  have hne : ∀ d : Char, (d.toNat < 48 ∨ 57 < d.toNat) → c ≠ d := by
    rintro d hd rfl
    omega
  unfold charKind
  rw [if_neg (hne 'n' (by decide)), if_neg (hne 't' (by decide)), if_neg (hne 'f' (by decide)),
    if_neg (hne '"' (by decide)), if_neg (hne '[' (by decide)), if_neg (hne '{' (by decide)), h,
    Bool.or_true, if_pos rfl]

/-- INTERNAL: the first character tells the kind of a document. -/
theorem render_cons (j : Json) : ∃ c rest, render j = c :: rest ∧ charKind c = j.kind := by
  cases j with
  | null => exact ⟨_, _, by rw [render], rfl⟩
  | bool value =>
    cases value with
    | true => exact ⟨_, _, by rw [render], rfl⟩
    | false => exact ⟨_, _, by rw [render], rfl⟩
  | int n =>
    rw [render, decimal, toList_toString_int]
    split_ifs
    · exact ⟨_, _, rfl, rfl⟩
    · obtain ⟨c, rest, hc, hdigit⟩ := toDigits_cons n.natAbs
      exact ⟨c, rest, hc, charKind_digit hdigit⟩
  | str s => exact ⟨_, _, by rw [render, quote, List.cons_append], rfl⟩
  | arr items => exact ⟨_, _, by rw [render, List.cons_append], rfl⟩
  | obj members => exact ⟨_, _, by rw [render, List.cons_append], rfl⟩

theorem kind_eq {j j' : Json} {x y : List Char} (h : render j ++ x = render j' ++ y) : j.kind = j'.kind := by
  obtain ⟨c, rest, hc, hkind⟩ := render_cons j
  obtain ⟨c', rest', hc', hkind'⟩ := render_cons j'
  rw [hc, hc', List.cons_append, List.cons_append, List.cons.injEq] at h
  rw [← hkind, ← hkind', h.1]

/-- INTERNAL: no document begins with what may follow one. -/
theorem render_ne_close (j : Json) (x y : List Char) (c : Char) (hc : charKind c = 7) :
    render j ++ x ≠ c :: y := by
  intro h
  obtain ⟨d, rest, hd, hkind⟩ := render_cons j
  rw [hd, List.cons_append, List.cons.injEq] at h
  rw [h.1, hc] at hkind
  have hle : j.kind ≤ 6 := by
    unfold kind
    split <;> decide
  omega

/-- The items of an array after the first one, and its end. -/
def tailItems (rest : List Json) (x : List Char) : List Char :=
  match rest with
  | [] => ']' :: x
  | _ => ',' :: (renderItems rest ++ ']' :: x)

/-- The members of an object after the first one, and its end. -/
def tailMembers (rest : List (String × Json)) (x : List Char) : List Char :=
  match rest with
  | [] => '}' :: x
  | _ => ',' :: (renderMembers rest ++ '}' :: x)

theorem renderItems_cons (item : Json) (rest : List Json) (x : List Char) :
    renderItems (item :: rest) ++ ']' :: x = render item ++ tailItems rest x := by
  cases rest with
  | nil => rw [renderItems, tailItems]
  | cons next rest => simp [renderItems, tailItems]

/-- INTERNAL: an object from its first member. -/
theorem renderMembers_cons (name : String) (value : Json) (rest : List (String × Json)) (x : List Char) :
    renderMembers ((name, value) :: rest) ++ '}' :: x =
      quote name ++ (':' :: (render value ++ tailMembers rest x)) := by
  cases rest with
  | nil => simp [renderMembers, tailMembers]
  | cons next rest => simp [renderMembers, tailMembers]

theorem closes_tailItems (rest : List Json) (x : List Char) : Closes (tailItems rest x) := by
  intro c hc
  unfold tailItems at hc
  split at hc <;> (obtain rfl := Option.some.inj hc; simp)

theorem closes_tailMembers (rest : List (String × Json)) (x : List Char) : Closes (tailMembers rest x) := by
  intro c hc
  unfold tailMembers at hc
  split at hc <;> (obtain rfl := Option.some.inj hc; simp)

/-- A document of one kind. -/
inductive OfKind : ℕ → Json → Prop where
  | null : OfKind 0 null
  | yes : OfKind 1 (bool true)
  | no : OfKind 2 (bool false)
  | str (s : String) : OfKind 3 (str s)
  | arr (items : List Json) : OfKind 4 (arr items)
  | obj (members : List (String × Json)) : OfKind 5 (obj members)
  | int (n : Int) : OfKind 6 (int n)

/-- INTERNAL: every document is of its kind. -/
theorem ofKind (j : Json) : OfKind j.kind j := by
  cases j with
  | null => exact .null
  | bool value =>
    cases value with
    | true => exact .yes
    | false => exact .no
  | int n => exact .int n
  | str s => exact .str s
  | arr items => exact .arr items
  | obj members => exact .obj members

mutual

/-- INTERNAL: documents followed by an end are told apart. -/
theorem render_append (j j' : Json) {x y : List Char} (hx : Closes x) (hy : Closes y)
    (h : render j ++ x = render j' ++ y) : j = j' ∧ x = y := by
  have hkind := ofKind j'
  rw [← kind_eq h] at hkind
  match j with
  | null =>
    cases hkind
    exact ⟨rfl, List.append_cancel_left h⟩
  | bool true =>
    cases hkind
    exact ⟨rfl, List.append_cancel_left h⟩
  | bool false =>
    cases hkind
    exact ⟨rfl, List.append_cancel_left h⟩
  | int n =>
    cases hkind with
    | int m =>
      simp only [render] at h
      obtain ⟨rfl, hrest⟩ := decimal_append hx hy h
      exact ⟨rfl, hrest⟩
  | str s =>
    cases hkind with
    | str t =>
      simp only [render] at h
      obtain ⟨rfl, hrest⟩ := quote_append h
      exact ⟨rfl, hrest⟩
  | arr items =>
    cases hkind with
    | arr items' =>
      simp only [render, List.cons_append, List.append_assoc, List.cons.injEq, true_and, List.nil_append] at h
      obtain ⟨rfl, hrest⟩ := renderItems_append items items' h
      exact ⟨rfl, hrest⟩
  | obj members =>
    cases hkind with
    | obj members' =>
      simp only [render, List.cons_append, List.append_assoc, List.cons.injEq, true_and, List.nil_append] at h
      obtain ⟨rfl, hrest⟩ := renderMembers_append members members' h
      exact ⟨rfl, hrest⟩

/-- INTERNAL: arrays are told apart. -/
theorem renderItems_append (items items' : List Json) {x y : List Char}
    (h : renderItems items ++ ']' :: x = renderItems items' ++ ']' :: y) : items = items' ∧ x = y := by
  match items, items' with
  | [], [] => exact ⟨rfl, by simpa [renderItems] using h⟩
  | [], item' :: rest' =>
    rw [renderItems_cons] at h
    exact absurd h.symm (render_ne_close item' _ _ ']' (by decide))
  | item :: rest, [] =>
    rw [renderItems_cons] at h
    exact absurd h (render_ne_close item _ _ ']' (by decide))
  | item :: rest, item' :: rest' =>
    rw [renderItems_cons, renderItems_cons] at h
    obtain ⟨rfl, htail⟩ := render_append item item' (closes_tailItems rest x) (closes_tailItems rest' y) h
    match rest, rest' with
    | [], [] => exact ⟨rfl, by simpa [tailItems] using htail⟩
    | [], next' :: rest' => simp [tailItems] at htail
    | next :: rest, [] => simp [tailItems] at htail
    | next :: rest, next' :: rest' =>
      obtain ⟨hrest, hend⟩ := renderItems_append (next :: rest) (next' :: rest') (List.cons.inj htail).2
      exact ⟨by rw [hrest], hend⟩

/-- INTERNAL: objects are told apart. -/
theorem renderMembers_append (members members' : List (String × Json)) {x y : List Char}
    (h : renderMembers members ++ '}' :: x = renderMembers members' ++ '}' :: y) :
    members = members' ∧ x = y := by
  match members, members' with
  | [], [] => exact ⟨rfl, by simpa [renderMembers] using h⟩
  | [], (name', value') :: rest' =>
    rw [renderMembers_cons] at h
    simp [renderMembers, quote] at h
  | (name, value) :: rest, [] =>
    rw [renderMembers_cons] at h
    simp [renderMembers, quote] at h
  | (name, value) :: rest, (name', value') :: rest' =>
    rw [renderMembers_cons, renderMembers_cons] at h
    obtain ⟨rfl, hvalue⟩ := quote_append h
    obtain ⟨rfl, htail⟩ := render_append value value' (closes_tailMembers rest x) (closes_tailMembers rest' y)
      (List.cons.inj hvalue).2
    match rest, rest' with
    | [], [] => exact ⟨rfl, by simpa [tailMembers] using htail⟩
    | [], next' :: rest' => simp [tailMembers] at htail
    | next :: rest, [] => simp [tailMembers] at htail
    | next :: rest, next' :: rest' =>
      obtain ⟨hrest, hend⟩ := renderMembers_append (next :: rest) (next' :: rest') (List.cons.inj htail).2
      exact ⟨by rw [hrest], hend⟩

end

/-- **A document is determined by the bytes of its text.** -/
theorem toVec_injective : Function.Injective toVec := by
  intro j j' h
  have htext : String.ofList (render j) = String.ofList (render j') := by
    refine bytes_injective ?_
    unfold bytes utf8
    rw [String.toList_ofList, String.toList_ofList]
    exact h
  have hrender : render j = render j' := String.ofList_inj.mp htext
  exact (render_append j j' (x := []) (y := []) (fun c hc => by simp at hc) (fun c hc => by simp at hc)
    (by rw [hrender])).1

end VaultAccess.Library.Json
