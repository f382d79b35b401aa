import Mathlib.Data.List.Basic
import Mathlib.Tactic.SplitIfs
import Mathlib.Tactic.Ring
import VaultAccess.Library.Text

/-!
# IP addresses as the standard library reads and prints them

The reader takes a dotted quad (at most three digits a part, no leading zero) or
eight groups of at most four hexadecimal digits, one run of zero groups written
`::`, and possibly a dotted quad in the place of the last two groups. The printer
writes the dotted quad, or the groups with the first longest run of at least two
zero groups written `::`, an IPv4-mapped address ending in its dotted quad.

`parse_display` is the point of the module: what the printer writes is read back
as the address it was written from.
-/

set_option autoImplicit false

namespace VaultAccess.Library

/-- An address: four octets or eight segments. -/
inductive IpAddr where
  | v4 (octets : List ℕ)
  | v6 (segments : List ℕ)
  deriving DecidableEq

namespace IpAddr

open Text

/-- Four octets below 256 or eight segments below 65536. -/
def WellFormed : IpAddr → Prop
  | v4 octets => octets.length = 4 ∧ ∀ o ∈ octets, o < 256
  | v6 segments => segments.length = 8 ∧ ∀ s ∈ segments, s < 65536

/-! ## Numbers -/

/-- The value of a digit in a radix of at most sixteen. -/
def digitValue (radix : ℕ) (c : Char) : Option ℕ :=
  let d := if isAsciiDigit c then c.toNat - 48
    else if isAsciiLowercase c then c.toNat - 87
    else if isAsciiUppercase c then c.toNat - 55
    else radix
  if d < radix then some d else none

/-- The longest run of digits at the front of a text. -/
def readDigits (radix : ℕ) : List Char → List ℕ × List Char
  | [] => ([], [])
  | c :: rest => match digitValue radix c with
    | some d => (d :: (readDigits radix rest).1, (readDigits radix rest).2)
    | none => ([], c :: rest)

/-- The number a list of digits stands for. -/
def valueOf (radix : ℕ) (digits : List ℕ) : ℕ :=
  digits.foldl (fun value d => value * radix + d) 0

/-- A number of at most `maxDigits` digits below `bound`. -/
def readNumber (radix maxDigits bound : ℕ) (allowZeroPrefix : Bool) (text : List Char) :
    Option (ℕ × List Char) :=
  let digits := (readDigits radix text).1
  if maxDigits < digits.length then none
  else if digits.isEmpty then none
  else if !allowZeroPrefix && text.head? = some '0' && 1 < digits.length then none
  else if valueOf radix digits < bound then
    some (valueOf radix digits, (readDigits radix text).2)
  else none

/-- The digits of a number; hexadecimal letters are lowercase. -/
def writeNumber (radix n : ℕ) : List Char := Nat.toDigits radix n

theorem digitValue_digitChar (radix d : ℕ) (hr : radix ≤ 16) (hd : d < radix) :
    digitValue radix (Nat.digitChar d) = some d := by
  have h : ∀ r ≤ 16, ∀ k < r, digitValue r (Nat.digitChar k) = some k := by decide
  exact h radix hr d hd

/-- The text does not start with a digit of the radix. -/
def NoDigit (radix : ℕ) (text : List Char) : Prop :=
  ∀ c rest, text = c :: rest → digitValue radix c = none

/-- INTERNAL: a run of digits followed by something else is read exactly. -/
theorem readDigits_append (radix : ℕ) (chars : List Char) (digits : List ℕ) (rest : List Char)
    (h : List.Forall₂ (fun c d => digitValue radix c = some d) chars digits)
    (hrest : NoDigit radix rest) :
    readDigits radix (chars ++ rest) = (digits, rest) := by
  induction h with
  | nil =>
    cases rest with
    | nil => rfl
    | cons c rest =>
      have hc := hrest c rest rfl
      simp [readDigits, hc]
  | cons hc _ ih => simp [readDigits, hc, ih]

/-- INTERNAL: every character of a run of digits is a digit. -/
theorem exists_digit_of_mem (radix : ℕ) (chars : List Char) (digits : List ℕ)
    (h : List.Forall₂ (fun c d => digitValue radix c = some d) chars digits) (c : Char)
    (hc : c ∈ chars) : ∃ d, digitValue radix c = some d := by
  induction h with
  | nil => simp at hc
  | cons hd _ ih =>
    rcases List.mem_cons.mp hc with rfl | hmem
    · exact ⟨_, hd⟩
    · exact ih hmem

/-- INTERNAL: the written digits and the number they stand for. -/
theorem writeNumber_digits (radix n : ℕ) (h1 : 1 < radix) (h2 : radix ≤ 16) :
    ∃ digits, List.Forall₂ (fun c d => digitValue radix c = some d) (writeNumber radix n) digits ∧
      valueOf radix digits = n := by
  unfold writeNumber
  induction n using Nat.strongRecOn with
  | ind n ih =>
    by_cases hn : n < radix
    · refine ⟨[n], ?_, by simp [valueOf]⟩
      rw [Nat.toDigits_of_lt_base hn]
      exact List.Forall₂.cons (digitValue_digitChar radix n h2 hn) List.Forall₂.nil
    · have hle : radix ≤ n := not_lt.mp hn
      have hlt : n / radix < n := Nat.div_lt_self (by omega) h1
      obtain ⟨digits, hdigits, hvalue⟩ := ih (n / radix) hlt
      refine ⟨digits ++ [n % radix], ?_, ?_⟩
      · rw [Nat.toDigits_of_base_le h1 hle]
        exact List.rel_append hdigits
          (List.Forall₂.cons (digitValue_digitChar radix _ h2 (Nat.mod_lt n (by omega)))
            List.Forall₂.nil)
      · unfold valueOf at hvalue ⊢
        rw [List.foldl_append, hvalue]
        simp only [List.foldl_cons, List.foldl_nil]
        have := Nat.div_add_mod n radix
        rw [mul_comm]
        exact this

/-- INTERNAL: only zero is written with a leading zero. -/
theorem writeNumber_head (radix n : ℕ) (h1 : 1 < radix) (h2 : radix ≤ 16)
    (h : (writeNumber radix n).head? = some '0') : n = 0 := by
  unfold writeNumber at h
  induction n using Nat.strongRecOn with
  | ind n ih =>
    by_cases hn : n < radix
    · rw [Nat.toDigits_of_lt_base hn] at h
      have hdigit := digitValue_digitChar radix n h2 hn
      have hc : Nat.digitChar n = '0' := by simpa using h
      have hzero : digitValue radix '0' = some 0 := by
        have := digitValue_digitChar radix 0 h2 (by omega)
        simpa [Nat.digitChar] using this
      rw [hc, hzero] at hdigit
      exact (Option.some.inj hdigit).symm
    · have hle : radix ≤ n := not_lt.mp hn
      rw [Nat.toDigits_of_base_le h1 hle, List.head?_append_of_ne_nil _ Nat.toDigits_ne_nil] at h
      have hdiv := ih (n / radix) (Nat.div_lt_self (by omega) h1) h
      have : radix ≤ 0 := by
        have hpos : 0 < n / radix := Nat.div_pos hle (by omega)
        omega
      omega

/-- **A written number is read back**, whatever follows that is no digit. -/
theorem readNumber_writeNumber (radix maxDigits bound n : ℕ) (allowZeroPrefix : Bool)
    (rest : List Char) (h1 : 1 < radix) (h2 : radix ≤ 16) (hbound : n < bound)
    (hmax : 0 < maxDigits) (hpow : n < radix ^ maxDigits) (hrest : NoDigit radix rest) :
    readNumber radix maxDigits bound allowZeroPrefix (writeNumber radix n ++ rest) =
      some (n, rest) := by
  obtain ⟨digits, hdigits, hvalue⟩ := writeNumber_digits radix n h1 h2
  have hread := readDigits_append radix _ digits rest hdigits hrest
  have hlen : digits.length = (writeNumber radix n).length := hdigits.length_eq.symm
  have hle : (writeNumber radix n).length ≤ maxDigits :=
    (Nat.length_toDigits_le_iff h1 hmax).mpr hpow
  have hne : writeNumber radix n ≠ [] := Nat.toDigits_ne_nil
  have hpos : digits.isEmpty = false := by
    cases digits with
    | nil => exact absurd (List.length_eq_zero_iff.mp hlen.symm) hne
    | cons d ds => rfl
  have hzero : (!allowZeroPrefix &&
      decide ((writeNumber radix n ++ rest).head? = some '0') && decide (1 < digits.length)) =
      false := by
    rw [List.head?_append_of_ne_nil _ hne]
    by_cases hhead : (writeNumber radix n).head? = some '0'
    · have hn := writeNumber_head radix n h1 h2 hhead
      have : digits.length = 1 := by
        rw [hlen, hn]
        unfold writeNumber
        rw [Nat.toDigits_zero]
        rfl
      simp [this]
    · simp [hhead]
  unfold readNumber
  rw [hread]
  simp only [hvalue, hpos, hzero, if_neg (not_lt.mpr (hlen ▸ hle)), hbound, if_true,
    Bool.false_eq_true, if_false]

/-- INTERNAL: a number that was read is below its bound. -/
theorem readNumber_lt (radix maxDigits bound : ℕ) (allowZeroPrefix : Bool) (text rest : List Char)
    (n : ℕ) (h : readNumber radix maxDigits bound allowZeroPrefix text = some (n, rest)) :
    n < bound := by
  unfold readNumber at h
  simp only at h
  split_ifs at h with _ _ _ hlt
  simp only [Option.some.injEq, Prod.mk.injEq] at h
  exact h.1 ▸ hlt

theorem readNumber_eq_none (radix maxDigits bound : ℕ) (allowZeroPrefix : Bool) (text : List Char)
    (h : NoDigit radix text) : readNumber radix maxDigits bound allowZeroPrefix text = none := by
  have hread : readDigits radix text = ([], text) :=
    readDigits_append radix [] [] text List.Forall₂.nil h
  simp [readNumber, hread]

/-! ## The reader -/

/-- The separator before every part but the first, then the part. -/
def readSeparator {α : Type} (separator : Char) (first : Bool)
    (inner : List Char → Option (α × List Char)) (text : List Char) : Option (α × List Char) :=
  if first then inner text
  else match text with
    | c :: rest => if c = separator then inner rest else none
    | [] => none

/-- The remaining octets of a dotted quad. -/
def readOctets : ℕ → Bool → List Char → Option (List ℕ × List Char)
  | 0, _, text => some ([], text)
  | n + 1, first, text => do
    let (octet, rest) ← readSeparator '.' first (readNumber 10 3 256 false) text
    let (octets, rest) ← readOctets n false rest
    pure (octet :: octets, rest)

def readIpv4 (text : List Char) : Option (List ℕ × List Char) := readOctets 4 true text

/-- The two segments of a dotted quad. -/
def embed : List ℕ → List ℕ
  | [a, b, c, d] => [a * 256 + b, c * 256 + d]
  | _ => []

/-- Up to the given number of groups; the flag tells that a dotted quad ended them. -/
def readGroups : ℕ → Bool → List Char → List ℕ × Bool × List Char
  | 0, _, text => ([], false, text)
  | n + 1, first, text =>
    -- a dotted quad stands for two groups, so at least two must be left
    match (if 0 < n then readSeparator ':' first readIpv4 text else none) with
    | some (octets, rest) => (embed octets, true, rest)
    | none => match readSeparator ':' first (readNumber 16 4 65536 true) text with
      | some (group, rest) =>
        (group :: (readGroups n false rest).1, (readGroups n false rest).2)
      | none => ([], false, text)

def readIpv6 (text : List Char) : Option (List ℕ × List Char) :=
  let (head, quad, rest) := readGroups 8 true text
  if head.length = 8 then some (head, rest)
  else if quad then none
  else match rest with
    | ':' :: ':' :: rest =>
      let (tail, _, rest) := readGroups (7 - head.length) true rest
      some (head ++ List.replicate (8 - head.length - tail.length) 0 ++ tail, rest)
    | _ => none

/-- The whole text is one address. The dotted quad is tried first. -/
def parse (text : List Char) : Option IpAddr :=
  match readIpv4 text with
  | some (octets, rest) => if rest.isEmpty then some (v4 octets) else none
  | none => match readIpv6 text with
    | some (segments, rest) => if rest.isEmpty then some (v6 segments) else none
    | none => none

/-! ## The printer -/

/-- Octets or groups with a separator before every one but the first. -/
def writeSeparated (separator : Char) (radix : ℕ) : Bool → List ℕ → List Char
  | _, [] => []
  | first, n :: rest =>
    (if first then [] else [separator]) ++ writeNumber radix n ++
      writeSeparated separator radix false rest

/-- A run of zero segments. -/
structure Span where
  start : ℕ
  len : ℕ

/-- The first longest run of zero segments from index `i` on. -/
def longestZeros : ℕ → Span → Span → List ℕ → Span
  | _, _, longest, [] => longest
  | i, current, longest, segment :: rest =>
    if segment = 0 then
      let current := ⟨if current.len = 0 then i else current.start, current.len + 1⟩
      longestZeros (i + 1) current (if longest.len < current.len then current else longest) rest
    else longestZeros (i + 1) ⟨0, 0⟩ longest rest

def writeIpv6 (segments : List ℕ) : List Char :=
  match segments with
  | [0, 0, 0, 0, 0, 65535, hi, lo] =>
    "::ffff:".toList ++ writeSeparated '.' 10 true [hi / 256, hi % 256, lo / 256, lo % 256]
  | _ =>
    let zeros := longestZeros 0 ⟨0, 0⟩ ⟨0, 0⟩ segments
    if 1 < zeros.len then
      writeSeparated ':' 16 true (segments.take zeros.start) ++ ':' :: ':' ::
        writeSeparated ':' 16 true (segments.drop (zeros.start + zeros.len))
    else writeSeparated ':' 16 true segments

def display : IpAddr → List Char
  | v4 octets => writeSeparated '.' 10 true octets
  | v6 segments => writeIpv6 segments

/-! ## Reading back the dotted quad -/

theorem readSeparator_write {α : Type} (separator : Char) (first : Bool)
    (inner : List Char → Option (α × List Char)) (text : List Char) :
    readSeparator separator first inner ((if first then [] else [separator]) ++ text) =
      inner text := by
  cases first <;> simp [readSeparator]

/-- INTERNAL: what follows a part starts with the separator or is what follows the text. -/
theorem noDigit_writeSeparated (separator : Char) (radix : ℕ) (numbers : List ℕ) (rest : List Char)
    (hsep : digitValue radix separator = none) (hrest : NoDigit radix rest) :
    NoDigit radix (writeSeparated separator radix false numbers ++ rest) := by
  cases numbers with
  | nil => exact hrest
  | cons n numbers =>
    intro c text h
    simp only [writeSeparated, Bool.false_eq_true, if_false, List.append_assoc,
      List.cons_append, List.nil_append, List.cons.injEq] at h
    exact h.1 ▸ hsep

/-- INTERNAL: written octets are read back. -/
theorem readOctets_writeSeparated (octets : List ℕ) (first : Bool) (rest : List Char)
    (hlt : ∀ o ∈ octets, o < 256) (hrest : NoDigit 10 rest) :
    readOctets octets.length first (writeSeparated '.' 10 first octets ++ rest) =
      some (octets, rest) := by
  induction octets generalizing first with
  | nil => rfl
  | cons o octets ih =>
    have ho : o < 256 := hlt o (by simp)
    have hnext := noDigit_writeSeparated '.' 10 octets rest (by decide) hrest
    have hread := readNumber_writeNumber 10 3 256 o false
      (writeSeparated '.' 10 false octets ++ rest) (by omega) (by omega) ho (by omega)
      (by omega) hnext
    have htail := ih false (fun p hp => hlt p (by simp [hp]))
    simp only [List.length_cons, readOctets, writeSeparated, List.append_assoc,
      readSeparator_write, hread, htail, Option.bind_eq_bind, Option.bind_some, Option.pure_def]

/-- INTERNAL: the characters left after a number are characters of the text. -/
theorem mem_of_mem_readDigits (radix : ℕ) (text : List Char) (c : Char)
    (h : c ∈ (readDigits radix text).2) : c ∈ text := by
  induction text with
  | nil => exact h
  | cons d text ih =>
    unfold readDigits at h
    split at h
    · exact List.mem_cons_of_mem d (ih h)
    · exact h

/-- INTERNAL: the same for a bounded number. -/
theorem mem_of_mem_readNumber (radix maxDigits bound : ℕ) (allowZeroPrefix : Bool)
    (text rest : List Char) (n : ℕ) (c : Char)
    (h : readNumber radix maxDigits bound allowZeroPrefix text = some (n, rest)) (hc : c ∈ rest) :
    c ∈ text := by
  unfold readNumber at h
  simp only at h
  split_ifs at h
  simp only [Option.some.injEq, Prod.mk.injEq] at h
  rw [← h.2] at hc
  exact mem_of_mem_readDigits radix text c hc

/-- INTERNAL: a text without a dot is no dotted quad. -/
theorem readIpv4_eq_none (text : List Char) (h : '.' ∉ text) : readIpv4 text = none := by
  unfold readIpv4 readOctets
  cases hnum : readNumber 10 3 256 false text with
  | none => simp [readSeparator, hnum]
  | some result =>
    obtain ⟨n, rest⟩ := result
    have hrest : '.' ∉ rest := fun hmem =>
      h (mem_of_mem_readNumber 10 3 256 false text rest n '.' hnum hmem)
    have hsep : readSeparator '.' false (readNumber 10 3 256 false) rest = none := by
      cases rest with
      | nil => rfl
      | cons c rest =>
        have hc : c ≠ '.' := fun hc => hrest (by simp [hc])
        simp [readSeparator, hc]
    simp [readSeparator, hnum, readOctets] at hsep ⊢
    simp [hsep]

/-- INTERNAL: the same after a separator. -/
theorem readSeparator_readIpv4_eq_none (first : Bool) (text : List Char) (h : '.' ∉ text) :
    readSeparator ':' first readIpv4 text = none := by
  cases first with
  | true => exact readIpv4_eq_none text h
  | false =>
    cases text with
    | nil => rfl
    | cons c rest =>
      have hrest : '.' ∉ rest := fun hmem => h (by simp [hmem])
      simp [readSeparator, readIpv4_eq_none rest hrest]

/-! ## Reading back the groups -/

/-- INTERNAL: a dot is no hexadecimal digit, so groups contain none. -/
theorem dot_notMem_writeSeparated (first : Bool) (groups : List ℕ) :
    '.' ∉ writeSeparated ':' 16 first groups := by
  induction groups generalizing first with
  | nil => simp [writeSeparated]
  | cons g groups ih =>
    have hnum : '.' ∉ writeNumber 16 g := by
      obtain ⟨digits, hdigits, -⟩ := writeNumber_digits 16 g (by omega) (by omega)
      intro hmem
      obtain ⟨d, hd⟩ := exists_digit_of_mem 16 _ digits hdigits '.' hmem
      exact absurd hd (by simp [show digitValue 16 '.' = none by decide])
    cases first <;> simp [writeSeparated, hnum, ih]

/-- INTERNAL: written groups are read back up to a text where no further group stands. -/
theorem readGroups_writeSeparated (n : ℕ) (first : Bool) (groups : List ℕ) (rest : List Char)
    (hn : groups.length ≤ n) (hlt : ∀ g ∈ groups, g < 65536) (hdot : '.' ∉ rest)
    (hrest : NoDigit 16 rest)
    (hstop : groups.length = n ∨
      readSeparator ':' (first && groups.isEmpty) (readNumber 16 4 65536 true) rest = none) :
    readGroups n first (writeSeparated ':' 16 first groups ++ rest) = (groups, false, rest) := by
  induction groups generalizing n first with
  | nil =>
    cases n with
    | zero => rfl
    | succ n =>
      have hnone : readSeparator ':' first (readNumber 16 4 65536 true) rest = none := by
        rcases hstop with h | h
        · simp at h
        · simpa using h
      simp [writeSeparated, readGroups, readSeparator_readIpv4_eq_none first rest hdot, hnone]
  | cons g groups ih =>
    cases n with
    | zero => simp at hn
    | succ n =>
      have hg : g < 65536 := hlt g (by simp)
      have hnext := noDigit_writeSeparated ':' 16 groups rest (by decide) hrest
      have hnodot : '.' ∉ writeSeparated ':' 16 first (g :: groups) ++ rest := by
        simp [dot_notMem_writeSeparated, hdot]
      have hquad := readSeparator_readIpv4_eq_none first _ hnodot
      have hread := readNumber_writeNumber 16 4 65536 g true
        (writeSeparated ':' 16 false groups ++ rest) (by omega) (by omega) hg (by omega)
        (by omega) hnext
      have htail := ih n false (by simpa using hn) (fun p hp => hlt p (by simp [hp])) (by
        rcases hstop with h | h
        · exact Or.inl (by simpa using h)
        · exact Or.inr (by simpa using h))
      have hgroup : readSeparator ':' first (readNumber 16 4 65536 true)
          (writeSeparated ':' 16 first (g :: groups) ++ rest) =
          some (g, writeSeparated ':' 16 false groups ++ rest) := by
        simp only [writeSeparated, List.append_assoc, readSeparator_write, hread]
      simp [readGroups, hquad, hgroup, htail]

theorem noDigit_nil (radix : ℕ) : NoDigit radix [] := fun _ _ h => by simp at h

theorem noDigit_colon (text : List Char) : NoDigit 16 (':' :: text) := by
  intro c rest h
  simp only [List.cons.injEq] at h
  exact h.1 ▸ by decide

/-! ## The run of zeros -/

/-- INTERNAL: the run found holds zeros only. The scan has passed `done` and stands
before `rest`; both runs it carries are runs of zeros, the current one ending here. -/
theorem longestZeros_spec (done rest : List ℕ) (current longest : Span)
    (hcur : ∀ k < current.len, (done ++ rest)[current.start + k]? = some 0)
    (hend : current.len ≠ 0 → current.start + current.len = done.length)
    (hlong : ∀ k < longest.len, (done ++ rest)[longest.start + k]? = some 0) :
    let zeros := longestZeros done.length current longest rest
    ∀ k < zeros.len, (done ++ rest)[zeros.start + k]? = some 0 := by
  induction rest generalizing done current longest with
  | nil => simpa [longestZeros] using hlong
  | cons segment rest ih =>
    have happ : done ++ segment :: rest = (done ++ [segment]) ++ rest := by simp
    have hlen : done.length + 1 = (done ++ [segment]).length := by simp
    simp only [longestZeros]
    split_ifs with hzero hfirst hbigger hbigger
    all_goals rw [happ, hlen]
    -- the current run starts here
    · have hnew : ∀ k < current.len + 1, ((done ++ [segment]) ++ rest)[done.length + k]? = some 0 := by
        intro k hk
        have : k = 0 := by omega
        subst this
        simp [hzero]
      exact ih (done ++ [segment]) ⟨done.length, current.len + 1⟩ ⟨done.length, current.len + 1⟩
        hnew (by intro _; simp; omega) hnew
    · have hnew : ∀ k < current.len + 1, ((done ++ [segment]) ++ rest)[done.length + k]? = some 0 := by
        intro k hk
        have : k = 0 := by omega
        subst this
        simp [hzero]
      exact ih (done ++ [segment]) ⟨done.length, current.len + 1⟩ longest
        hnew (by intro _; simp; omega) (by rw [← happ]; exact hlong)
    -- the current run goes on
    · have hnew : ∀ k < current.len + 1,
          ((done ++ [segment]) ++ rest)[current.start + k]? = some 0 := by
        intro k hk
        rcases Nat.lt_succ_iff_lt_or_eq.mp hk with hk | hk
        · rw [← happ]; exact hcur k hk
        · rw [hk, hend hfirst]; simp [hzero]
      exact ih (done ++ [segment]) ⟨current.start, current.len + 1⟩
        ⟨current.start, current.len + 1⟩ hnew
        (by intro _; have := hend hfirst; simp; omega) hnew
    · have hnew : ∀ k < current.len + 1,
          ((done ++ [segment]) ++ rest)[current.start + k]? = some 0 := by
        intro k hk
        rcases Nat.lt_succ_iff_lt_or_eq.mp hk with hk | hk
        · rw [← happ]; exact hcur k hk
        · rw [hk, hend hfirst]; simp [hzero]
      exact ih (done ++ [segment]) ⟨current.start, current.len + 1⟩ longest hnew
        (by intro _; have := hend hfirst; simp; omega) (by rw [← happ]; exact hlong)
    -- the current run is broken
    · exact ih (done ++ [segment]) ⟨0, 0⟩ longest (by simp) (by simp)
        (by rw [← happ]; exact hlong)

/-- INTERNAL: a list around a run of zeros. -/
theorem eq_take_zeros_drop (segments : List ℕ) (start len : ℕ) (hlen : 0 < len)
    (h : ∀ k < len, segments[start + k]? = some 0) :
    start + len ≤ segments.length ∧
      segments = segments.take start ++ List.replicate len 0 ++ segments.drop (start + len) := by
  have hbound : start + len ≤ segments.length := by
    have hlast := h (len - 1) (by omega)
    have := (List.getElem?_eq_some_iff.mp hlast).1
    omega
  refine ⟨hbound, ?_⟩
  have hmiddle : (segments.drop start).take len = List.replicate len 0 := by
    apply List.ext_getElem?
    intro k
    by_cases hk : k < len
    · rw [List.getElem?_take_of_lt hk, List.getElem?_drop, h k hk, List.getElem?_replicate_of_lt hk]
    · rw [List.getElem?_eq_none (by simp; omega), List.getElem?_eq_none (by simp; omega)]
  rw [← hmiddle, ← List.drop_drop, List.append_assoc, List.take_append_drop,
    List.take_append_drop]

/-! ## Reading back an address -/

/-- INTERNAL: groups that fill the address are read back. -/
theorem parse_groups (segments : List ℕ) (hlen : segments.length = 8)
    (hlt : ∀ s ∈ segments, s < 65536) :
    parse (writeSeparated ':' 16 true segments) = some (v6 segments) := by
  have hquad := readIpv4_eq_none _ (dot_notMem_writeSeparated true segments)
  have hgroups := readGroups_writeSeparated 8 true segments [] (by omega) hlt (by simp)
    (noDigit_nil 16) (Or.inl hlen)
  rw [List.append_nil] at hgroups
  simp [parse, hquad, readIpv6, hgroups, hlen]

/-- INTERNAL: groups around a `::` are read back with the missing zeros. -/
theorem parse_compressed (head tail : List ℕ) (hlen : head.length + tail.length ≤ 7)
    (hhead : ∀ s ∈ head, s < 65536) (htail : ∀ s ∈ tail, s < 65536) :
    parse (writeSeparated ':' 16 true head ++ ':' :: ':' :: writeSeparated ':' 16 true tail) =
      some (v6 (head ++ List.replicate (8 - head.length - tail.length) 0 ++ tail)) := by
  have hdot : '.' ∉ ':' :: ':' :: writeSeparated ':' 16 true tail := by
    simp [dot_notMem_writeSeparated]
  have hquad := readIpv4_eq_none
    (writeSeparated ':' 16 true head ++ ':' :: ':' :: writeSeparated ':' 16 true tail)
    (by simp [dot_notMem_writeSeparated])
  -- no group stands at `::`, neither as the first one nor after a separator
  have hstop : ∀ first, readSeparator ':' first (readNumber 16 4 65536 true)
      (':' :: ':' :: writeSeparated ':' 16 true tail) = none := by
    intro first
    have hnone := readNumber_eq_none 16 4 65536 true
      (':' :: writeSeparated ':' 16 true tail) (noDigit_colon _)
    have hnone' := readNumber_eq_none 16 4 65536 true
      (':' :: ':' :: writeSeparated ':' 16 true tail) (noDigit_colon _)
    cases first <;> simp [readSeparator, hnone, hnone']
  have hfront := readGroups_writeSeparated 8 true head
    (':' :: ':' :: writeSeparated ':' 16 true tail) (by omega) hhead hdot (noDigit_colon _)
    (Or.inr (hstop _))
  have hback := readGroups_writeSeparated (7 - head.length) true tail [] (by omega) htail
    (by simp) (noDigit_nil 16) (Or.inr (by
      cases true && tail.isEmpty
      · rfl
      · simpa [readSeparator] using readNumber_eq_none 16 4 65536 true [] (noDigit_nil 16)))
  rw [List.append_nil] at hback
  have hne : ¬ head.length = 8 := by omega
  simp [parse, hquad, readIpv6, hfront, hback, hne]

/-- INTERNAL: an IPv4-mapped address is read back. -/
theorem parse_mapped (hi lo : ℕ) (hhi : hi < 65536) (hlo : lo < 65536) :
    parse (writeIpv6 [0, 0, 0, 0, 0, 65535, hi, lo]) =
      some (v6 [0, 0, 0, 0, 0, 65535, hi, lo]) := by
  have hoctets := readOctets_writeSeparated [hi / 256, hi % 256, lo / 256, lo % 256] true []
    (by simp; omega) (noDigit_nil 10)
  rw [List.append_nil] at hoctets
  set quad := writeSeparated '.' 10 true [hi / 256, hi % 256, lo / 256, lo % 256] with hquad
  have hread : readIpv4 quad = some ([hi / 256, hi % 256, lo / 256, lo % 256], []) := hoctets
  have htext : writeIpv6 [0, 0, 0, 0, 0, 65535, hi, lo] =
      ':' :: ':' :: 'f' :: 'f' :: 'f' :: 'f' :: ':' :: quad := rfl
  have hcolon : ∀ text, readIpv4 (':' :: text) = none := by
    intro text
    have hnone : readNumber 10 3 256 false (':' :: text) = none :=
      readNumber_eq_none 10 3 256 false _ (by
        intro c rest h
        simp only [List.cons.injEq] at h
        exact h.1 ▸ by decide)
    simp [readIpv4, readOctets, readSeparator, hnone]
  have hletter : ∀ text, readIpv4 ('f' :: text) = none := by
    intro text
    have hnone : readNumber 10 3 256 false ('f' :: text) = none :=
      readNumber_eq_none 10 3 256 false _ (by
        intro c rest h
        simp only [List.cons.injEq] at h
        exact h.1 ▸ by decide)
    simp [readIpv4, readOctets, readSeparator, hnone]
  have hffff : readNumber 16 4 65536 true ('f' :: 'f' :: 'f' :: 'f' :: ':' :: quad) =
      some (65535, ':' :: quad) := by
    have hdigits : writeNumber 16 65535 = ['f', 'f', 'f', 'f'] := by
      unfold writeNumber
      rw [Nat.toDigits_of_base_le (by omega) (by omega), Nat.toDigits_of_base_le (by omega)
        (by omega), Nat.toDigits_of_base_le (by omega) (by omega), Nat.toDigits_of_lt_base
        (by omega)]
      rfl
    have := readNumber_writeNumber 16 4 65536 65535 true (':' :: quad) (by omega) (by omega)
      (by omega) (by omega) (by omega) (noDigit_colon quad)
    rw [hdigits] at this
    exact this
  have hnone : ∀ text, readNumber 16 4 65536 true (':' :: text) = none := fun text =>
    readNumber_eq_none 16 4 65536 true _ (noDigit_colon text)
  have hfront : readGroups 8 true (':' :: ':' :: 'f' :: 'f' :: 'f' :: 'f' :: ':' :: quad) =
      ([], false, ':' :: ':' :: 'f' :: 'f' :: 'f' :: 'f' :: ':' :: quad) := by
    simp [readGroups, readSeparator, hcolon, hnone]
  have hback : readGroups 7 true ('f' :: 'f' :: 'f' :: 'f' :: ':' :: quad) =
      ([65535, hi / 256 * 256 + hi % 256, lo / 256 * 256 + lo % 256], true, []) := by
    simp [readGroups, readSeparator, hletter, hffff, hread, embed]
  have h1 : hi / 256 * 256 + hi % 256 = hi := Nat.div_add_mod' hi 256
  have h2 : lo / 256 * 256 + lo % 256 = lo := Nat.div_add_mod' lo 256
  rw [htext]
  simp [parse, hcolon, readIpv6, hfront, hback, h1, h2, List.replicate]

/-- **What the printer writes is read back** as the address it was written from. -/
theorem parse_display (ip : IpAddr) (h : ip.WellFormed) : parse ip.display = some ip := by
  cases ip with
  | v4 octets =>
    obtain ⟨hlen, hlt⟩ := h
    have hread := readOctets_writeSeparated octets true [] hlt (noDigit_nil 10)
    rw [List.append_nil, hlen] at hread
    have hquad : readIpv4 (writeSeparated '.' 10 true octets) = some (octets, []) := hread
    simp [parse, display, hquad]
  | v6 segments =>
    obtain ⟨hlen, hlt⟩ := h
    simp only [display]
    by_cases hmapped : ∃ hi lo, segments = [0, 0, 0, 0, 0, 65535, hi, lo]
    · obtain ⟨hi, lo, rfl⟩ := hmapped
      exact parse_mapped hi lo (hlt hi (by simp)) (hlt lo (by simp))
    · have hwrite : writeIpv6 segments =
          let zeros := longestZeros 0 ⟨0, 0⟩ ⟨0, 0⟩ segments
          if 1 < zeros.len then
            writeSeparated ':' 16 true (segments.take zeros.start) ++ ':' :: ':' ::
              writeSeparated ':' 16 true (segments.drop (zeros.start + zeros.len))
          else writeSeparated ':' 16 true segments := by
        unfold writeIpv6
        split
        · rename_i hi lo
          exact absurd ⟨hi, lo, rfl⟩ hmapped
        · rfl
      rw [hwrite]
      simp only
      split_ifs with hrun
      · set zeros := longestZeros 0 ⟨0, 0⟩ ⟨0, 0⟩ segments with hzeros
        have hspec := longestZeros_spec [] segments ⟨0, 0⟩ ⟨0, 0⟩ (by simp) (by simp) (by simp)
        simp only [List.nil_append, List.length_nil] at hspec
        rw [← hzeros] at hspec
        obtain ⟨hbound, hsplit⟩ :=
          eq_take_zeros_drop segments zeros.start zeros.len (by omega) hspec
        have hread := parse_compressed (segments.take zeros.start)
          (segments.drop (zeros.start + zeros.len)) (by simp; omega)
          (fun s hs => hlt s (List.mem_of_mem_take hs)) (fun s hs => hlt s (List.mem_of_mem_drop hs))
        have hcount : 8 - (segments.take zeros.start).length -
            (segments.drop (zeros.start + zeros.len)).length = zeros.len := by
          simp only [List.length_take, List.length_drop]
          omega
        rw [hread, hcount, ← hsplit]
      · exact parse_groups segments hlen hlt

/-! ## What is read is well formed -/

/-- INTERNAL: a part that was read after a separator was read by the inner reader. -/
theorem readSeparator_some {α : Type} (separator : Char) (first : Bool)
    (inner : List Char → Option (α × List Char)) (text : List Char) (result : α × List Char)
    (h : readSeparator separator first inner text = some result) :
    ∃ text', inner text' = some result := by
  unfold readSeparator at h
  split_ifs at h
  · exact ⟨text, h⟩
  · split at h
    · split_ifs at h
      exact ⟨_, h⟩
    · simp at h

/-- INTERNAL: octets that were read are octets. -/
theorem readOctets_wf (n : ℕ) (first : Bool) (text rest : List Char) (octets : List ℕ)
    (h : readOctets n first text = some (octets, rest)) :
    octets.length = n ∧ ∀ o ∈ octets, o < 256 := by
  induction n generalizing first text rest octets with
  | zero =>
    simp only [readOctets, Option.some.injEq, Prod.mk.injEq] at h
    simp [← h.1]
  | succ n ih =>
    simp only [readOctets, Option.bind_eq_bind, Option.bind_eq_some_iff, Option.pure_def,
      Option.some.injEq, Prod.mk.injEq, Prod.exists] at h
    obtain ⟨o, rest1, hnum, os, rest2, hrest, hcons, -⟩ := h
    obtain ⟨text', hread⟩ := readSeparator_some _ _ _ _ _ hnum
    have ho := readNumber_lt _ _ _ _ _ _ _ hread
    obtain ⟨hl, hm⟩ := ih false rest1 rest2 os hrest
    subst hcons
    refine ⟨by simp [hl], ?_⟩
    intro p hp
    rcases List.mem_cons.mp hp with rfl | hp
    · exact ho
    · exact hm p hp

/-- INTERNAL: a dotted quad stands for two groups. -/
theorem embed_wf (octets : List ℕ) (hlen : octets.length = 4) (hlt : ∀ o ∈ octets, o < 256) :
    (embed octets).length = 2 ∧ ∀ s ∈ embed octets, s < 65536 := by
  match octets, hlen with
  | [a, b, c, d], _ =>
    have ha := hlt a (by simp)
    have hb := hlt b (by simp)
    have hc := hlt c (by simp)
    have hd := hlt d (by simp)
    refine ⟨rfl, ?_⟩
    simp only [embed, List.mem_cons, List.not_mem_nil, or_false, forall_eq_or_imp, forall_eq]
    omega

/-- INTERNAL: groups that were read are at most as many as asked for, and groups. -/
theorem readGroups_wf (n : ℕ) (first : Bool) (text : List Char) :
    (readGroups n first text).1.length ≤ n ∧ ∀ g ∈ (readGroups n first text).1, g < 65536 := by
  induction n generalizing first text with
  | zero => simp [readGroups]
  | succ n ih =>
    unfold readGroups
    split
    · rename_i octets rest hquad
      split_ifs at hquad with hn
      obtain ⟨text', hread⟩ := readSeparator_some _ _ _ _ _ hquad
      obtain ⟨hl, hlt⟩ := readOctets_wf 4 true text' rest octets hread
      obtain ⟨hlen, hm⟩ := embed_wf octets hl hlt
      exact ⟨by simp only [hlen]; omega, hm⟩
    · split
      · rename_i group rest hnum
        obtain ⟨text', hread⟩ := readSeparator_some _ _ _ _ _ hnum
        have hg := readNumber_lt _ _ _ _ _ _ _ hread
        obtain ⟨hl, hm⟩ := ih false rest
        refine ⟨by simpa using hl, ?_⟩
        intro p hp
        rcases List.mem_cons.mp hp with rfl | hp
        · exact hg
        · exact hm p hp
      · simp

/-- **What is read is an address.** -/
theorem parse_wellFormed (text : List Char) (ip : IpAddr) (h : parse text = some ip) :
    ip.WellFormed := by
  unfold parse at h
  split at h
  · rename_i octets rest hquad
    split_ifs at h
    simp only [Option.some.injEq] at h
    subst h
    exact readOctets_wf 4 true text rest octets hquad
  · split at h
    · rename_i segments rest hread
      split_ifs at h
      simp only [Option.some.injEq] at h
      subst h
      obtain ⟨hl, hm⟩ := readGroups_wf 8 true text
      unfold readIpv6 at hread
      simp only at hread
      split_ifs at hread with hfull hflag
      · simp only [Option.some.injEq, Prod.mk.injEq] at hread
        rw [← hread.1]
        exact ⟨hfull, hm⟩
      · split at hread
        · rename_i rest' _
          obtain ⟨hl', hm'⟩ := readGroups_wf (7 - (readGroups 8 true text).1.length) true rest'
          simp only [Option.some.injEq, Prod.mk.injEq] at hread
          rw [← hread.1]
          refine ⟨by simp; omega, ?_⟩
          intro p hp
          simp only [List.mem_append, List.mem_replicate] at hp
          rcases hp with (hp | ⟨-, rfl⟩) | hp
          · exact hm p hp
          · omega
          · exact hm' p hp
        · simp at hread
    · simp at h

/-! ## The characters of an address -/

/-- INTERNAL: reading digits consumes only digits. -/
theorem digit_or_mem_readDigits (radix : ℕ) (text : List Char) (c : Char) (h : c ∈ text) :
    (digitValue radix c).isSome ∨ c ∈ (readDigits radix text).2 := by
  induction text with
  | nil => simp at h
  | cons d text ih =>
    unfold readDigits
    split
    · rename_i value hvalue
      rcases List.mem_cons.mp h with rfl | hmem
      · exact Or.inl (by simp [hvalue])
      · exact ih hmem
    · exact Or.inr h

/-- INTERNAL: decimal digit values belong to decimal digits. -/
theorem isAsciiDigit_of_digitValue (c : Char) (h : (digitValue 10 c).isSome) :
    isAsciiDigit c = true := by
  by_contra hdigit
  have hvalue : digitValue 10 c = none := by
    simp only [digitValue, hdigit, if_false]
    have hlower : isAsciiLowercase c = true → 97 ≤ c.toNat := by
      simp only [isAsciiLowercase, Bool.and_eq_true, decide_eq_true_eq]
      exact fun hc => hc.1
    have hupper : isAsciiUppercase c = true → 65 ≤ c.toNat := by
      simp only [isAsciiUppercase, Bool.and_eq_true, decide_eq_true_eq]
      exact fun hc => hc.1
    split_ifs with h1 h2 h3 h4 h5
    · have := hlower h1
      omega
    · rfl
    · have := hupper h3
      omega
    · rfl
    · omega
    · rfl
  rw [hvalue] at h
  simp at h

/-- INTERNAL: a dotted quad consumes only digits and dots. -/
theorem digit_or_mem_readOctets (n : ℕ) (first : Bool) (text rest : List Char) (octets : List ℕ)
    (h : readOctets n first text = some (octets, rest)) (c : Char) (hc : c ∈ text) :
    isAsciiDigit c = true ∨ c = '.' ∨ c ∈ rest := by
  induction n generalizing first text octets with
  | zero =>
    simp only [readOctets, Option.some.injEq, Prod.mk.injEq] at h
    exact Or.inr (Or.inr (h.2 ▸ hc))
  | succ n ih =>
    have hnumber : ∀ text' number rest', readNumber 10 3 256 false text' = some (number, rest') →
        c ∈ text' → isAsciiDigit c = true ∨ c ∈ rest' := by
      intro text' number rest' hread hmem
      unfold readNumber at hread
      simp only at hread
      split_ifs at hread
      simp only [Option.some.injEq, Prod.mk.injEq] at hread
      rcases digit_or_mem_readDigits 10 text' c hmem with hd | hd
      · exact Or.inl (isAsciiDigit_of_digitValue c hd)
      · exact Or.inr (hread.2 ▸ hd)
    simp only [readOctets, Option.bind_eq_bind, Option.bind_eq_some_iff, Option.pure_def,
      Option.some.injEq, Prod.mk.injEq] at h
    obtain ⟨⟨number, rest₁⟩, hsep, ⟨octets', rest₂⟩, htail, -, hrest⟩ := h
    simp only at hrest htail
    subst hrest
    have hstep : isAsciiDigit c = true ∨ c = '.' ∨ c ∈ rest₁ := by
      unfold readSeparator at hsep
      split_ifs at hsep
      · exact (hnumber text number rest₁ hsep hc).imp_right Or.inr
      · split at hsep
        · split_ifs at hsep with hdot
          rcases List.mem_cons.mp hc with hc | hc
          · exact Or.inr (Or.inl (hc.trans hdot))
          · exact (hnumber _ number rest₁ hsep hc).imp_right Or.inr
        · simp at hsep
    rcases hstep with hd | hd | hd
    · exact Or.inl hd
    · exact Or.inr (Or.inl hd)
    · exact ih false rest₁ octets' htail hd

/-- INTERNAL: without a colon at most one group is read, so no IPv6 address. -/
theorem readIpv6_eq_none (text : List Char) (hquad : readIpv4 text = none) (h : ':' ∉ text) :
    readIpv6 text = none := by
  have hsep : ∀ (inner : List Char → Option (ℕ × List Char)) (rest : List Char), ':' ∉ rest →
      readSeparator ':' false inner rest = none := by
    intro inner rest hrest
    cases rest with
    | nil => rfl
    | cons c rest =>
      have hc : c ≠ ':' := fun hc => hrest (by simp [hc])
      simp [readSeparator, hc]
  have hsepQuad : ∀ rest : List Char, ':' ∉ rest → readSeparator ':' false readIpv4 rest = none := by
    intro rest hrest
    cases rest with
    | nil => rfl
    | cons c rest =>
      have hc : c ≠ ':' := fun hc => hrest (by simp [hc])
      simp [readSeparator, hc]
  have hstuck : ∀ rest : List Char, ':' ∉ rest →
      (match rest with
        | ':' :: ':' :: rest' =>
          some ((readGroups 8 true text).1 ++ List.replicate (8 - (readGroups 8 true text).1.length -
            (readGroups (7 - (readGroups 8 true text).1.length) true rest').1.length) 0 ++
            (readGroups (7 - (readGroups 8 true text).1.length) true rest').1,
            (readGroups (7 - (readGroups 8 true text).1.length) true rest').2.2)
        | _ => none) = none := by
    intro rest hrest
    split
    · simp at hrest
    · rfl
  have hfirst : readGroups 8 true text = ([], false, text) ∨
      ∃ group rest, readGroups 8 true text = ([group], false, rest) ∧ ':' ∉ rest := by
    unfold readGroups
    simp only [readSeparator, if_true, hquad, ite_self]
    cases hnum : readNumber 16 4 65536 true text with
    | none => exact Or.inl rfl
    | some result =>
      obtain ⟨group, rest⟩ := result
      have hrest : ':' ∉ rest := fun hmem =>
        h (mem_of_mem_readNumber 16 4 65536 true text rest group ':' hnum hmem)
      refine Or.inr ⟨group, rest, ?_, hrest⟩
      have hnext : readGroups 7 false rest = ([], false, rest) := by
        unfold readGroups
        simp [hsepQuad rest hrest, hsep _ rest hrest]
      simp [hnext]
  unfold readIpv6
  rcases hfirst with hgroups | ⟨group, rest, hgroups, hrest⟩
  · simp only [hgroups] at hstuck ⊢
    simpa using hstuck text h
  · simp only [hgroups] at hstuck ⊢
    simpa using hstuck rest hrest

/-- **The text of an address has a colon, or only digits and dots.** -/
theorem parse_chars (text : List Char) (ip : IpAddr) (h : parse text = some ip) :
    ':' ∈ text ∨ ∀ c ∈ text, isAsciiDigit c = true ∨ c = '.' := by
  unfold parse at h
  split at h
  · rename_i octets rest hquad
    split_ifs at h with hempty
    have hrest : rest = [] := List.isEmpty_iff.mp hempty
    refine Or.inr fun c hc => ?_
    rcases digit_or_mem_readOctets 4 true text rest octets hquad c hc with hd | hd | hd
    · exact Or.inl hd
    · exact Or.inr hd
    · simp [hrest] at hd
  · rename_i hquad
    by_contra hnot
    have hcolon : ':' ∉ text := fun hc => hnot (Or.inl hc)
    rw [readIpv6_eq_none text hquad hcolon] at h
    simp at h

end IpAddr

end VaultAccess.Library
