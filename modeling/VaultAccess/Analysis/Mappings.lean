import VaultAccess.Model.Elf

/-!
# What an admitted image maps

The check of an ELF image follows the file with offsets that the file gives. Every reader
below is shown to stay in the file, and what a loop has seen so far is what its invariant
says; the check as a whole then neither faults nor admits anything but `Admitted`.
-/

set_option autoImplicit false

namespace VaultAccess.Analysis.Mapping

open VaultAccess.Library VaultAccess.Library.Checked VaultAccess.Model VaultAccess.Model.Elf

/-! ## What the file says -/

/-- The number that a file holds at a place. -/
def fieldAt (width : ℕ) (b : List UInt8) (n : ℕ) : ℕ := Frames.unle ((b.drop n).take width)

def headerOf (b : List UInt8) : Header where
  phoff := fieldAt 8 b 32
  count := fieldAt 2 b 56
  shoff := fieldAt 8 b 40
  shnum := fieldAt 2 b 60
  entry := fieldAt 8 b 24

def sectionOf (b : List UInt8) (i : ℕ) : Section where
  kind := fieldAt 4 b ((headerOf b).shoff + i * 64 + 4)
  offset := fieldAt 8 b ((headerOf b).shoff + i * 64 + 24)
  size := fieldAt 8 b ((headerOf b).shoff + i * 64 + 32)
  align := fieldAt 8 b ((headerOf b).shoff + i * 64 + 48)
  entrySize := fieldAt 8 b ((headerOf b).shoff + i * 64 + 56)
  link := fieldAt 4 b ((headerOf b).shoff + i * 64 + 40)

def segmentOf (b : List UInt8) (i : ℕ) : Segment where
  kind := fieldAt 4 b ((headerOf b).phoff + i * 56)
  flags := fieldAt 4 b ((headerOf b).phoff + i * 56 + 4)
  offset := fieldAt 8 b ((headerOf b).phoff + i * 56 + 8)
  address := fieldAt 8 b ((headerOf b).phoff + i * 56 + 16)
  filesz := fieldAt 8 b ((headerOf b).phoff + i * 56 + 32)
  memsz := fieldAt 8 b ((headerOf b).phoff + i * 56 + 40)
  align := fieldAt 8 b ((headerOf b).phoff + i * 56 + 48)

/-- `PT_LOAD`. -/
def Loadable (s : Segment) : Prop := s.kind = 1

def Executable (s : Segment) : Prop := s.flags &&& 1 ≠ 0

def Writable (s : Segment) : Prop := s.flags &&& 2 ≠ 0

/-- The first byte of the pages of a segment. -/
def firstPage (pageSize : ℕ) (s : Segment) : ℕ := s.address / pageSize * pageSize

/-- The byte after the pages of a segment. -/
def pagesEnd (pageSize : ℕ) (s : Segment) : ℕ :=
  (s.address + s.memsz + pageSize - 1) / pageSize * pageSize

/-- The entry point is a byte that the file gives to an executable segment. -/
def HoldsEntry (entry : ℕ) (s : Segment) : Prop :=
  Loadable s ∧ Executable s ∧ s.address ≤ entry ∧ entry < s.address + s.filesz

/-- Where the userspace of an architecture ends, in the smallest supported layout. -/
def userspaceLimit (arch : TargetArch) (pageSize : ℕ) : ℕ :=
  match arch with
  | .x86_64 => 2 ^ 47 - pageSize
  | .aarch64 => 2 ^ 36
  | .other => 0

/-- What holds of an image that the check lets through. -/
structure Admitted (arch : TargetArch) (b : List UInt8) (pageSize : ℕ) : Prop where
  table : (headerOf b).phoff + (headerOf b).count * 56 ≤ b.length
  sectionTable : (headerOf b).shnum ≠ 0 → (headerOf b).shoff + (headerOf b).shnum * 64 ≤ b.length
  files : ∀ i < (headerOf b).count, (segmentOf b i).offset + (segmentOf b i).filesz ≤ b.length
  sectionFiles : ∀ i < (headerOf b).shnum, (sectionOf b i).kind ≠ 8 →
    (sectionOf b i).offset + (sectionOf b i).size ≤ b.length
  ascending : ∀ i j, i < j → j < (headerOf b).count →
    Loadable (segmentOf b i) → Loadable (segmentOf b j) →
    (segmentOf b i).address < (segmentOf b j).address ∧
      pagesEnd pageSize (segmentOf b i) ≤ firstPage pageSize (segmentOf b j)
  userspace : ∀ i < (headerOf b).count, Loadable (segmentOf b i) →
    pagesEnd pageSize (segmentOf b i) ≤ userspaceLimit arch pageSize
  notBoth : ∀ i < (headerOf b).count, Loadable (segmentOf b i) →
    ¬ (Writable (segmentOf b i) ∧ Executable (segmentOf b i))
  entry : ∃ i < (headerOf b).count, HoldsEntry (headerOf b).entry (segmentOf b i)
  noInterpreter : ∀ i < (headerOf b).count, (segmentOf b i).kind ≠ 2 ∧ (segmentOf b i).kind ≠ 3
  noStack : ∀ i < (headerOf b).count, (segmentOf b i).kind = 0x6474e551 →
    ¬ Executable (segmentOf b i)

/-! ## Reading numbers -/

theorem safe_reject (condition : Bool) : Safe (reject condition) fun _ => condition = false :=
  safe_refuseIf _ condition

/-- INTERNAL: a number inside the file is read without a fault. -/
theorem safe_numberAt {width n : ℕ} {b : List UInt8} (hfits : n + width < 2 ^ 64) (h : n + width ≤ b.length) :
    Safe (numberAt width b n) fun x => x = fieldAt width b n := by
  unfold numberAt
  apply Safe.bind (safe_add hfits)
  rintro stop rfl
  apply Safe.bind (safe_window (by omega) h)
  rintro part rfl
  apply Safe.value
  rw [fieldAt, Nat.add_sub_cancel_left]

theorem safe_u16At {n : ℕ} {b : List UInt8} (hfits : n + 8 < 2 ^ 64) (h : n + 2 ≤ b.length) :
    Safe (u16At b n) fun x => x = fieldAt 2 b n := safe_numberAt (by omega) h

theorem safe_u32At {n : ℕ} {b : List UInt8} (hfits : n + 8 < 2 ^ 64) (h : n + 4 ≤ b.length) :
    Safe (u32At b n) fun x => x = fieldAt 4 b n := safe_numberAt (by omega) h

theorem safe_u64At {n : ℕ} {b : List UInt8} (hfits : n + 8 < 2 ^ 64) (h : n + 8 ≤ b.length) :
    Safe (u64At b n) fun x => x = fieldAt 8 b n := safe_numberAt hfits h

theorem fieldAt_lt (width : ℕ) (b : List UInt8) (n : ℕ) : fieldAt width b n < 256 ^ width := by
  apply lt_of_lt_of_le (Frames.unle_lt _)
  apply Nat.pow_le_pow_right (by omega)
  rw [List.length_take]
  omega

/-! ## The header -/

/-- INTERNAL: a range that was not refused lies in the file. -/
theorem safe_within (b : List UInt8) (offset size : ℕ) :
    Safe (within b offset size) fun _ => offset + size < 2 ^ 64 ∧ offset + size ≤ b.length := by
  unfold within
  apply Safe.mono (safe_reject _)
  intro _ h
  exact checkedAdd_within h

/-- INTERNAL: a test of a value that was read without a fault. -/
theorem safe_test {α β : Type} {x : Check α} {P : α → Prop} {c : α → Bool} {rest : Check β} {Q : β → Prop}
    (hx : Safe x P) (hrest : Safe rest Q) : Safe (x >>= fun a => reject (c a) >>= fun _ => rest) Q := by
  apply Safe.bind hx
  intro a _
  apply Safe.bind (safe_reject _)
  intro _ _
  exact hrest

theorem safe_identification (machine : ℕ) (b : List UInt8) :
    Safe (identification machine b) fun _ => 64 ≤ b.length := by
  unfold identification
  apply Safe.bind (safe_reject _)
  intro _ hlength
  have hlong : 64 ≤ b.length := by simpa using hlength
  apply safe_test (safe_window (by omega) (by omega))
  apply safe_test (safe_index (by omega))
  apply safe_test (safe_index (by omega))
  apply safe_test (safe_index (by omega))
  apply safe_test (safe_index (by omega))
  apply safe_test (safe_index (by omega))
  apply safe_test (safe_window (by omega) (by omega))
  apply safe_test (safe_u16At (by omega) (by omega))
  apply safe_test (safe_u16At (by omega) (by omega))
  apply safe_test (safe_u32At (by omega) (by omega))
  apply safe_test (safe_u32At (by omega) (by omega))
  apply safe_test (safe_u16At (by omega) (by omega))
  apply Safe.bind (safe_u16At (by omega) (by omega))
  intro entrySize _
  apply Safe.mono (safe_reject _)
  intro _ _
  exact hlong

/-- What the header check establishes for the loops. -/
structure Tables (b : List UInt8) (h : Header) : Prop where
  segmentsFit : h.phoff + h.count * 56 < 2 ^ 64
  segmentsIn : h.phoff + h.count * 56 ≤ b.length
  sectionsIn : h.shnum ≠ 0 → h.shoff + h.shnum * 64 < 2 ^ 64 ∧ h.shoff + h.shnum * 64 ≤ b.length

theorem safe_sectionTable {b : List UInt8} {shoff shnum : ℕ} (hlong : 64 ≤ b.length) (hshnum : shnum < 2 ^ 16) :
    Safe (sectionTable b shoff shnum) fun _ =>
      shnum ≠ 0 → shoff + shnum * 64 < 2 ^ 64 ∧ shoff + shnum * 64 ≤ b.length := by
  unfold sectionTable
  split
  · apply Safe.bind (safe_reject _)
    intro _ hnone
    apply Safe.bind (safe_u16At (by omega) (by omega))
    intro names _
    apply Safe.mono (safe_reject _)
    intro _ _ hsome
    simp [hsome] at hnone
  · apply Safe.bind (safe_reject _)
    intro _ _
    apply safe_test (safe_u16At (by omega) (by omega))
    apply Safe.bind (safe_reject _)
    intro _ _
    apply Safe.bind (safe_mul (by omega))
    rintro size rfl
    apply Safe.bind (safe_within b shoff _)
    intro _ hwithin
    apply Safe.bind (safe_u16At (by omega) (by omega))
    intro names _
    apply Safe.mono (safe_reject _)
    intro _ _ _
    exact hwithin

theorem safe_header {b : List UInt8} (hlong : 64 ≤ b.length) :
    Safe (header b) fun h => h = headerOf b ∧ Tables b h := by
  unfold header
  apply Safe.bind (safe_u64At (by omega) (by omega))
  rintro phoff rfl
  apply Safe.bind (safe_u16At (by omega) (by omega))
  rintro count rfl
  have hcount := fieldAt_lt 2 b 56
  apply Safe.bind (safe_reject _)
  intro _ _
  apply Safe.bind (safe_mul (by omega))
  rintro size rfl
  apply Safe.bind (safe_within b _ _)
  intro _ hsegments
  apply Safe.bind (safe_u64At (by omega) (by omega))
  rintro shoff rfl
  apply Safe.bind (safe_u16At (by omega) (by omega))
  rintro shnum rfl
  apply Safe.bind (safe_sectionTable hlong (fieldAt_lt 2 b 60))
  intro _ hsections
  apply Safe.bind (safe_u64At (by omega) (by omega))
  rintro entry rfl
  apply Safe.value
  exact ⟨rfl, ⟨hsegments.1, hsegments.2, hsections⟩⟩

/-! ## The sections -/

/-- INTERNAL: a sum whose end fits is computed without a fault. -/
theorem safe_place {base i step count : ℕ} (hi : i < count) (hfits : base + count * step < 2 ^ 64)
    {α : Type} {f : ℕ → Check α} {P : α → Prop} (hf : base + i * step + step ≤ base + count * step →
      Safe (f (base + i * step)) P) :
    Safe (mul 64 i step >>= fun product => add 64 base product >>= f) P := by
  have hnext : i * step + step ≤ count * step := by
    calc
      i * step + step = (i + 1) * step := (Nat.succ_mul i step).symm
      _ ≤ count * step := Nat.mul_le_mul_right step hi
  apply Safe.bind (safe_mul (by omega))
  rintro product rfl
  apply Safe.bind (safe_add (by omega))
  rintro place rfl
  apply hf
  omega

/-- INTERNAL: a field of a record inside the file. -/
theorem safe_field {width base k : ℕ} {b : List UInt8} (hfits : base + k + width < 2 ^ 64)
    (h : base + k + width ≤ b.length) {α : Type} {f : ℕ → Check α} {P : α → Prop}
    (hf : Safe (f (fieldAt width b (base + k))) P) :
    Safe (add 64 base k >>= fun n => numberAt width b n >>= f) P := by
  apply Safe.bind (safe_add (by omega))
  rintro n rfl
  apply Safe.bind (safe_numberAt hfits h)
  rintro x rfl
  exact hf

theorem safe_sectionAt {b : List UInt8} {i : ℕ} (htables : Tables b (headerOf b)) (hi : i < (headerOf b).shnum) :
    Safe (sectionAt b (headerOf b) i) fun s => s = sectionOf b i := by
  obtain ⟨hfits, hin⟩ := htables.sectionsIn (by omega)
  unfold sectionAt
  apply safe_place hi hfits
  intro hnext
  apply safe_field (by omega) (by omega)
  apply safe_field (by omega) (by omega)
  apply safe_field (by omega) (by omega)
  apply safe_field (by omega) (by omega)
  apply safe_field (by omega) (by omega)
  apply safe_field (by omega) (by omega)
  apply Safe.value
  rfl

theorem safe_rangeOf (b : List UInt8) (s : Section) :
    Safe (rangeOf b s) fun _ => s.kind ≠ 8 → s.offset + s.size ≤ b.length := by
  unfold rangeOf
  split
  · next hkind =>
    apply Safe.value
    intro h
    exact absurd hkind h
  · apply Safe.mono (safe_within b _ _)
    intro _ hwithin _
    exact hwithin.2

theorem safe_wholeEntries (size entrySize : ℕ) : Safe (wholeEntries size entrySize) fun _ => True := by
  unfold wholeEntries
  split
  · apply Safe.value
    trivial
  · next h =>
    apply Safe.bind (safe_rem h)
    intro _ _
    apply Safe.mono (safe_reject _)
    intro _ _
    trivial

theorem safe_validSection (b : List UInt8) (h : Header) (s : Section) :
    Safe (validSection b h s) fun _ => s.kind ≠ 8 → s.offset + s.size ≤ b.length := by
  unfold validSection
  apply Safe.bind (safe_rangeOf b s)
  intro _ hrange
  apply Safe.bind (safe_reject _)
  intro _ _
  apply Safe.bind (safe_wholeEntries _ _)
  intro _ _
  apply Safe.mono (safe_reject _)
  intro _ _
  exact hrange

/-- INTERNAL: the loop over the sections, from the section `i` on. -/
theorem safe_sections {b : List UInt8} (htables : Tables b (headerOf b)) (remaining i : ℕ)
    (hcount : i + remaining = (headerOf b).shnum) :
    Safe (sections b (headerOf b) remaining i) fun _ => ∀ j, i ≤ j → j < (headerOf b).shnum →
      (sectionOf b j).kind ≠ 8 → (sectionOf b j).offset + (sectionOf b j).size ≤ b.length := by
  induction remaining generalizing i with
  | zero =>
    apply Safe.value
    intro j hij hj
    omega
  | succ remaining ih =>
    unfold sections
    apply Safe.bind (safe_sectionAt htables (by omega))
    rintro s rfl
    apply Safe.bind (safe_validSection b _ _)
    intro _ hhead
    apply Safe.mono (ih (i + 1) (by omega))
    intro _ hrest j hij hj
    rcases Nat.eq_or_lt_of_le hij with rfl | hlater
    · exact hhead
    · exact hrest j hlater hj

/-! ## The segments -/

theorem safe_segmentAt {b : List UInt8} {i : ℕ} (htables : Tables b (headerOf b)) (hi : i < (headerOf b).count) :
    Safe (segmentAt b (headerOf b) i) fun s => s = segmentOf b i := by
  have hin := htables.segmentsIn
  unfold segmentAt
  apply safe_place hi htables.segmentsFit
  intro hnext
  have hfits := htables.segmentsFit
  apply Safe.bind (safe_u32At (by omega) (by omega))
  rintro kind rfl
  apply safe_field (by omega) (by omega)
  apply safe_field (by omega) (by omega)
  apply safe_field (by omega) (by omega)
  apply safe_field (by omega) (by omega)
  apply safe_field (by omega) (by omega)
  apply safe_field (by omega) (by omega)
  apply Safe.value
  rfl

theorem safe_aligned (s : Segment) : Safe (aligned s) fun _ => True := by
  unfold aligned
  split
  · apply Safe.bind (safe_reject _)
    intro _ _
    apply Safe.bind (safe_rem (by omega))
    intro _ _
    apply Safe.bind (safe_rem (by omega))
    intro _ _
    apply Safe.mono (safe_reject _)
    intro _ _
    trivial
  · apply Safe.value
    trivial

/-- `EM_X86_64` or `EM_AARCH64`. -/
def Machine (arch : TargetArch) (machine : ℕ) : Prop := machineOf arch = .value machine

theorem safe_userspaceEnd {arch : TargetArch} {machine : ℕ} (pageSize : ℕ) (hmachine : Machine arch machine) :
    Safe (userspaceEnd machine pageSize) fun limit => limit = userspaceLimit arch pageSize := by
  cases arch with
  | x86_64 =>
    cases hmachine
    unfold userspaceEnd
    rw [if_pos rfl]
    split
    · rfl
    · trivial
  | aarch64 =>
    cases hmachine
    rfl
  | other => cases hmachine

section Pages

variable {arch : TargetArch} {machine k : ℕ}

theorem safe_checkedUserspaceMappingEnd (hmachine : Machine arch machine) (stop : ℕ) :
    Safe (checkedUserspaceMappingEnd machine (2 ^ k) stop) fun pageEnd =>
      pageEnd = (stop + 2 ^ k - 1) / 2 ^ k * 2 ^ k ∧ pageEnd ≤ userspaceLimit arch (2 ^ k) := by
  have hpage := Nat.two_pow_pos k
  unfold checkedUserspaceMappingEnd
  apply Safe.bind (safe_userspaceEnd _ hmachine)
  rintro limit rfl
  apply Safe.bind (safe_sub (by omega))
  rintro mask rfl
  apply Safe.bind (safe_okOr _ _)
  intro sum hsum
  obtain ⟨rfl, hfits⟩ := checkedAdd_eq_some.mp hsum
  apply Safe.bind (safe_reject _)
  intro _ hlimit
  apply Safe.value
  rw [Pages.clear_add_eq hfits] at hlimit ⊢
  exact ⟨rfl, by simpa using hlimit⟩

/-- What is known of a loadable segment that was let through. -/
structure Loaded (arch : TargetArch) (pageSize : ℕ) (s : Segment) : Prop where
  notBoth : ¬ (Writable s ∧ Executable s)
  memory : 0 < s.memsz
  file : s.filesz ≤ s.memsz
  fits : s.address + s.memsz < 2 ^ 64
  userspace : pagesEnd pageSize s ≤ userspaceLimit arch pageSize

/-- INTERNAL: two bits that are not both set. -/
theorem notBoth_of_and_three {n : ℕ} (h : n &&& 3 ≠ 3) : ¬ (n &&& 2 ≠ 0 ∧ n &&& 1 ≠ 0) := by
  rintro ⟨htwo, hone⟩
  have hthree : n &&& 3 = n % 4 := Nat.and_two_pow_sub_one_eq_mod n 2
  have hlow : n &&& 1 = n % 2 := Nat.and_one_is_mod n
  have hhigh : n &&& 2 = (n.testBit 1).toNat * 2 := Nat.and_two_pow n 1
  rw [Nat.testBit_eq_decide_div_mod_eq] at hhigh
  by_cases hbit : n / 2 ^ 1 % 2 = 1
  · omega
  · rw [decide_eq_false hbit] at hhigh
    exact htwo hhigh

theorem safe_pagesOf (hmachine : Machine arch machine) (s : Segment) :
    Safe (pagesOf machine (2 ^ k) s) fun pages =>
      Loaded arch (2 ^ k) s ∧ pages = (firstPage (2 ^ k) s, pagesEnd (2 ^ k) s) := by
  have hpage := Nat.two_pow_pos k
  unfold pagesOf
  apply Safe.bind (safe_reject _)
  intro _ hflags
  apply Safe.bind (safe_reject _)
  intro _ hsizes
  apply Safe.bind (safe_aligned s)
  intro _ _
  apply Safe.bind (safe_rem (by omega))
  intro _ _
  apply Safe.bind (safe_rem (by omega))
  intro _ _
  apply Safe.bind (safe_reject _)
  intro _ _
  simp only [Bool.or_eq_false_iff, decide_eq_false_iff_not] at hflags hsizes
  obtain ⟨⟨hfile, hmemory⟩, hsum⟩ := hsizes
  have hfits : s.address + s.memsz < 2 ^ 64 := by
    by_contra hpast
    rw [Checked.checkedAdd, if_neg hpast] at hsum
    cases hsum
  apply Safe.bind (safe_add hfits)
  rintro stop rfl
  apply Safe.bind (safe_sub (by omega))
  rintro mask rfl
  apply Safe.bind (safe_checkedUserspaceMappingEnd hmachine _)
  rintro pageEnd ⟨rfl, hlimit⟩
  apply Safe.value
  rw [Pages.clear_eq (by omega)]
  exact ⟨⟨notBoth_of_and_three hflags.2, by omega, by omega, hfits, hlimit⟩, rfl⟩

end Pages

/-- INTERNAL: the sum with the file size fits where the sum with the larger memory size does. -/
theorem safe_holdsEntry {s : Segment} (entry : ℕ) (hfits : s.address + s.filesz < 2 ^ 64) :
    Safe (holdsEntry entry s) fun found =>
      found = true → Executable s ∧ s.address ≤ entry ∧ entry < s.address + s.filesz := by
  unfold holdsEntry
  split
  · next h =>
    apply Safe.bind (safe_add hfits)
    rintro stop rfl
    apply Safe.value
    intro hbelow
    simp only [Bool.and_eq_true, decide_eq_true_eq] at h hbelow
    exact ⟨h.1, h.2, hbelow⟩
  · apply Safe.value
    intro h
    cases h

/-- What is known of a program header that was let through. -/
structure Passed (arch : TargetArch) (pageSize : ℕ) (b : List UInt8) (s : Segment) : Prop where
  file : s.offset + s.filesz ≤ b.length
  noInterpreter : s.kind ≠ 2 ∧ s.kind ≠ 3
  noStack : s.kind = 0x6474e551 → ¬ Executable s
  loaded : Loadable s → Loaded arch pageSize s

/-- One more segment after the loads before it. -/
structure Appended (pageSize entry : ℕ) (s : Segment) (loads : List (ℕ × ℕ)) (found : Bool)
    (next : List (ℕ × ℕ) × Bool) : Prop where
  skipped : ¬ Loadable s → next = (loads, found)
  listed : Loadable s → next.1 = loads ++ [(firstPage pageSize s, pagesEnd pageSize s)]
  disjoint : Loadable s → ∀ load ∈ loads, ¬ (firstPage pageSize s < load.2 ∧ load.1 < pagesEnd pageSize s)
  ascends : Loadable s → ∀ last, loads.getLast? = some last → last.1 < firstPage pageSize s
  found : next.2 = true → found = true ∨ HoldsEntry entry s

theorem safe_validSegment {arch : TargetArch} {machine k : ℕ} (hmachine : Machine arch machine) (b : List UInt8)
    (h : Header) (s : Segment) (loads : List (ℕ × ℕ)) (found : Bool) :
    Safe (validSegment machine (2 ^ k) b h s loads found) fun next =>
      Passed arch (2 ^ k) b s ∧ Appended (2 ^ k) h.entry s loads found next := by
  unfold validSegment
  apply Safe.bind (safe_reject _)
  intro _ hkind
  simp only [Bool.or_eq_false_iff, Bool.and_eq_false_iff, decide_eq_false_iff_not] at hkind
  have hstack : s.kind = 0x6474e551 → ¬ Executable s := by
    intro hstack
    rcases hkind.2 with hother | hflags
    · exact absurd hstack hother
    · simpa [Executable] using hflags
  apply Safe.bind (safe_within b _ _)
  intro _ hfile
  split
  · next hload =>
    apply Safe.bind (safe_pagesOf hmachine s)
    rintro pages ⟨hloaded, rfl⟩
    apply Safe.bind (safe_reject _)
    intro _ hdisjoint
    apply Safe.bind (safe_reject _)
    intro _ hlast
    apply Safe.bind (safe_holdsEntry _ (by have := hloaded.file; have := hloaded.fits; omega))
    intro holds hholds
    apply Safe.value
    constructor
    · exact ⟨hfile.2, hkind.1, hstack, fun _ => hloaded⟩
    · constructor
      · intro hother
        exact absurd hload hother
      · intro _
        rfl
      · intro _ load hmem hover
        have hnone := List.any_eq_false.mp hdisjoint load hmem
        simp [hover.1, hover.2] at hnone
      · intro _ last hsome
        rw [hsome] at hlast
        simpa using hlast
      · intro hnext
        rcases Bool.or_eq_true_iff.mp hnext with hbefore | hhere
        · exact .inl hbefore
        · exact .inr ⟨hload, hholds hhere⟩
  · next hload =>
    apply Safe.value
    constructor
    · exact ⟨hfile.2, hkind.1, hstack, fun h => absurd h hload⟩
    · exact ⟨fun _ => rfl, fun h => absurd h hload, fun h => absurd h hload, fun h => absurd h hload, .inl⟩

/-- **What the loop knows** after the segments before `i`. -/
structure Seen (arch : TargetArch) (pageSize : ℕ) (b : List UInt8) (i : ℕ) (loads : List (ℕ × ℕ))
    (found : Bool) : Prop where
  passed : ∀ j < i, Passed arch pageSize b (segmentOf b j)
  listed : ∀ j < i, Loadable (segmentOf b j) →
    (firstPage pageSize (segmentOf b j), pagesEnd pageSize (segmentOf b j)) ∈ loads
  last : ∀ load ∈ loads, ∃ top, loads.getLast? = some top ∧ load.1 ≤ top.1
  ascending : ∀ i' j, i' < j → j < i → Loadable (segmentOf b i') → Loadable (segmentOf b j) →
    pagesEnd pageSize (segmentOf b i') ≤ firstPage pageSize (segmentOf b j)
  entry : found = true → ∃ j < i, HoldsEntry (headerOf b).entry (segmentOf b j)

theorem firstPage_le (pageSize : ℕ) (s : Segment) : firstPage pageSize s ≤ s.address :=
  Nat.div_mul_le_self _ _

theorem le_pagesEnd {pageSize : ℕ} (hpage : 0 < pageSize) (s : Segment) :
    s.address + s.memsz ≤ pagesEnd pageSize s := by
  have h := Nat.lt_div_mul_add (a := s.address + s.memsz + pageSize - 1) hpage
  unfold pagesEnd
  omega

section Loop

variable {arch : TargetArch} {machine k : ℕ} {b : List UInt8} {i : ℕ} {loads : List (ℕ × ℕ)} {found : Bool}
  {next : List (ℕ × ℕ) × Bool}

theorem Seen.start : Seen arch (2 ^ k) b 0 [] false where
  passed j hj := absurd hj (Nat.not_lt_zero j)
  listed j hj := absurd hj (Nat.not_lt_zero j)
  last _ hmem := absurd hmem List.not_mem_nil
  ascending _ j _ hj := absurd hj (Nat.not_lt_zero j)
  entry h := Bool.noConfusion h

/-- INTERNAL: an appended segment starts above every load and so, being disjoint from it, past its end. -/
theorem Seen.above (hseen : Seen arch (2 ^ k) b i loads found) {s : Segment} (hload : Loadable s)
    (hpassed : Passed arch (2 ^ k) b s) (hnext : Appended (2 ^ k) (headerOf b).entry s loads found next) :
    ∀ load ∈ loads, load.1 < firstPage (2 ^ k) s ∧ load.2 ≤ firstPage (2 ^ k) s := by
  intro load hmem
  obtain ⟨top, htop, hle⟩ := hseen.last load hmem
  have hstart := hnext.ascends hload top htop
  have hmemory := (hpassed.loaded hload).memory
  have hlow := firstPage_le (2 ^ k) s
  have hhigh := le_pagesEnd (Nat.two_pow_pos k) s
  have hdisjoint := hnext.disjoint hload load hmem
  constructor
  · omega
  · by_contra hover
    apply hdisjoint
    omega

/-- **One more program header keeps what the loop knows.** -/
theorem Seen.step (hseen : Seen arch (2 ^ k) b i loads found) (hpassed : Passed arch (2 ^ k) b (segmentOf b i))
    (hnext : Appended (2 ^ k) (headerOf b).entry (segmentOf b i) loads found next) :
    Seen arch (2 ^ k) b (i + 1) next.1 next.2 := by
  have hpassedAll : ∀ j < i + 1, Passed arch (2 ^ k) b (segmentOf b j) := by
    intro j hj
    rcases Nat.lt_succ_iff_lt_or_eq.mp hj with hbefore | rfl
    · exact hseen.passed j hbefore
    · exact hpassed
  have hentry : next.2 = true → ∃ j < i + 1, HoldsEntry (headerOf b).entry (segmentOf b j) := by
    intro h
    rcases hnext.found h with hbefore | hhere
    · obtain ⟨j, hj, hholds⟩ := hseen.entry hbefore
      exact ⟨j, by omega, hholds⟩
    · exact ⟨i, by omega, hhere⟩
  by_cases hload : Loadable (segmentOf b i)
  · have habove := hseen.above hload hpassed hnext
    have hlisted := hnext.listed hload
    refine ⟨hpassedAll, ?_, ?_, ?_, hentry⟩
    · intro j hj hloadable
      rw [hlisted]
      rcases Nat.lt_succ_iff_lt_or_eq.mp hj with hbefore | rfl
      · exact List.mem_append_left _ (hseen.listed j hbefore hloadable)
      · exact List.mem_append_right _ (List.mem_singleton_self _)
    · intro load hmem
      rw [hlisted] at hmem ⊢
      refine ⟨_, List.getLast?_concat, ?_⟩
      rcases List.mem_append.mp hmem with hbefore | hlast
      · exact (habove load hbefore).1.le
      · rw [List.mem_singleton.mp hlast]
    · intro i' j hij hj hfirst hsecond
      rcases Nat.lt_succ_iff_lt_or_eq.mp hj with hbefore | rfl
      · exact hseen.ascending i' j hij hbefore hfirst hsecond
      · exact (habove _ (hseen.listed i' hij hfirst)).2
  · have hsame := hnext.skipped hload
    refine ⟨hpassedAll, ?_, ?_, ?_, hentry⟩
    · intro j hj hloadable
      rw [hsame]
      rcases Nat.lt_succ_iff_lt_or_eq.mp hj with hbefore | rfl
      · exact hseen.listed j hbefore hloadable
      · exact absurd hloadable hload
    · rw [hsame]
      exact hseen.last
    · intro i' j hij hj hfirst hsecond
      rcases Nat.lt_succ_iff_lt_or_eq.mp hj with hbefore | rfl
      · exact hseen.ascending i' j hij hbefore hfirst hsecond
      · exact absurd hsecond hload

/-- INTERNAL: the loop over the program headers, from the header `i` on. -/
theorem safe_segments (hmachine : Machine arch machine) (htables : Tables b (headerOf b)) (remaining : ℕ)
    (hcount : i + remaining = (headerOf b).count) (hseen : Seen arch (2 ^ k) b i loads found) :
    Safe (segments machine (2 ^ k) b (headerOf b) remaining i loads found) fun entryFound =>
      ∃ loads, Seen arch (2 ^ k) b (headerOf b).count loads entryFound := by
  induction remaining generalizing i loads found with
  | zero =>
    apply Safe.value
    rw [← hcount]
    exact ⟨loads, hseen⟩
  | succ remaining ih =>
    unfold segments
    apply Safe.bind (safe_segmentAt htables (by omega))
    rintro s rfl
    apply Safe.bind (safe_validSegment hmachine b _ _ loads found)
    rintro next ⟨hpassed, hnext⟩
    exact ih (by omega) (hseen.step hpassed hnext)

end Loop

/-! ## The whole check -/

theorem safe_machineOf (arch : TargetArch) : Safe (machineOf arch) (Machine arch) := by
  cases arch with
  | x86_64 => rfl
  | aarch64 => rfl
  | other => trivial

/-- INTERNAL: what the loops know is what is promised. -/
theorem admitted_of_seen {arch : TargetArch} {k : ℕ} {b : List UInt8} {loads : List (ℕ × ℕ)}
    (htables : Tables b (headerOf b))
    (hsections : ∀ j < (headerOf b).shnum, (sectionOf b j).kind ≠ 8 →
      (sectionOf b j).offset + (sectionOf b j).size ≤ b.length)
    (hseen : Seen arch (2 ^ k) b (headerOf b).count loads true) : Admitted arch b (2 ^ k) where
  table := htables.segmentsIn
  sectionTable h := (htables.sectionsIn h).2
  files i hi := (hseen.passed i hi).file
  sectionFiles := hsections
  ascending i j hij hj hfirst hsecond := by
    have hpages := hseen.ascending i j hij hj hfirst hsecond
    have hmemory := ((hseen.passed i (by omega)).loaded hfirst).memory
    have hhigh := le_pagesEnd (Nat.two_pow_pos k) (segmentOf b i)
    have hlow := firstPage_le (2 ^ k) (segmentOf b j)
    exact ⟨by omega, hpages⟩
  userspace i hi h := ((hseen.passed i hi).loaded h).userspace
  notBoth i hi h := ((hseen.passed i hi).loaded h).notBoth
  entry := hseen.entry rfl
  noInterpreter i hi := (hseen.passed i hi).noInterpreter
  noStack i hi := (hseen.passed i hi).noStack

/-- **The check of an image never faults, and an image that it lets through is mapped as
reviewed**: inside the file, at ascending pages of the userspace, no loadable segment both
writable and executable, the entry point in the file's part of an executable one. -/
theorem validate_elf_admitted (arch : TargetArch) (b : List UInt8) (pageSize : UInt64) :
    Safe (validateElfForPageSize arch b pageSize) fun _ => Admitted arch b pageSize.toNat := by
  unfold validateElfForPageSize
  apply Safe.bind (safe_refuseIf _ _)
  intro _ hpage
  simp only [Bool.or_eq_false_iff, decide_eq_false_iff_not, Bool.not_eq_false', decide_eq_true_eq] at hpage
  obtain ⟨k, hk⟩ := hpage.2
  rw [hk]
  apply Safe.bind (safe_machineOf arch)
  intro machine hmachine
  apply Safe.bind (safe_identification machine b)
  intro _ hlong
  apply Safe.bind (safe_header hlong)
  rintro h ⟨rfl, htables⟩
  apply Safe.bind (safe_sections htables _ 0 (by omega))
  intro _ hsections
  apply Safe.bind (safe_segments hmachine htables _ (by omega) Seen.start)
  rintro entryFound ⟨loads, hseen⟩
  apply Safe.mono (safe_reject _)
  intro _ hfound
  rw [Bool.not_eq_false'] at hfound
  rw [hfound] at hseen
  exact admitted_of_seen htables (fun j => hsections j (by omega)) hseen

/-- A loadable segment with code, and a note whose header says that it is writable and executable. -/
def noteImage : List UInt8 :=
  [0x7f, 0x45, 0x4c, 0x46, 2, 1, 1, 0] ++ Frames.le 8 0 ++
  Frames.le 2 2 ++ Frames.le 2 62 ++ Frames.le 4 1 ++ Frames.le 8 0x400000 ++ Frames.le 8 64 ++ Frames.le 8 0 ++
  Frames.le 4 0 ++ Frames.le 2 64 ++ Frames.le 2 56 ++ Frames.le 2 2 ++ Frames.le 2 0 ++ Frames.le 2 0 ++
  Frames.le 2 0 ++
  Frames.le 4 1 ++ Frames.le 4 5 ++ Frames.le 8 0 ++ Frames.le 8 0x400000 ++ Frames.le 8 0 ++
  Frames.le 8 176 ++ Frames.le 8 176 ++ Frames.le 8 4096 ++
  Frames.le 4 4 ++ Frames.le 4 3 ++ Frames.le 8 0 ++ Frames.le 8 0 ++ Frames.le 8 0 ++
  Frames.le 8 0 ++ Frames.le 8 0 ++ Frames.le 8 0

/-- The limit on flags is a limit on loadable segments: a header of another kind may be both. -/
theorem note_admitted : validateElfForPageSize .x86_64 noteImage 4096 = .value () ∧
    1 < (headerOf noteImage).count ∧ Writable (segmentOf noteImage 1) ∧ Executable (segmentOf noteImage 1) := by
  refine ⟨?_, ?_, ?_, ?_⟩
  · decide +kernel
  · decide +kernel
  · unfold Writable; decide +kernel
  · unfold Executable; decide +kernel

end VaultAccess.Analysis.Mapping
