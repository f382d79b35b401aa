import VaultAccess.Model.MachO

/-!
# What a reviewed Mach-O image contains

The load commands of a slice are followed by their own sizes, and the slices of a universal
file by the offsets of its table. The readers stay in the file whatever these numbers are,
and what the loops have passed is kept by `Walked` and by `Spread`.
-/

set_option autoImplicit false

namespace VaultAccess.Analysis.Slices

open VaultAccess.Library VaultAccess.Library.Checked VaultAccess.Model VaultAccess.Model.MachO

/-! ## What the file says -/

/-- The little-endian word at a place. -/
def wordAt (b : List UInt8) (n : ℕ) : ℕ := Frames.unle ((b.drop n).take 4)

/-- The big-endian number at a place. -/
def bigAt (width : ℕ) (b : List UInt8) (n : ℕ) : ℕ := Frames.unle ((b.drop n).take width).reverse

/-- The commands at these places follow each other from `p` to `stop`. -/
def Tiles (b : List UInt8) : ℕ → List ℕ → ℕ → Prop
  | p, [], stop => p = stop
  | p, place :: rest, stop => place = p ∧ 8 ≤ wordAt b (p + 4) ∧ Tiles b (p + wordAt b (p + 4)) rest stop

/-- The text of a command, which a zero byte inside the command ends. -/
structure Names (b : List UInt8) (p : ℕ) (text : List UInt8) : Prop where
  plain : 0 ∉ text
  inside : wordAt b (p + 8) + text.length < wordAt b (p + 4)
  held : (b.drop (p + wordAt b (p + 8))).take (text.length + 1) = text ++ [0]

/-- A library of the system, by a path without dot components. -/
structure SystemLibrary (cache : String → Bool) (b : List UInt8) (p : ℕ) (name : String) : Prop where
  named : Names b p (Text.bytes name)
  root : "/usr/lib/".toList <+: name.toList ∨ "/System/Library/Frameworks/".toList <+: name.toList
  plain : ∀ part ∈ Text.split '/' name.toList, part ≠ ['.'] ∧ part ≠ ['.', '.']
  cached : cache name = true

/-- A code signature after the commands and inside the slice. -/
structure SignatureAfter (b : List UInt8) (stop p : ℕ) : Prop where
  size : wordAt b (p + 4) = 16
  filled : wordAt b (p + 12) ≠ 0
  after : stop ≤ wordAt b (p + 8)
  inside : wordAt b (p + 8) + wordAt b (p + 12) ≤ b.length

/-- The places whose command is of a kind. -/
def ofKind (b : List UInt8) (kind : ℕ) (places : List ℕ) : List ℕ :=
  places.filter fun p => wordAt b p = kind

/-- The commands of a slice that was let through. -/
structure Commands (cache : String → Bool) (b : List UInt8) (stop : ℕ) (places : List ℕ) : Prop where
  tiled : Tiles b 32 places stop
  allowed : ∀ p ∈ places, wordAt b p ∈ dylibCommands ∨ wordAt b p = 0xe ∨ wordAt b p = 0x1d ∨
    wordAt b p ∈ knownCommands
  libraries : ∀ p ∈ places, wordAt b p ∈ dylibCommands → ∃ name, SystemLibrary cache b p name
  loader : ∃ p, ofKind b 0xe places = [p] ∧ Names b p (Text.bytes "/usr/lib/dyld")
  signature : ∃ p, ofKind b 0x1d places = [p] ∧ SignatureAfter b stop p

/-- A slice that was let through. -/
structure Reviewed (cache : String → Bool) (b : List UInt8) : Prop where
  magic : wordAt b 0 = 0xfeedfacf
  arm64 : wordAt b 4 = 0x0100000c
  executable : wordAt b 12 = 2
  inside : 32 + wordAt b 20 ≤ b.length
  commands : ∃ places, places.length = wordAt b 16 ∧ Commands cache b (32 + wordAt b 20) places

/-! ## Readers -/

theorem safe_reject (condition : Bool) : Safe (reject condition) fun _ => condition = false :=
  safe_refuseIf _ condition

/-- INTERNAL: bytes that were read are in the file. -/
theorem safe_bytesAt {width n : ℕ} (b : List UInt8) (hfits : n + width < 2 ^ 64) :
    Safe (bytesAt width b n) fun part => part = (b.drop n).take width ∧ n + width ≤ b.length := by
  unfold bytesAt
  apply Safe.bind (safe_add hfits)
  rintro stop rfl
  apply Safe.mono (safe_okOr _ _)
  intro part hpart
  unfold Frames.slice at hpart
  split at hpart
  · next hinside =>
    cases hpart
    rw [Nat.add_sub_cancel_left]
    exact ⟨rfl, hinside.2⟩
  · cases hpart

theorem safe_word {b : List UInt8} {n : ℕ} (hfits : n + 4 < 2 ^ 64) :
    Safe (word b n) fun x => x = wordAt b n ∧ n + 4 ≤ b.length := by
  unfold word
  apply Safe.bind (safe_bytesAt b hfits)
  rintro part ⟨rfl, hinside⟩
  exact Safe.value ⟨rfl, hinside⟩

theorem safe_big {b : List UInt8} {n : ℕ} (hfits : n + 4 < 2 ^ 64) :
    Safe (big b n) fun x => x = bigAt 4 b n ∧ n + 4 ≤ b.length := by
  unfold big
  apply Safe.bind (safe_bytesAt b hfits)
  rintro part ⟨rfl, hinside⟩
  exact Safe.value ⟨rfl, hinside⟩

theorem safe_big64 {b : List UInt8} {n : ℕ} (hfits : n + 8 < 2 ^ 64) :
    Safe (big64 b n) fun x => x = bigAt 8 b n ∧ n + 8 ≤ b.length := by
  unfold big64
  apply Safe.bind (safe_bytesAt b hfits)
  rintro part ⟨rfl, hinside⟩
  exact Safe.value ⟨rfl, hinside⟩

/-- INTERNAL: bytes that are the encoding of a text are its bytes. -/
theorem bytes_of_fromUtf8 {value : List UInt8} {name : String} (h : fromUtf8 value = some name) :
    Text.bytes name = value := by
  unfold fromUtf8 String.fromUTF8? at h
  split at h
  · next hvalid =>
    cases h
    have hencode : (String.fromUTF8 _ hvalid).toList.utf8Encode = ⟨value.toArray⟩ := by
      rw [← String.toByteArray_ofList, String.ofList_toList]
      rfl
    unfold List.utf8Encode at hencode
    have hdata := congrArg ByteArray.data hencode
    rw [List.data_toByteArray] at hdata
    exact congrArg Array.toList hdata
  · cases h

/-! ## Texts of commands -/

/-- INTERNAL: what is before the first zero byte. -/
theorem safe_terminated (value : List UInt8) :
    Safe (terminated value) fun text => 0 ∉ text ∧ text ++ [0] <+: value := by
  unfold terminated
  apply Safe.bind (safe_okOr _ _)
  intro n hn
  obtain ⟨hlt, hzero, hbefore⟩ := List.findIdx?_eq_some_iff_getElem.mp hn
  apply Safe.mono (safe_window (Nat.zero_le n) hlt.le)
  rintro text rfl
  rw [List.drop_zero, Nat.sub_zero]
  constructor
  · intro hmem
    obtain ⟨i, hi, hget⟩ := List.mem_take_iff_getElem.mp hmem
    have hi' : i < n := by omega
    have hnot := hbefore i hi'
    rw [hget] at hnot
    simp at hnot
  · have hlast : value[n] = 0 := by simpa using hzero
    rw [← hlast, List.take_append_getElem]
    exact List.take_prefix _ _

/-- INTERNAL: what a command holds from an offset that is inside it. -/
theorem safe_tail {b : List UInt8} {p offset size : ℕ} (hoffset : offset < size) (hinside : p + size ≤ b.length)
    (hlong : b.length < 2 ^ 63) :
    Safe (tail b p offset size) fun value => value = (b.drop (p + offset)).take (size - offset) := by
  unfold tail
  apply Safe.bind (safe_add (by omega))
  rintro start rfl
  apply Safe.bind (safe_add (by omega))
  rintro stop rfl
  apply Safe.mono (safe_window (by omega) hinside)
  rintro value rfl
  rw [Nat.add_sub_add_left]

/-- INTERNAL: a text that ends before the command does. -/
theorem names_of_isPrefix {b : List UInt8} {p : ℕ} {text : List UInt8} (hplain : 0 ∉ text)
    (h : text ++ [0] <+: (b.drop (p + wordAt b (p + 8))).take (wordAt b (p + 4) - wordAt b (p + 8))) :
    Names b p text := by
  have hlength : text.length + 1 ≤ wordAt b (p + 4) - wordAt b (p + 8) := by
    have hle := h.length_le
    rw [List.length_append, List.length_singleton, List.length_take] at hle
    omega
  have htake := List.prefix_iff_eq_take.mp h
  rw [List.length_append, List.length_singleton, List.take_take, Nat.min_eq_left hlength] at htake
  exact ⟨hplain, by omega, htake.symm⟩

section Commands

variable {cache : String → Bool} {b : List UInt8} {stop : ℕ} {s : Progress}

theorem allowedPath_iff (name : String) : allowedPath name = true ↔
    ("/usr/lib/".toList <+: name.toList ∨ "/System/Library/Frameworks/".toList <+: name.toList) ∧
      ∀ part ∈ Text.split '/' name.toList, part ≠ ['.'] ∧ part ≠ ['.', '.'] := by
  simp only [allowedPath, Bool.and_eq_true, Bool.or_eq_true, List.isPrefixOf_iff_prefix, Bool.not_eq_true',
    List.any_eq_false, decide_eq_true_eq, not_or]

theorem safe_dylibCommand {p : ℕ} (hinside : p + wordAt b (p + 4) ≤ b.length) (hlong : b.length < 2 ^ 63) :
    Safe (dylibCommand cache b p (wordAt b (p + 4))) fun _ => ∃ name, SystemLibrary cache b p name := by
  unfold dylibCommand
  apply Safe.bind (safe_add (by omega))
  rintro place rfl
  apply Safe.bind (safe_word (by omega))
  rintro offset ⟨rfl, _⟩
  apply Safe.bind (safe_reject _)
  intro _ hoffset
  simp only [Bool.or_eq_false_iff, decide_eq_false_iff_not, not_le] at hoffset
  apply Safe.bind (safe_tail hoffset.2 hinside hlong)
  rintro value rfl
  apply Safe.bind (safe_terminated _)
  intro text ⟨hplain, hstart⟩
  apply Safe.bind (safe_okOr _ _)
  intro name hname
  apply Safe.bind (safe_reject _)
  intro _ hallowed
  apply Safe.bind (safe_reject _)
  intro _ _
  apply Safe.mono (safe_reject _)
  intro _ hcached
  rw [Bool.not_eq_false'] at hallowed hcached
  obtain ⟨hroot, hparts⟩ := (allowedPath_iff name).mp hallowed
  refine ⟨name, ?_, hroot, hparts, hcached⟩
  rw [bytes_of_fromUtf8 hname]
  exact names_of_isPrefix hplain hstart

theorem safe_loaderCommand {p : ℕ} (loader : Bool) (hinside : p + wordAt b (p + 4) ≤ b.length)
    (hlong : b.length < 2 ^ 63) :
    Safe (loaderCommand b p (wordAt b (p + 4)) loader) fun _ =>
      loader = false ∧ Names b p (Text.bytes "/usr/lib/dyld") := by
  unfold loaderCommand
  apply Safe.bind (safe_add (by omega))
  rintro place rfl
  apply Safe.bind (safe_word (by omega))
  rintro offset ⟨rfl, _⟩
  apply Safe.bind (safe_reject _)
  intro _ hoffset
  simp only [Bool.or_eq_false_iff, decide_eq_false_iff_not, not_le] at hoffset
  apply Safe.bind (safe_tail hoffset.2 hinside hlong)
  rintro value rfl
  apply Safe.bind (safe_terminated _)
  intro text ⟨hplain, hstart⟩
  apply Safe.mono (safe_reject _)
  intro _ htext
  have htext : text = Text.bytes "/usr/lib/dyld" := by simpa using htext
  rw [htext] at hplain hstart
  exact ⟨hoffset.1.1, names_of_isPrefix hplain hstart⟩

theorem safe_signatureCommand {p : ℕ} (signed : Bool) (hinside : p + wordAt b (p + 4) ≤ b.length)
    (hlong : b.length < 2 ^ 63) :
    Safe (signatureCommand b stop p (wordAt b (p + 4)) signed) fun _ =>
      signed = false ∧ SignatureAfter b stop p := by
  unfold signatureCommand
  apply Safe.bind (safe_reject _)
  intro _ hsize
  simp only [Bool.or_eq_false_iff, decide_eq_false_iff_not, not_not] at hsize
  apply Safe.bind (safe_add (by omega))
  rintro place rfl
  apply Safe.bind (safe_word (by omega))
  rintro length ⟨rfl, _⟩
  apply Safe.bind (safe_reject _)
  intro _ hfilled
  apply Safe.bind (safe_add (by omega))
  rintro place rfl
  apply Safe.bind (safe_word (by omega))
  rintro start ⟨rfl, _⟩
  apply Safe.bind (safe_reject _)
  intro _ hafter
  apply Safe.mono (safe_reject _)
  intro _ hend
  exact ⟨hsize.1, hsize.2, by simpa using hfilled, by simpa using hafter, (checkedAdd_within hend).2⟩

/-- What one command shows, and what it adds to the progress. -/
inductive Ran (cache : String → Bool) (b : List UInt8) (stop : ℕ) (s : Progress) : Progress → Prop
  | library (name : String) (hkind : wordAt b s.p ∈ dylibCommands) (h : SystemLibrary cache b s.p name) :
      Ran cache b stop s s
  | loader (hkind : wordAt b s.p = 0xe) (hfirst : s.loader = false)
      (h : Names b s.p (Text.bytes "/usr/lib/dyld")) : Ran cache b stop s { s with loader := true }
  | signature (hkind : wordAt b s.p = 0x1d) (hfirst : s.signed = false) (h : SignatureAfter b stop s.p) :
      Ran cache b stop s { s with signed := true }
  | known (hkind : wordAt b s.p ∈ knownCommands) : Ran cache b stop s s

theorem safe_dispatch (hinside : s.p + wordAt b (s.p + 4) ≤ b.length) (hlong : b.length < 2 ^ 63) :
    Safe (dispatch cache b stop (wordAt b s.p) (wordAt b (s.p + 4)) s) (Ran cache b stop s) := by
  unfold dispatch
  split
  · next hkind =>
    apply Safe.bind (safe_dylibCommand hinside hlong)
    rintro _ ⟨name, hname⟩
    exact Safe.value (.library name (List.contains_iff_mem.mp hkind) hname)
  · split
    · next hkind =>
      apply Safe.bind (safe_loaderCommand s.loader hinside hlong)
      rintro _ ⟨hfirst, hnames⟩
      exact Safe.value (.loader hkind hfirst hnames)
    · split
      · next hkind =>
        apply Safe.bind (safe_signatureCommand s.signed hinside hlong)
        rintro _ ⟨hfirst, hsignature⟩
        exact Safe.value (.signature hkind hfirst hsignature)
      · apply Safe.bind (safe_reject _)
        intro _ hknown
        rw [Bool.not_eq_false'] at hknown
        exact Safe.value (.known (List.contains_iff_mem.mp hknown))

/-- INTERNAL: one command is at least eight bytes and ends inside the commands. -/
theorem safe_command (hplace : s.p ≤ stop) (hstop : stop ≤ b.length) (hlong : b.length < 2 ^ 63) :
    Safe (command cache b stop s) fun next => 8 ≤ wordAt b (s.p + 4) ∧ s.p + wordAt b (s.p + 4) ≤ stop ∧
      ∃ s', Ran cache b stop s s' ∧ next = { s' with p := s.p + wordAt b (s.p + 4) } := by
  unfold command
  apply Safe.bind (safe_word (by omega))
  rintro cmd ⟨rfl, _⟩
  apply Safe.bind (safe_add (by omega))
  rintro place rfl
  apply Safe.bind (safe_word (by omega))
  rintro size ⟨rfl, _⟩
  apply Safe.bind (safe_reject _)
  intro _ hsize
  simp only [Bool.or_eq_false_iff, decide_eq_false_iff_not, not_lt] at hsize
  apply Safe.bind (safe_reject _)
  intro _ hend
  have hwithin := (checkedAdd_within hend).2
  apply Safe.bind (safe_dispatch (by omega) hlong)
  intro s' hran
  have hp : s'.p = s.p := by cases hran <;> rfl
  apply Safe.bind (safe_add (by omega))
  rintro p rfl
  apply Safe.value
  rw [hp]
  exact ⟨hsize.1, hwithin, s', hran, rfl⟩

/-! ## The loop over the commands -/

/-- INTERNAL: one more command at the end. -/
theorem Tiles.concat {places : List ℕ} {p q : ℕ} (h : Tiles b p places q) (hsize : 8 ≤ wordAt b (q + 4)) :
    Tiles b p (places ++ [q]) (q + wordAt b (q + 4)) := by
  induction places generalizing p with
  | nil =>
    cases h
    exact ⟨rfl, hsize, rfl⟩
  | cons place rest ih =>
    obtain ⟨hplace, hfirst, hrest⟩ := h
    exact ⟨hplace, hfirst, ih hrest⟩

theorem ofKind_concat (kind : ℕ) (places : List ℕ) (p : ℕ) :
    ofKind b kind (places ++ [p]) = ofKind b kind places ++ if wordAt b p = kind then [p] else [] := by
  unfold ofKind
  rw [List.filter_append]
  by_cases h : wordAt b p = kind <;> simp [h]

/-- A command that may be there once: what was seen of it. -/
def Once (b : List UInt8) (kind : ℕ) (places : List ℕ) (seen : Bool) (P : ℕ → Prop) : Prop :=
  if seen then ∃ p, ofKind b kind places = [p] ∧ P p else ofKind b kind places = []

theorem Once.other {kind : ℕ} {places : List ℕ} {seen : Bool} {P : ℕ → Prop} {p : ℕ}
    (h : Once b kind places seen P) (hkind : wordAt b p ≠ kind) : Once b kind (places ++ [p]) seen P := by
  unfold Once at h ⊢
  rw [ofKind_concat, if_neg hkind, List.append_nil]
  exact h

/-- INTERNAL: the first command of the kind. -/
theorem Once.first {kind : ℕ} {places : List ℕ} {P : ℕ → Prop} {p : ℕ}
    (h : Once b kind places false P) (hkind : wordAt b p = kind) (hp : P p) : Once b kind (places ++ [p]) true P := by
  refine ⟨p, ?_, hp⟩
  rw [ofKind_concat, if_pos hkind]
  have hnone : ofKind b kind places = [] := h
  rw [hnone, List.nil_append]

/-- **What the loop has passed**, at these places. -/
structure Walked (cache : String → Bool) (b : List UInt8) (stop : ℕ) (s : Progress) (places : List ℕ) : Prop where
  within : s.p ≤ stop
  tiled : Tiles b 32 places s.p
  allowed : ∀ p ∈ places, wordAt b p ∈ dylibCommands ∨ wordAt b p = 0xe ∨ wordAt b p = 0x1d ∨
    wordAt b p ∈ knownCommands
  libraries : ∀ p ∈ places, wordAt b p ∈ dylibCommands → ∃ name, SystemLibrary cache b p name
  loader : Once b 0xe places s.loader fun p => Names b p (Text.bytes "/usr/lib/dyld")
  signature : Once b 0x1d places s.signed (SignatureAfter b stop)

theorem Walked.start (h : 32 ≤ stop) : Walked cache b stop { p := 32, signed := false, loader := false } [] where
  within := h
  tiled := rfl
  allowed _ hp := absurd hp List.not_mem_nil
  libraries _ hp := absurd hp List.not_mem_nil
  loader := rfl
  signature := rfl

theorem kinds_apart {kind : ℕ} (h : kind ∈ dylibCommands ∨ kind ∈ knownCommands) : kind ≠ 0xe ∧ kind ≠ 0x1d := by
  constructor <;> (rintro rfl; revert h; decide)

theorem known_not_dylib {kind : ℕ} (h : kind ∈ knownCommands) : kind ∉ dylibCommands := by
  revert h
  unfold knownCommands dylibCommands
  simp only [List.mem_cons, List.not_mem_nil, or_false]
  omega

/-- **One more command keeps what the loop has passed.** -/
theorem Walked.step {places : List ℕ} {s' : Progress} (h : Walked cache b stop s places)
    (hsize : 8 ≤ wordAt b (s.p + 4)) (hend : s.p + wordAt b (s.p + 4) ≤ stop) (hran : Ran cache b stop s s') :
    Walked cache b stop { s' with p := s.p + wordAt b (s.p + 4) } (places ++ [s.p]) := by
  have htiled := h.tiled.concat hsize
  have hextend : ∀ {P : ℕ → Prop}, (∀ p ∈ places, P p) → P s.p → ∀ p ∈ places ++ [s.p], P p := by
    intro P hold hnew p hp
    rcases List.mem_append.mp hp with hbefore | hlast
    · exact hold p hbefore
    · rw [List.mem_singleton.mp hlast]
      exact hnew
  cases hran with
  | library name hkind hlibrary =>
    have hapart := kinds_apart (.inl hkind)
    exact ⟨hend, htiled, hextend h.allowed (.inl hkind), hextend h.libraries fun _ => ⟨name, hlibrary⟩,
      h.loader.other hapart.1, h.signature.other hapart.2⟩
  | loader hkind hfirst hnames =>
    have hnot : wordAt b s.p ∉ dylibCommands := by
      rw [hkind]
      decide
    have hother : wordAt b s.p ≠ 0x1d := by omega
    have hnone := h.loader
    rw [hfirst] at hnone
    exact ⟨hend, htiled, hextend h.allowed (.inr (.inl hkind)), hextend h.libraries fun hd => absurd hd hnot,
      hnone.first hkind hnames, h.signature.other hother⟩
  | signature hkind hfirst hsignature =>
    have hnot : wordAt b s.p ∉ dylibCommands := by
      rw [hkind]
      decide
    have hother : wordAt b s.p ≠ 0xe := by omega
    have hnone := h.signature
    rw [hfirst] at hnone
    exact ⟨hend, htiled, hextend h.allowed (.inr (.inr (.inl hkind))),
      hextend h.libraries fun hd => absurd hd hnot, h.loader.other hother, hnone.first hkind hsignature⟩
  | known hkind =>
    have hapart := kinds_apart (.inr hkind)
    exact ⟨hend, htiled, hextend h.allowed (.inr (.inr (.inr hkind))),
      hextend h.libraries fun hd => absurd hd (known_not_dylib hkind), h.loader.other hapart.1,
      h.signature.other hapart.2⟩

theorem safe_commands (hstop : stop ≤ b.length) (hlong : b.length < 2 ^ 63) (remaining : ℕ) {places : List ℕ}
    (h : Walked cache b stop s places) :
    Safe (commands cache b stop remaining s) fun next =>
      ∃ more, more.length = places.length + remaining ∧ Walked cache b stop next more := by
  induction remaining generalizing s places with
  | zero => exact Safe.value ⟨places, rfl, h⟩
  | succ remaining ih =>
    unfold commands
    apply Safe.bind (safe_command h.within hstop hlong)
    rintro next ⟨hsize, hend, s', hran, rfl⟩
    apply Safe.mono (ih (h.step hsize hend hran))
    rintro last ⟨more, hlength, hwalked⟩
    rw [List.length_append, List.length_singleton] at hlength
    exact ⟨more, by omega, hwalked⟩

/-- **A slice is checked without a fault, and what is let through is reviewed.** -/
theorem safe_slice (hlong : b.length < 2 ^ 63) : Safe (slice cache b) fun _ => Reviewed cache b := by
  unfold slice
  apply Safe.bind (safe_word (by omega))
  rintro magic ⟨rfl, _⟩
  apply Safe.bind (safe_reject _)
  intro _ hmagic
  apply Safe.bind (safe_word (by omega))
  rintro cpu ⟨rfl, _⟩
  apply Safe.bind (safe_reject _)
  intro _ hcpu
  apply Safe.bind (safe_word (by omega))
  rintro kind ⟨rfl, _⟩
  apply Safe.bind (safe_reject _)
  intro _ hkind
  apply Safe.bind (safe_word (by omega))
  rintro count ⟨rfl, _⟩
  apply Safe.bind (safe_word (by omega))
  rintro sizes ⟨rfl, _⟩
  apply Safe.bind (safe_okOr _ _)
  intro stop hstop
  obtain ⟨rfl, _⟩ := checkedAdd_eq_some.mp hstop
  apply Safe.bind (safe_reject _)
  intro _ hinside
  simp only [Bool.or_eq_false_iff, decide_eq_false_iff_not, not_lt] at hinside
  apply Safe.bind (safe_commands hinside.2 hlong _ (Walked.start (by omega)))
  rintro s ⟨places, hlength, hwalked⟩
  apply Safe.mono (safe_reject _)
  intro _ hdone
  simp only [Bool.or_eq_false_iff, decide_eq_false_iff_not, not_not, Bool.not_eq_false'] at hdone
  obtain ⟨⟨hend, hsigned⟩, hloader⟩ := hdone
  have hloaded := hwalked.loader
  have hsignature := hwalked.signature
  rw [hloader] at hloaded
  rw [hsigned] at hsignature
  have htiled := hwalked.tiled
  rw [hend] at htiled
  refine ⟨by simpa using hmagic, by simpa using hcpu, by simpa using hkind, hinside.2, places, by simpa using hlength,
    ?_⟩
  exact ⟨htiled, hwalked.allowed, hwalked.libraries, hloaded, hsignature⟩

end Commands

/-! ## Universal files -/

/-- The size of an entry of the table. -/
def stride (b : List UInt8) : ℕ := if bigAt 4 b 0 = 0xcafebabf then 32 else 20

def entryPlace (b : List UInt8) (i : ℕ) : ℕ := 8 + i * stride b

def offsetAt (b : List UInt8) (i : ℕ) : ℕ :=
  if stride b = 32 then bigAt 8 b (entryPlace b i + 8) else bigAt 4 b (entryPlace b i + 8)

def sizeAt (b : List UInt8) (i : ℕ) : ℕ :=
  if stride b = 32 then bigAt 8 b (entryPlace b i + 16) else bigAt 4 b (entryPlace b i + 12)

/-- The entry is for arm64. -/
def IsNative (b : List UInt8) (i : ℕ) : Prop := bigAt 4 b (entryPlace b i) = 0x0100000c

instance (b : List UInt8) : DecidablePred (IsNative b) := fun i => decEq (bigAt 4 b (entryPlace b i)) _

/-- The bytes of a slice. -/
def part (b : List UInt8) (i : ℕ) : List UInt8 := (b.drop (offsetAt b i)).take (sizeAt b i)

/-- An entry that was let through. -/
structure Placed (cache : String → Bool) (b : List UInt8) (count i : ℕ) : Prop where
  nonempty : 0 < sizeAt b i
  afterTable : entryPlace b count ≤ offsetAt b i
  inside : offsetAt b i + sizeAt b i ≤ b.length
  reviewed : IsNative b i → Reviewed cache (part b i) ∧ wordAt (part b i) 8 = bigAt 4 b (entryPlace b i + 4)

/-- The offsets of the arm64 slices among the first entries. -/
def nativeOffsets (b : List UInt8) (count : ℕ) : List ℕ :=
  ((List.range count).filter (IsNative b ·)).map (offsetAt b)

def Disjoint (b : List UInt8) (i j : ℕ) : Prop :=
  offsetAt b i + sizeAt b i ≤ offsetAt b j ∨ offsetAt b j + sizeAt b j ≤ offsetAt b i

/-- A universal file that was let through, with the offsets that were returned. -/
structure ReviewedUniversal (cache : String → Bool) (b : List UInt8) (offsets : List ℕ) : Prop where
  magic : bigAt 4 b 0 = 0xcafebabe ∨ bigAt 4 b 0 = 0xcafebabf
  placed : ∀ i < bigAt 4 b 4, Placed cache b (bigAt 4 b 4) i
  disjoint : ∀ i j, i < j → j < bigAt 4 b 4 → Disjoint b i j
  returned : offsets = nativeOffsets b (bigAt 4 b 4)
  found : offsets ≠ []

section Universal

variable {cache : String → Bool} {b : List UInt8} {count i : ℕ} {s : MachO.Slices}

/-- INTERNAL: the table of at most sixteen entries is small. -/
theorem entryPlace_le (h : i ≤ 16) : entryPlace b i ≤ 520 := by
  have hstride : stride b ≤ 32 := by
    unfold stride
    split <;> omega
  have hproduct : i * stride b ≤ 16 * 32 := Nat.mul_le_mul h hstride
  unfold entryPlace
  omega

theorem safe_rangeAt (h : i ≤ 16) :
    Safe (rangeAt b (stride b) (entryPlace b i)) fun range => range = (offsetAt b i, sizeAt b i) := by
  have hplace := entryPlace_le (b := b) h
  unfold rangeAt
  split
  · next hwide =>
    apply Safe.bind (safe_add (by omega))
    rintro place rfl
    apply Safe.bind (safe_big64 (by omega))
    rintro offset ⟨rfl, _⟩
    apply Safe.bind (safe_add (by omega))
    rintro place rfl
    apply Safe.bind (safe_big64 (by omega))
    rintro size ⟨rfl, _⟩
    apply Safe.value
    rw [offsetAt, sizeAt, if_pos hwide, if_pos hwide]
  · next hnarrow =>
    apply Safe.bind (safe_add (by omega))
    rintro place rfl
    apply Safe.bind (safe_big (by omega))
    rintro offset ⟨rfl, _⟩
    apply Safe.bind (safe_add (by omega))
    rintro place rfl
    apply Safe.bind (safe_big (by omega))
    rintro size ⟨rfl, _⟩
    apply Safe.value
    rw [offsetAt, sizeAt, if_neg hnarrow, if_neg hnarrow]

theorem safe_reserved (h : i ≤ 16) : Safe (reserved b (stride b) (entryPlace b i)) fun _ => True := by
  have hplace := entryPlace_le (b := b) h
  unfold reserved
  split
  · apply Safe.bind (safe_add (by omega))
    rintro place rfl
    apply Safe.bind (safe_big (by omega))
    intro value _
    apply Safe.mono (safe_reject _)
    intro _ _
    trivial
  · exact Safe.value trivial

/-- INTERNAL: one bit at a place of a word is not zero. -/
theorem safe_shiftLeft {alignment : ℕ} (h : alignment < 64) : Safe (shiftLeft 1 alignment) fun n => n ≠ 0 := by
  have hlt : 2 ^ alignment < 2 ^ 64 := Nat.pow_lt_pow_right (by omega) h
  have hpositive := Nat.two_pow_pos alignment
  unfold shiftLeft
  rw [if_pos h]
  apply Safe.value
  rw [Nat.one_mul, Nat.mod_eq_of_lt hlt]
  omega

/-- INTERNAL: a native slice is reviewed before its offset is kept. -/
theorem safe_native (arm : List ℕ) (h : i ≤ 16) (hinside : offsetAt b i + sizeAt b i ≤ b.length)
    (hlong : b.length < 2 ^ 63) :
    Safe (native cache b (entryPlace b i) (offsetAt b i) (offsetAt b i + sizeAt b i) arm) fun next =>
      next = arm ++ (if IsNative b i then [offsetAt b i] else []) ∧
        (IsNative b i → Reviewed cache (part b i) ∧ wordAt (part b i) 8 = bigAt 4 b (entryPlace b i + 4)) := by
  have hplace := entryPlace_le (b := b) h
  unfold native
  apply Safe.bind (safe_big (by omega))
  rintro cpu ⟨rfl, _⟩
  split
  · next hnative =>
    apply Safe.bind (safe_window (by omega) hinside)
    rintro bytes rfl
    rw [Nat.add_sub_cancel_left]
    have hpart : (part b i).length < 2 ^ 63 := by
      rw [part, List.length_take, List.length_drop]
      omega
    apply Safe.bind (safe_slice hpart)
    intro _ hreviewed
    apply Safe.bind (safe_word (by omega))
    rintro subtype ⟨rfl, _⟩
    apply Safe.bind (safe_add (by omega))
    rintro place rfl
    apply Safe.bind (safe_big (by omega))
    rintro declared ⟨rfl, _⟩
    apply Safe.bind (safe_reject _)
    intro _ hsubtype
    apply Safe.value
    have hnative : IsNative b i := hnative
    rw [if_pos hnative]
    have hdeclared : wordAt (part b i) 8 = bigAt 4 b (entryPlace b i + 4) := by
      rw [part]
      simpa using hsubtype
    exact ⟨rfl, fun _ => ⟨hreviewed, hdeclared⟩⟩
  · next hother =>
    apply Safe.value
    have hother : ¬ IsNative b i := hother
    rw [if_neg hother, List.append_nil]
    exact ⟨rfl, fun hnative => absurd hnative hother⟩

/-- **What the loop over the table has passed.** -/
structure Spread (cache : String → Bool) (b : List UInt8) (count i : ℕ) (s : MachO.Slices) : Prop where
  placed : ∀ j < i, Placed cache b count j
  disjoint : ∀ j k, j < k → k < i → Disjoint b j k
  ranges : ∀ j < i, (offsetAt b j, offsetAt b j + sizeAt b j) ∈ s.ranges
  arm : s.arm = nativeOffsets b i

theorem Spread.start : Spread cache b count 0 { arm := [], ranges := [] } where
  placed j hj := absurd hj (Nat.not_lt_zero j)
  disjoint _ k _ hk := absurd hk (Nat.not_lt_zero k)
  ranges j hj := absurd hj (Nat.not_lt_zero j)
  arm := rfl

theorem nativeOffsets_succ (b : List UInt8) (i : ℕ) :
    nativeOffsets b (i + 1) = nativeOffsets b i ++ if IsNative b i then [offsetAt b i] else [] := by
  unfold nativeOffsets
  rw [List.range_succ, List.filter_append, List.map_append]
  by_cases h : IsNative b i <;> simp [h]

/-- **One more entry keeps what the loop has passed.** -/
theorem Spread.step (h : Spread cache b count i s) (hplaced : Placed cache b count i)
    (hapart : ∀ range ∈ s.ranges, ¬ (offsetAt b i < range.2 ∧ range.1 < offsetAt b i + sizeAt b i)) :
    Spread cache b count (i + 1)
      { arm := s.arm ++ if IsNative b i then [offsetAt b i] else []
        ranges := s.ranges ++ [(offsetAt b i, offsetAt b i + sizeAt b i)] } where
  placed j hj := by
    rcases Nat.lt_succ_iff_lt_or_eq.mp hj with hbefore | rfl
    · exact h.placed j hbefore
    · exact hplaced
  disjoint j k hjk hk := by
    rcases Nat.lt_succ_iff_lt_or_eq.mp hk with hbefore | rfl
    · exact h.disjoint j k hjk hbefore
    · have hnot := hapart _ (h.ranges j hjk)
      unfold Disjoint
      omega
  ranges j hj := by
    rcases Nat.lt_succ_iff_lt_or_eq.mp hj with hbefore | rfl
    · exact List.mem_append_left _ (h.ranges j hbefore)
    · exact List.mem_append_right _ (List.mem_singleton_self _)
  arm := by rw [nativeOffsets_succ, h.arm]

theorem safe_entry (h : Spread cache b count i s) (hi : i < count) (hcount : count ≤ 16)
    (hlong : b.length < 2 ^ 63) :
    Safe (entry cache b (stride b) count i s) (Spread cache b count (i + 1)) := by
  have hplace := entryPlace_le (b := b) (i := i) (by omega)
  have htable := entryPlace_le (b := b) hcount
  have hplace' : 8 + i * stride b = entryPlace b i := rfl
  have htable' : 8 + count * stride b = entryPlace b count := rfl
  unfold entry
  apply Safe.bind (safe_mul (by omega))
  rintro product rfl
  apply Safe.bind (safe_add (by omega))
  rintro p rfl
  rw [hplace']
  apply Safe.bind (safe_rangeAt (by omega))
  rintro range rfl
  apply Safe.bind (safe_okOr _ _)
  intro stop hstop
  obtain ⟨rfl, _⟩ := checkedAdd_eq_some.mp hstop
  apply Safe.bind (safe_add (by split <;> omega))
  rintro place rfl
  apply Safe.bind (safe_big (by split <;> omega))
  rintro alignment ⟨rfl, _⟩
  apply Safe.bind (safe_reject _)
  intro _ hsize
  simp only [Bool.or_eq_false_iff, decide_eq_false_iff_not, not_le] at hsize
  apply Safe.bind (safe_shiftLeft hsize.2)
  intro unit hunit
  apply Safe.bind (safe_rem hunit)
  intro rest _
  apply Safe.bind (safe_reject _)
  intro _ _
  apply Safe.bind (safe_reserved (by omega))
  intro _ _
  apply Safe.bind (safe_mul (by omega))
  rintro product rfl
  apply Safe.bind (safe_add (by omega))
  rintro table rfl
  rw [htable']
  apply Safe.bind (safe_reject _)
  intro _ hranges
  simp only [Bool.or_eq_false_iff, decide_eq_false_iff_not, not_lt, List.any_eq_false, Bool.and_eq_true,
    decide_eq_true_eq] at hranges
  obtain ⟨⟨hafter, hinside⟩, hapart⟩ := hranges
  apply Safe.bind (safe_native s.arm (by omega) hinside hlong)
  rintro arm ⟨rfl, hreviewed⟩
  apply Safe.value
  exact h.step ⟨by omega, hafter, hinside, hreviewed⟩ hapart

theorem safe_entries (hcount : count ≤ 16) (hlong : b.length < 2 ^ 63) (remaining : ℕ)
    (hremaining : i + remaining = count) (h : Spread cache b count i s) :
    Safe (entries cache b (stride b) count remaining i s) (Spread cache b count count) := by
  induction remaining generalizing i s with
  | zero =>
    apply Safe.value
    have hi : i = count := hremaining
    rw [hi] at h
    exact h
  | succ remaining ih =>
    unfold entries
    apply Safe.bind (safe_entry h (by omega) hcount hlong)
    intro next hnext
    exact ih (by omega) hnext

theorem safe_universal (hlong : b.length < 2 ^ 63) :
    Safe (universal cache b) (ReviewedUniversal cache b) := by
  unfold universal
  apply Safe.bind (safe_big (by omega))
  rintro fat ⟨rfl, _⟩
  apply Safe.bind (safe_reject _)
  intro _ hfat
  apply Safe.bind (safe_big (by omega))
  rintro count ⟨rfl, _⟩
  apply Safe.bind (safe_reject _)
  intro _ hcount
  simp only [Bool.or_eq_false_iff, decide_eq_false_iff_not, not_lt] at hcount
  apply Safe.bind (safe_entries hcount.2 hlong _ (by omega) Spread.start)
  intro s hspread
  apply Safe.bind (safe_reject _)
  intro _ hfound
  apply Safe.value
  refine ⟨?_, hspread.placed, hspread.disjoint, hspread.arm, ?_⟩
  · by_contra hneither
    simp [not_or.mp hneither] at hfat
  · intro hempty
    simp [hempty] at hfound

end Universal

/-- What is returned for a file that was let through. -/
def Profile (cache : String → Bool) (b : List UInt8) (offsets : List ℕ) : Prop :=
  (wordAt b 0 = 0xfeedfacf ∧ offsets = [0] ∧ Reviewed cache b) ∨
    (wordAt b 0 ≠ 0xfeedfacf ∧ ReviewedUniversal cache b offsets)

/-- **The check of a Mach-O file never faults, and every slice that it returns is reviewed**:
its commands tile what it declares, its libraries are the system's, its loader and its
signature are there once; the slices of a universal file are apart, and the native ones are
returned. -/
theorem macho_profile (cache : String → Bool) (b : List UInt8) : Safe (macho cache b) (Profile cache b) := by
  unfold macho
  apply Safe.bind (safe_reject _)
  intro _ hsize
  have hlong : b.length < 2 ^ 63 := by
    have hle := of_decide_eq_false hsize
    omega
  apply Safe.bind (safe_word (by omega))
  rintro magic ⟨rfl, _⟩
  split
  · next hthin =>
    apply Safe.bind (safe_slice hlong)
    intro _ hreviewed
    exact Safe.value (.inl ⟨hthin, rfl, hreviewed⟩)
  · next hother =>
    apply Safe.mono (safe_universal hlong)
    intro offsets huniversal
    exact .inr ⟨hother, huniversal⟩

/-- A loader command and a signature are enough. -/
example : macho (fun _ => false) (Frames.le 4 0xfeedfacf ++ Frames.le 4 0x0100000c ++ Frames.le 4 0 ++ Frames.le 4 2 ++
    Frames.le 4 2 ++ Frames.le 4 48 ++ Frames.le 8 0 ++
    Frames.le 4 0xe ++ Frames.le 4 32 ++ Frames.le 4 12 ++ Text.bytes "/usr/lib/dyld" ++ Frames.le 7 0 ++
    Frames.le 4 0x1d ++ Frames.le 4 16 ++ Frames.le 4 80 ++ Frames.le 4 1 ++ [0]) = .value [0] := by
  decide +kernel

end VaultAccess.Analysis.Slices
