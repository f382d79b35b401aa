import Mathlib.Data.String.Basic
import VaultAccess.Library.Checked
import VaultAccess.Model.Machine

/-!
# The check of an executable image

`validate_elf_for_page_size` of `src/adapters/execution.rs`, with every index and every
machine operation that could fault. Numbers are `u64`, and `usize` is as wide.
-/

set_option autoImplicit false

namespace VaultAccess.Model.Elf

open VaultAccess.Library VaultAccess.Library.Checked VaultAccess.Model

/-- `cfg!(target_arch)`. -/
inductive TargetArch where
  | x86_64
  | aarch64
  | other
  deriving DecidableEq, Repr

abbrev Check (α : Type) := Checked ExecutionError α

/-- The refusal of an image. -/
def reject (condition : Bool) : Check Unit := refuseIf .unsupportedImage condition

/-- The little-endian number at a place. -/
def numberAt (width : ℕ) (b : List UInt8) (n : ℕ) : Check ℕ := do
  let stop ← add 64 n width
  return Frames.unle (← window b n stop)

def u16At (b : List UInt8) (n : ℕ) : Check ℕ := numberAt 2 b n
def u32At (b : List UInt8) (n : ℕ) : Check ℕ := numberAt 4 b n
def u64At (b : List UInt8) (n : ℕ) : Check ℕ := numberAt 8 b n

/-- The end of the userspace of an architecture.
SRCLINE: execution.rs:734-740 -/
def userspaceEnd (machine pageSize : ℕ) : Check ℕ :=
  if machine = 62 then
    if pageSize ≤ 2 ^ 47 then .value (2 ^ 47 - pageSize) else .refuse .unavailable
  else if machine = 183 then .value (2 ^ 36)
  else .refuse .unsupportedImage

/-- SRCLINE: execution.rs:727-748 -/
def checkedUserspaceMappingEnd (machine pageSize stop : ℕ) : Check ℕ := do
  let limit ← userspaceEnd machine pageSize
  let mask ← sub pageSize 1
  let sum ← okOr .unsupportedImage (Checked.checkedAdd 64 stop mask)
  let pageEnd := Pages.clear 64 sum mask
  reject (decide (limit < pageEnd))
  return pageEnd

/-- What the header says.
SRCLINE: execution.rs:782-783, 793-794, 827 -/
structure Header where
  phoff : ℕ
  count : ℕ
  shoff : ℕ
  shnum : ℕ
  entry : ℕ
  deriving DecidableEq, Repr

/-- SRCLINE: execution.rs:764-781 -/
def identification (machine : ℕ) (b : List UInt8) : Check Unit := do
  reject (decide (b.length < 64))
  reject ((← window b 0 4) ≠ [0x7f, 0x45, 0x4c, 0x46])
  reject ((← index b 4) ≠ 2)
  reject ((← index b 5) ≠ 1)
  reject ((← index b 6) ≠ 1)
  let abi ← index b 7
  reject (abi ≠ 0 && abi ≠ 3)
  reject ((← index b 8) ≠ 0)
  reject ((← window b 9 16).any (· ≠ 0))
  reject ((← u16At b 16) ≠ 2)
  reject ((← u16At b 18) ≠ machine)
  reject ((← u32At b 20) ≠ 1)
  reject ((← u32At b 48) ≠ 0)
  reject ((← u16At b 52) ≠ 64)
  reject ((← u16At b 54) ≠ 56)

/-- A range of the file.
SRCLINE: execution.rs:788-790, 802-804, 817-819, 847-849 -/
def within (b : List UInt8) (offset size : ℕ) : Check Unit :=
  reject ((Checked.checkedAdd 64 offset size).all fun stop => decide (b.length < stop))

/-- SRCLINE: execution.rs:796-808 -/
def sectionTable (b : List UInt8) (shoff shnum : ℕ) : Check Unit :=
  if shoff = 0 then do
    reject (shnum ≠ 0)
    reject ((← u16At b 62) ≠ 0)
  else do
    reject (shnum = 0)
    reject ((← u16At b 58) ≠ 64)
    reject (decide (shoff < 64))
    within b shoff (← mul 64 shnum 64)
    reject (decide (shnum ≤ (← u16At b 62)))

/-- The tables of program headers and of sections lie in the file.
SRCLINE: execution.rs:782-808, 827 -/
def header (b : List UInt8) : Check Header := do
  let phoff ← u64At b 32
  let count ← u16At b 56
  reject (count = 0 || decide (1024 < count) || decide (phoff < 64))
  within b phoff (← mul 64 count 56)
  let shoff ← u64At b 40
  let shnum ← u16At b 60
  sectionTable b shoff shnum
  let entry ← u64At b 24
  return { phoff, count, shoff, shnum, entry }

/-- A section. -/
structure Section where
  kind : ℕ
  offset : ℕ
  size : ℕ
  align : ℕ
  entrySize : ℕ
  link : ℕ
  deriving DecidableEq, Repr

/-- SRCLINE: execution.rs:810-815, 822 -/
def sectionAt (b : List UInt8) (h : Header) (i : ℕ) : Check Section := do
  let n ← add 64 h.shoff (← mul 64 i 64)
  let kind ← u32At b (← add 64 n 4)
  let offset ← u64At b (← add 64 n 24)
  let size ← u64At b (← add 64 n 32)
  let align ← u64At b (← add 64 n 48)
  let entrySize ← u64At b (← add 64 n 56)
  let link ← u32At b (← add 64 n 40)
  return { kind, offset, size, align, entrySize, link }

/-- `size % entry_size`, where there are entries. -/
def wholeEntries (size entrySize : ℕ) : Check Unit :=
  if entrySize = 0 then return ()
  else do reject ((← rem size entrySize) ≠ 0)

/-- What a section takes of the file; `SHT_NOBITS` takes nothing. -/
def rangeOf (b : List UInt8) (s : Section) : Check Unit :=
  if s.kind = 8 then return () else within b s.offset s.size

/-- SRCLINE: execution.rs:816-825 -/
def validSection (b : List UInt8) (h : Header) (s : Section) : Check Unit := do
  rangeOf b s
  reject (decide (1 < s.align) && !decide s.align.isPowerOfTwo)
  wholeEntries s.size s.entrySize
  reject (decide (h.shnum ≤ s.link))

/-- SRCLINE: execution.rs:809-826 -/
def sections (b : List UInt8) (h : Header) : ℕ → ℕ → Check Unit
  | 0, _ => return ()
  | remaining + 1, i => do
    let s ← sectionAt b h i
    validSection b h s
    sections b h remaining (i + 1)

/-- A program header. -/
structure Segment where
  kind : ℕ
  flags : ℕ
  offset : ℕ
  address : ℕ
  filesz : ℕ
  memsz : ℕ
  align : ℕ
  deriving DecidableEq, Repr

/-- SRCLINE: execution.rs:831-838 -/
def segmentAt (b : List UInt8) (h : Header) (i : ℕ) : Check Segment := do
  let n ← add 64 h.phoff (← mul 64 i 56)
  let kind ← u32At b n
  let flags ← u32At b (← add 64 n 4)
  let offset ← u64At b (← add 64 n 8)
  let address ← u64At b (← add 64 n 16)
  let filesz ← u64At b (← add 64 n 32)
  let memsz ← u64At b (← add 64 n 40)
  let align ← u64At b (← add 64 n 48)
  return { kind, flags, offset, address, filesz, memsz, align }

/-- SRCLINE: execution.rs:853-854 -/
def aligned (s : Segment) : Check Unit :=
  if 1 < s.align then do
    reject (!decide s.align.isPowerOfTwo)
    reject ((← rem s.address s.align) ≠ (← rem s.offset s.align))
  else return ()

/-- The pages of a loadable segment.
SRCLINE: execution.rs:848-862 -/
def pagesOf (machine pageSize : ℕ) (s : Segment) : Check (ℕ × ℕ) := do
  reject (s.flags &&& (2 ^ 32 - 1 ^^^ 7) ≠ 0 || s.flags &&& 3 = 3)
  reject (decide (s.memsz < s.filesz) || s.memsz = 0 || (Checked.checkedAdd 64 s.address s.memsz).isNone)
  aligned s
  reject ((← rem s.address pageSize) ≠ (← rem s.offset pageSize))
  let stop ← add 64 s.address s.memsz
  let mask ← sub pageSize 1
  let pageEnd ← checkedUserspaceMappingEnd machine pageSize stop
  return (Pages.clear 64 s.address mask, pageEnd)

/-- The entry point lies in what the file gives an executable segment.
SRCLINE: execution.rs:873-875 -/
def holdsEntry (entry : ℕ) (s : Segment) : Check Bool := do
  if s.flags &&& 1 ≠ 0 && decide (s.address ≤ entry) then
    return decide (entry < (← add 64 s.address s.filesz))
  else return false

/-- One program header, after the loads before it.
SRCLINE: execution.rs:839-876 -/
def validSegment (machine pageSize : ℕ) (b : List UInt8) (h : Header) (s : Segment)
    (loads : List (ℕ × ℕ)) (entryFound : Bool) : Check (List (ℕ × ℕ) × Bool) := do
  reject (s.kind = 2 || s.kind = 3 || (s.kind = 0x6474e551 && s.flags &&& 1 ≠ 0))
  within b s.offset s.filesz
  if s.kind = 1 then do
    let pages ← pagesOf machine pageSize s
    reject (loads.any fun load => decide (pages.1 < load.2) && decide (load.1 < pages.2))
    reject (loads.getLast?.any fun load => decide (pages.1 ≤ load.1))
    let found ← holdsEntry h.entry s
    return (loads ++ [pages], entryFound || found)
  else return (loads, entryFound)

/-- SRCLINE: execution.rs:828-878 -/
def segments (machine pageSize : ℕ) (b : List UInt8) (h : Header) :
    ℕ → ℕ → List (ℕ × ℕ) → Bool → Check Bool
  | 0, _, _, entryFound => return entryFound
  | remaining + 1, i, loads, entryFound => do
    let s ← segmentAt b h i
    let next ← validSegment machine pageSize b h s loads entryFound
    segments machine pageSize b h remaining (i + 1) next.1 next.2

/-- SRCLINE: execution.rs:757-763 -/
def machineOf : TargetArch → Check ℕ
  | .x86_64 => .value 62
  | .aarch64 => .value 183
  | .other => .refuse .unsupportedImage

/-- SRCLINE: execution.rs:750-883 -/
def validateElfForPageSize (arch : TargetArch) (b : List UInt8) (pageSize : UInt64) : Check Unit := do
  refuseIf .unavailable (decide (pageSize.toNat < 4096) || !decide pageSize.toNat.isPowerOfTwo)
  let machine ← machineOf arch
  identification machine b
  let h ← header b
  sections b h h.shnum 0
  let entryFound ← segments machine pageSize.toNat b h h.count 0 [] false
  reject (!entryFound)

end VaultAccess.Model.Elf
