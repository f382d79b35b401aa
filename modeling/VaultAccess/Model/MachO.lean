import Mathlib.Data.String.Basic
import VaultAccess.Library.Checked
import VaultAccess.Library.Text
import VaultAccess.Model.Machine

/-!
# The check of a Mach-O image

`macho` and `slice` of `src/adapters/native/image.rs`, with every index and every machine
operation that could fault. The lookup in the shared cache of the loader is a parameter.
-/

set_option autoImplicit false

namespace VaultAccess.Model.MachO

open VaultAccess.Library VaultAccess.Library.Checked VaultAccess.Model

abbrev Check (α : Type) := Checked ExecutionError α

def reject (condition : Bool) : Check Unit := refuseIf .unsupportedImage condition

/-- `bytes.get(n..n + width)`. -/
def bytesAt (width : ℕ) (b : List UInt8) (n : ℕ) : Check (List UInt8) := do
  let stop ← add 64 n width
  okOr .unsupportedImage (Frames.slice b n stop)

/-- SRCLINE: image.rs:19-27 -/
def word (b : List UInt8) (n : ℕ) : Check ℕ := do
  return Frames.unle (← bytesAt 4 b n)

/-- SRCLINE: image.rs:28-36 -/
def big (b : List UInt8) (n : ℕ) : Check ℕ := do
  return Frames.unle (← bytesAt 4 b n).reverse

/-- SRCLINE: image.rs:37-46 -/
def big64 (b : List UInt8) (n : ℕ) : Check ℕ := do
  return Frames.unle (← bytesAt 8 b n).reverse

/-! ## A slice -/

/-- Commands that name a library. -/
def dylibCommands : List ℕ := [0xc, 0x80000018, 0x8000001f, 0x80000023]

/-- Metadata and segments.
SRCLINE: image.rs:178-180 -/
def knownCommands : List ℕ :=
  [0x19, 0x2, 0xb, 0x1b, 0x24, 0x25, 0x26, 0x29, 0x2a, 0x2b, 0x2d, 0x2e, 0x32, 0x80000022, 0x80000028,
    0x80000033, 0x80000034]

/-- The bytes before the first zero byte. -/
def terminated (value : List UInt8) : Check (List UInt8) := do
  let n ← okOr .unsupportedImage (value.findIdx? (· = 0))
  window value 0 n

/-- `std::str::from_utf8`. -/
def fromUtf8 (value : List UInt8) : Option String := String.fromUTF8? ⟨value.toArray⟩

/-- What a command says from an offset of its own to its end. -/
def tail (b : List UInt8) (p offset size : ℕ) : Check (List UInt8) := do
  let start ← add 64 p offset
  let stop ← add 64 p size
  window b start stop

/-- The places that a library may come from. -/
def allowedPath (name : String) : Bool :=
  ("/usr/lib/".toList.isPrefixOf name.toList || "/System/Library/Frameworks/".toList.isPrefixOf name.toList) &&
    !(Text.split '/' name.toList).any fun part => part = ['.'] || part = ['.', '.']

/-- SRCLINE: image.rs:124-146 -/
def dylibCommand (cache : String → Bool) (b : List UInt8) (p size : ℕ) : Check Unit := do
  let offset ← word b (← add 64 p 8)
  reject (decide (offset < 24) || decide (size ≤ offset))
  let value ← tail b p offset size
  let text ← terminated value
  let name ← okOr .unsupportedImage (fromUtf8 text)
  reject (!allowedPath name)
  -- `CString::new`
  reject (text.contains 0)
  reject (!cache name)

/-- SRCLINE: image.rs:147-161 -/
def loaderCommand (b : List UInt8) (p size : ℕ) (loader : Bool) : Check Unit := do
  let offset ← word b (← add 64 p 8)
  reject (loader || decide (offset < 12) || decide (size ≤ offset))
  let value ← tail b p offset size
  let text ← terminated value
  reject (text ≠ Text.bytes "/usr/lib/dyld")

/-- SRCLINE: image.rs:162-174 -/
def signatureCommand (b : List UInt8) (stop p size : ℕ) (signed : Bool) : Check Unit := do
  reject (signed || size ≠ 16)
  let length ← word b (← add 64 p 12)
  reject (length = 0)
  let start ← word b (← add 64 p 8)
  reject (decide (start < stop))
  reject ((Checked.checkedAdd 64 start length).all fun signatureEnd => decide (b.length < signatureEnd))

/-- Where the loop over the commands is.
SRCLINE: image.rs:114-116 -/
structure Progress where
  p : ℕ
  signed : Bool
  loader : Bool
  deriving DecidableEq, Repr

/-- What one command adds.
SRCLINE: image.rs:123-181 -/
def dispatch (cache : String → Bool) (b : List UInt8) (stop cmd size : ℕ) (s : Progress) : Check Progress :=
  if dylibCommands.contains cmd then do
    dylibCommand cache b s.p size
    return s
  else if cmd = 0xe then do
    loaderCommand b s.p size s.loader
    return { s with loader := true }
  else if cmd = 0x1d then do
    signatureCommand b stop s.p size s.signed
    return { s with signed := true }
  else do
    -- Search paths, other loaders and every unknown command are refused alike.
    reject (!knownCommands.contains cmd)
    return s

/-- SRCLINE: image.rs:118-182 -/
def command (cache : String → Bool) (b : List UInt8) (stop : ℕ) (s : Progress) : Check Progress := do
  let cmd ← word b s.p
  let size ← word b (← add 64 s.p 4)
  reject (decide (size < 8) || size % 8 ≠ 0)
  reject ((Checked.checkedAdd 64 s.p size).all fun n => decide (stop < n))
  let s ← dispatch cache b stop cmd size s
  let p ← add 64 s.p size
  return { s with p }

/-- SRCLINE: image.rs:117-183 -/
def commands (cache : String → Bool) (b : List UInt8) (stop : ℕ) : ℕ → Progress → Check Progress
  | 0, s => return s
  | remaining + 1, s => do
    let s ← command cache b stop s
    commands cache b stop remaining s

/-- SRCLINE: image.rs:103-188 -/
def slice (cache : String → Bool) (b : List UInt8) : Check Unit := do
  reject ((← word b 0) ≠ 0xfeedfacf)
  reject ((← word b 4) ≠ 0x0100000c)
  reject ((← word b 12) ≠ 2)
  let count ← word b 16
  let sizes ← word b 20
  let stop ← okOr .unsupportedImage (Checked.checkedAdd 64 32 sizes)
  reject (count = 0 || decide (4096 < count) || decide (b.length < stop))
  let s ← commands cache b stop count { p := 32, signed := false, loader := false }
  reject (s.p ≠ stop || !s.signed || !s.loader)

/-! ## A file -/

/-- The range of a slice in a universal file.
SRCLINE: image.rs:69-73 -/
def rangeAt (b : List UInt8) (stride p : ℕ) : Check (ℕ × ℕ) :=
  if stride = 32 then do
    let offset ← big64 b (← add 64 p 8)
    let size ← big64 b (← add 64 p 16)
    return (offset, size)
  else do
    let offset ← big b (← add 64 p 8)
    let size ← big b (← add 64 p 12)
    return (offset, size)

/-- The reserved word of a wide entry is zero. -/
def reserved (b : List UInt8) (stride p : ℕ) : Check Unit :=
  if stride = 32 then do
    reject ((← big b (← add 64 p 28)) ≠ 0)
  else return ()

/-- `1usize << alignment`. -/
def shiftLeft (n alignment : ℕ) : Check ℕ :=
  if alignment < 64 then .value (n * 2 ^ alignment % 2 ^ 64) else .fault .overflow

/-- What was seen of the entries before.
SRCLINE: image.rs:65-66 -/
structure Slices where
  arm : List ℕ
  ranges : List (ℕ × ℕ)
  deriving DecidableEq, Repr

/-- SRCLINE: image.rs:89-95 -/
def native (cache : String → Bool) (b : List UInt8) (p offset stop : ℕ) (arm : List ℕ) : Check (List ℕ) := do
  if (← big b p) = 0x0100000c then do
    let part ← window b offset stop
    slice cache part
    let subtype ← word part 8
    reject (subtype ≠ (← big b (← add 64 p 4)))
    return arm ++ [offset]
  else return arm

/-- SRCLINE: image.rs:68-96 -/
def entry (cache : String → Bool) (b : List UInt8) (stride count i : ℕ) (s : Slices) : Check Slices := do
  let p ← add 64 8 (← mul 64 i stride)
  let range ← rangeAt b stride p
  let stop ← okOr .unsupportedImage (Checked.checkedAdd 64 range.1 range.2)
  let alignment ← big b (← add 64 p (if stride = 32 then 24 else 16))
  reject (range.2 = 0 || decide (64 ≤ alignment))
  reject ((← rem range.1 (← shiftLeft 1 alignment)) ≠ 0)
  reserved b stride p
  let table ← add 64 8 (← mul 64 count stride)
  reject (decide (range.1 < table) || decide (b.length < stop) ||
    s.ranges.any fun earlier => decide (range.1 < earlier.2) && decide (earlier.1 < stop))
  let arm ← native cache b p range.1 stop s.arm
  return { arm, ranges := s.ranges ++ [(range.1, stop)] }

/-- SRCLINE: image.rs:67-97 -/
def entries (cache : String → Bool) (b : List UInt8) (stride count : ℕ) : ℕ → ℕ → Slices → Check Slices
  | 0, _, s => return s
  | remaining + 1, i, s => do
    let s ← entry cache b stride count i s
    entries cache b stride count remaining (i + 1) s

/-- SRCLINE: image.rs:56-101 -/
def universal (cache : String → Bool) (b : List UInt8) : Check (List ℕ) := do
  let fat ← big b 0
  reject (fat ≠ 0xcafebabe && fat ≠ 0xcafebabf)
  let count ← big b 4
  reject (count = 0 || decide (16 < count))
  let s ← entries cache b (if fat = 0xcafebabf then 32 else 20) count count 0 { arm := [], ranges := [] }
  reject s.arm.isEmpty
  return s.arm

/-- SRCLINE: image.rs:48-102 -/
def macho (cache : String → Bool) (b : List UInt8) : Check (List ℕ) := do
  reject (decide (64 * 1024 * 1024 < b.length))
  let magic ← word b 0
  if magic = 0xfeedfacf then do
    slice cache b
    return [0]
  else universal cache b

end VaultAccess.Model.MachO
