import VaultAccess.Model.Companion

/-!
# The companion's texts of bytes

`companion/rust/src/provider/approval_v2.rs`: the hand-written base64url and hexadecimal codecs, in
which identities, tickets, keys and signatures travel.
-/

set_option autoImplicit false

namespace VaultAccess.Model.Companion

open VaultAccess.Library VaultAccess.Library.Text

/-- SRCLINE: approval_v2.rs:116-118 -/
def hex (data : List UInt8) : String := String.ofList (Model.hex data)

def B64URL : List UInt8 := bytes "ABCDEFGHIJKLMNOPQRSTUVWXYZabcdefghijklmnopqrstuvwxyz0123456789-_"

/-- `chunks(3)`. -/
def chunks3 : List UInt8 → List (List UInt8)
  | a :: b :: c :: rest => [a, b, c] :: chunks3 rest
  | [] => []
  | chunk => [chunk]

/-- The bytes of a chunk, each at its place among 24 bits. -/
def chunkBits (chunk : List UInt8) : ℕ :=
  chunk.zipIdx.foldl (fun n byte => n ||| byte.1.toNat <<< (16 - 8 * byte.2)) 0

/-- SRCLINE: approval_v2.rs:147-155 -/
def encodeChunk (chunk : List UInt8) : List UInt8 :=
  (List.range (chunk.length + 1)).map fun i => B64URL.getD ((chunkBits chunk >>> (18 - 6 * i)) &&& 63) 0

/-- SRCLINE: approval_v2.rs:145-157 -/
def base64url (data : List UInt8) : String :=
  String.ofList (((chunks3 data).flatMap encodeChunk).map fun byte => Char.ofNat byte.toNat)

/-- The variables of the decoder's loop. Fewer than eight bits are left after every turn, so that
`bits` stays far below `2 ^ 32`. -/
structure Decoding where
  bits : ℕ
  count : ℕ
  out : List UInt8
  deriving DecidableEq, Repr

/-- One character.
SRCLINE: approval_v2.rs:164-173 -/
def decodeByte (d : Decoding) (c : UInt8) : Option Decoding := do
  let v ← B64URL.idxOf? c
  let bits := d.bits <<< 6 ||| v
  let count := d.count + 6
  if 8 ≤ count then
    pure ⟨bits &&& (1 <<< (count - 8) - 1), count - 8, d.out ++ [UInt8.ofNat (bits >>> (count - 8))]⟩
  else pure ⟨bits, count, d.out⟩

/-- SRCLINE: approval_v2.rs:160-175 -/
def base64urlDecode (value : String) : Option (List UInt8) := do
  let d ← (bytes value).foldlM decodeByte ⟨0, 0, []⟩
  if base64url d.out = value then some d.out else none

example : base64url (bytes "light work.") = "bGlnaHQgd29yay4" := by decide +kernel
example : base64urlDecode "bGlnaHQgd29yay5" = none := by decide +kernel

end VaultAccess.Model.Companion
