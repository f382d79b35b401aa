import Mathlib.Data.Nat.Notation
import Mathlib.Data.List.Basic
import Mathlib.Tactic.SplitIfs

/-!
# JSON documents and their compact text

A document tree and the compact writer: no white space, members in the order
given, strings escaped only where JSON demands it (quote, backslash and the
control characters below U+0020), everything else written as it is. Sizes are
counted in UTF-8 bytes.
-/

set_option autoImplicit false

namespace VaultAccess.Library

/-- A JSON document. Object members keep their order. -/
inductive Json where
  | null
  | bool (value : Bool)
  | int (value : Int)
  | str (value : String)
  | arr (items : List Json)
  | obj (members : List (String × Json))
  deriving Inhabited

namespace Json

/-- Lowercase hexadecimal digit. -/
def hexDigit (n : ℕ) : Char :=
  if n < 10 then Char.ofNat (n + 48) else Char.ofNat (n - 10 + 97)

/-- One character of a JSON string. -/
def escapeChar (c : Char) : List Char :=
  if c = '"' then ['\\', '"']
  else if c = '\\' then ['\\', '\\']
  else if c.toNat = 8 then ['\\', 'b']
  else if c.toNat = 9 then ['\\', 't']
  else if c.toNat = 10 then ['\\', 'n']
  else if c.toNat = 12 then ['\\', 'f']
  else if c.toNat = 13 then ['\\', 'r']
  else if c.toNat < 32 then ['\\', 'u', '0', '0', hexDigit (c.toNat / 16), hexDigit (c.toNat % 16)]
  else [c]

/-- A quoted JSON string. -/
def quote (s : String) : List Char :=
  '"' :: s.toList.flatMap escapeChar ++ ['"']

/-- Decimal text of an integer. -/
def decimal (n : Int) : List Char := (toString n).toList

mutual

/-- The compact text of a document. -/
def render : Json → List Char
  | null => ['n', 'u', 'l', 'l']
  | bool true => ['t', 'r', 'u', 'e']
  | bool false => ['f', 'a', 'l', 's', 'e']
  | int n => decimal n
  | str s => quote s
  | arr items => '[' :: renderItems items ++ [']']
  | obj members => '{' :: renderMembers members ++ ['}']

/-- The items of an array, separated by commas. -/
def renderItems : List Json → List Char
  | [] => []
  | [item] => render item
  | item :: rest => render item ++ ',' :: renderItems rest

/-- The members of an object, separated by commas. -/
def renderMembers : List (String × Json) → List Char
  | [] => []
  | [(name, value)] => quote name ++ ':' :: render value
  | (name, value) :: rest => quote name ++ ':' :: render value ++ ',' :: renderMembers rest

end

/-- The text of a document as UTF-8 bytes. -/
def toVec (document : Json) : List UInt8 := (render document).flatMap String.utf8EncodeChar

end Json

end VaultAccess.Library
