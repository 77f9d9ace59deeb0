import RequestBus.Text.Utf8

namespace RequestBus.Base64

inductive Error where
  | invalidSymbol (offset : Nat) (byte : UInt8)
  | invalidLength (length : Nat)
  | invalidLastSymbol (offset : Nat) (byte : UInt8)
  | invalidPadding
  deriving DecidableEq, Repr

def Error.message : Error → String
  | .invalidSymbol offset byte => s!"Invalid symbol {byte.toNat}, offset {offset}."
  | .invalidLength length => s!"Invalid input length: {length}"
  | .invalidLastSymbol offset byte => s!"Invalid last symbol {byte.toNat}, offset {offset}."
  | .invalidPadding => "Invalid padding"

def pad : UInt8 := 0x3D

def symbol (n : Nat) : UInt8 :=
  if n < 26 then UInt8.ofNat (0x41 + n)
  else if n < 52 then UInt8.ofNat (0x61 + (n - 26))
  else if n < 62 then UInt8.ofNat (0x30 + (n - 52))
  else if n = 62 then 0x2B
  else 0x2F

def value? (b : UInt8) : Option Nat :=
  let n := b.toNat
  if 0x41 ≤ n ∧ n ≤ 0x5A then some (n - 0x41)
  else if 0x61 ≤ n ∧ n ≤ 0x7A then some (n - 0x61 + 26)
  else if 0x30 ≤ n ∧ n ≤ 0x39 then some (n - 0x30 + 52)
  else if n = 0x2B then some 62
  else if n = 0x2F then some 63
  else none

def encodeBytes : Bytes → Bytes
  | [] => []
  | [a] =>
    [symbol (a.toNat / 4), symbol (a.toNat % 4 * 16), pad, pad]
  | [a, b] =>
    [symbol (a.toNat / 4), symbol (a.toNat % 4 * 16 + b.toNat / 16),
      symbol (b.toNat % 16 * 4), pad]
  | a :: b :: c :: rest =>
    symbol (a.toNat / 4) :: symbol (a.toNat % 4 * 16 + b.toNat / 16) ::
      symbol (b.toNat % 16 * 4 + c.toNat / 64) :: symbol (c.toNat % 64) :: encodeBytes rest

def encode (payload : Bytes) : String :=
  String.ofList ((encodeBytes payload).map fun b => Char.ofNat b.toNat)

def values (offset : Nat) : Bytes → Except Error (List Nat)
  | [] => .ok []
  | b :: rest =>
    match value? b with
    | none => .error (.invalidSymbol offset b)
    | some n => (values (offset + 1) rest).map (n :: ·)

def decodeLast (offset : Nat) (group : Bytes) : Except Error Bytes := do
  let symbols := group.takeWhile (· != pad)
  let padding := group.dropWhile (· != pad)
  let bits ← values offset symbols
  if padding ≠ [] ∧ (symbols.length < 2 ∨ padding.any (· != pad)) then
    .error (.invalidSymbol (offset + symbols.length) pad)
  else if symbols.length = 1 then
    .error (.invalidLength (offset + 1))
  else if group.length % 4 ≠ 0 then
    .error .invalidPadding
  else
    match bits, symbols with
    | [a, b], [_, last] =>
      if b % 16 = 0 then .ok [UInt8.ofNat (a * 4 + b / 16)]
      else .error (.invalidLastSymbol (offset + 1) last)
    | [a, b, c], [_, _, last] =>
      if c % 4 = 0 then
        .ok [UInt8.ofNat (a * 4 + b / 16), UInt8.ofNat (b % 16 * 16 + c / 4)]
      else .error (.invalidLastSymbol (offset + 2) last)
    | [a, b, c, d], _ =>
      .ok [UInt8.ofNat (a * 4 + b / 16), UInt8.ofNat (b % 16 * 16 + c / 4),
        UInt8.ofNat (c % 4 * 64 + d)]
    | _, _ => .ok []

def decodeFrom (offset : Nat) : Bytes → Except Error Bytes
  | a :: b :: c :: d :: e :: rest => do
    let group ← decodeGroup offset a b c d
    return group ++ (← decodeFrom (offset + 4) (e :: rest))
  | group => decodeLast offset group
where
  decodeGroup (offset : Nat) (a b c d : UInt8) : Except Error Bytes := do
    match ← values offset [a, b, c, d] with
    | [w, x, y, z] =>
      return [UInt8.ofNat (w * 4 + x / 16), UInt8.ofNat (x % 16 * 16 + y / 4),
        UInt8.ofNat (y % 4 * 64 + z)]
    | _ => return []

/-- A sign that cannot be the one left over after full groups: neither symbol nor padding. -/
def strayEnd? (text : Bytes) : Option UInt8 :=
  if text.length % 4 = 1 then
    text.getLast?.filter fun b => b != pad && (value? b).isNone
  else none

/-- The payload that the signs stand for. A stray sign at the very end is reported before
anything else. -/
def decodeBytes (text : Bytes) : Except Error Bytes :=
  match strayEnd? text with
  | some b => .error (.invalidSymbol (text.length - 1) b)
  | none => decodeFrom 0 text

def decode (text : String) : Except Error Bytes := decodeBytes (Utf8.encode text)

end RequestBus.Base64
