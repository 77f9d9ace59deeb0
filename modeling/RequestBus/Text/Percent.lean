import RequestBus.Text.Utf8

namespace RequestBus.Text.Percent

def isUnreserved (b : UInt8) : Bool :=
  let n := b.toNat
  (0x30 ≤ n && n ≤ 0x39) || (0x41 ≤ n && n ≤ 0x5A) || (0x61 ≤ n && n ≤ 0x7A) ||
    n == 0x2D || n == 0x2E || n == 0x5F || n == 0x7E

def hexDigit (n : Nat) : Char :=
  if n < 10 then Char.ofNat (0x30 + n) else Char.ofNat (0x41 + (n - 10))

def hexValue? (c : Char) : Option Nat :=
  let n := c.toNat
  if 0x30 ≤ n ∧ n ≤ 0x39 then some (n - 0x30)
  else if 0x41 ≤ n ∧ n ≤ 0x46 then some (n - 0x41 + 10)
  else if 0x61 ≤ n ∧ n ≤ 0x66 then some (n - 0x61 + 10)
  else none

def encodeByte (b : UInt8) : List Char :=
  if isUnreserved b then [Char.ofNat b.toNat]
  else ['%', hexDigit (b.toNat / 16), hexDigit (b.toNat % 16)]

def encodeChars (cs : List Char) : List Char := (Utf8.encodeChars cs).flatMap encodeByte

def encode (s : String) : String := String.ofList (encodeChars s.toList)

/-- The bytes that a percent-encoded text stands for. A percent sign without two digits behind
it, or a character outside ASCII, makes it no such text. -/
def decodeBytes : List Char → Option Bytes
  | '%' :: high :: low :: rest => do
    let h ← hexValue? high
    let l ← hexValue? low
    return UInt8.ofNat (16 * h + l) :: (← decodeBytes rest)
  | c :: rest => do
    if c = '%' ∨ 0x80 ≤ c.toNat then none
    return UInt8.ofNat c.toNat :: (← decodeBytes rest)
  | [] => some []

def decodeChars (cs : List Char) : Option (List Char) := do
  Utf8.decodeChars? (← decodeBytes cs)

end RequestBus.Text.Percent
