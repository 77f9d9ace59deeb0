import RequestBus.Json.Error

namespace RequestBus.Json

open Decimal

abbrev Front (α : Type) := α × Bytes

def isBlank (b : UInt8) : Bool := b == 0x20 || b == 0x0A || b == 0x09 || b == 0x0D

def skipBlanks (s : Bytes) : Bytes := s.dropWhile isBlank

def readLiteral : Bytes → Bytes → Except Fault Bytes
  | [], s => .ok s
  | _ :: _, [] => .error (.before .endInValue [])
  | want :: more, b :: rest =>
    if b = want then readLiteral more rest else .error (.before .expectedLiteral rest)

def nullTail : Bytes := [0x75, 0x6C, 0x6C]

def trueTail : Bytes := [0x72, 0x75, 0x65]

def falseTail : Bytes := [0x61, 0x6C, 0x73, 0x65]

def isDigit (b : UInt8) : Bool := 0x30 ≤ b && b ≤ 0x39

def digitValue (b : UInt8) : Nat := b.toNat - 0x30

structure Numeral where
  negative : Bool
  whole : Bytes
  fraction : Bytes
  exponent : Option (Bool × Bytes)
  deriving DecidableEq, Repr

def scanWhole (atEnd : Cause) : Bytes → Except Fault (Front Bytes)
  | [] => .error (.before atEnd [])
  | b :: rest =>
    if b = 0x30 then
      match rest with
      | d :: _ => if isDigit d then .error (.past .invalidNumber rest) else .ok ([b], rest)
      | [] => .ok ([b], [])
    else if isDigit b then .ok (b :: rest.takeWhile isDigit, rest.dropWhile isDigit)
    else .error (.before .invalidNumber rest)

def scanFraction (atEnd : Cause) : Bytes → Except Fault (Front Bytes)
  | 0x2E :: rest =>
    if rest.takeWhile isDigit = [] then
      .error (.past (if rest = [] then atEnd else .invalidNumber) rest)
    else .ok (rest.takeWhile isDigit, rest.dropWhile isDigit)
  | s => .ok ([], s)

def scanSign : Bytes → Bool × Bytes
  | 0x2B :: rest => (false, rest)
  | 0x2D :: rest => (true, rest)
  | s => (false, s)

def scanExponent (atEnd : Cause) : Bytes → Except Fault (Front (Option (Bool × Bytes)))
  | [] => .ok (none, [])
  | b :: rest =>
    if b = 0x65 ∨ b = 0x45 then
      match (scanSign rest).2 with
      | [] => .error (.before atEnd [])
      | b :: more =>
        if isDigit b then
          .ok (some ((scanSign rest).1, b :: more.takeWhile isDigit), more.dropWhile isDigit)
        else .error (.before .invalidNumber more)
    else .ok (none, b :: rest)

def scanUnsigned (atEnd : Cause) (negative : Bool) (s : Bytes) : Except Fault (Front Numeral) := do
  let (whole, s) ← scanWhole atEnd s
  let (fraction, s) ← scanFraction atEnd s
  let (exponent, s) ← scanExponent atEnd s
  return (⟨negative, whole, fraction, exponent⟩, s)

/-- The numeral at the front. An end of the text inside it has the given cause. -/
def scanNumeral (atEnd : Cause) : Bytes → Except Fault (Front Numeral)
  | 0x2D :: rest => scanUnsigned atEnd true rest
  | s => scanUnsigned atEnd false s

def wordLimit : Nat := Nat.pow 2 64

/-- The first exponent that is treated as boundless. -/
def exponentLimit : Nat := Nat.pow 2 31

/-- Takes digits on while the number still fits an unsigned word: the number, and the digits
that were left over. -/
def takeDigits (sofar : Nat) : Bytes → Nat × Bytes
  | [] => (sofar, [])
  | b :: rest =>
    let next := sofar * 10 + digitValue b
    if next < wordLimit then takeDigits next rest else (sofar, b :: rest)

def exponentValue (sofar : Nat) : Bytes → Except Bytes Nat
  | [] => .ok sofar
  | b :: rest =>
    let next := sofar * 10 + digitValue b
    if next < exponentLimit then exponentValue next rest else .error rest

/-- The number that a numeral stands for. Without point and exponent it stays whole if it fits a
word, signed where there is a minus sign; otherwise it is the nearest floating-point number to
the digits that fit an unsigned word, scaled by the exponent. Where there is none, the error
holds the number of the numeral's digits that were not looked at. -/
def Numeral.value (n : Numeral) : Except Nat Number :=
  let (digits, rest) := takeDigits 0 n.whole
  if n.fraction = [] ∧ n.exponent = none ∧ rest = [] ∧
      (n.negative = false ∨ (0 < digits ∧ digits ≤ Nat.pow 2 63)) then
    .ok (.whole (if n.negative then -(digits : Int) else digits))
  else
    let (digits, ignored) := takeDigits digits n.fraction
    let scale : Int := rest.length - (n.fraction.length - ignored.length : Nat)
    let real (exponent : Int) : Except Nat Number :=
      match Binary64.ofDecimal? digits exponent with
      | some magnitude => .ok (.real ⟨n.negative, magnitude⟩)
      | none => .error 0
    match n.exponent with
    | none => real scale
    | some (negative, ds) =>
      match exponentValue 0 ds with
      | .ok e => real (if negative then scale - e else scale + e)
      | .error unread =>
        if digits = 0 ∨ negative then .ok (.real ⟨n.negative, 0⟩)
        else .error unread.length

def readNumber (s : Bytes) : Except Fault (Front Number) := do
  let (numeral, rest) ← scanNumeral .endInValue s
  match numeral.value with
  | .ok n => return (n, rest)
  | .error unread => .error ⟨.numberOutOfRange, rest.length + unread⟩

def quoteByte : UInt8 := 0x22

def backslashByte : UInt8 := 0x5C

def hexDigit? (b : UInt8) : Option Nat :=
  let n := b.toNat
  if 0x30 ≤ n ∧ n ≤ 0x39 then some (n - 0x30)
  else if 0x41 ≤ n ∧ n ≤ 0x46 then some (n - 0x41 + 10)
  else if 0x61 ≤ n ∧ n ≤ 0x66 then some (n - 0x61 + 10)
  else none

def readHex : Bytes → Except Fault (Front Nat)
  | a :: b :: c :: d :: rest =>
    match hexDigit? a, hexDigit? b, hexDigit? c, hexDigit? d with
    | some a, some b, some c, some d => .ok (((a * 16 + b) * 16 + c) * 16 + d, rest)
    | _, _, _, _ => .error (.before .invalidEscape rest)
  | _ => .error (.before .endInText [])

def shortEscape? (b : UInt8) : Option UInt8 :=
  if b = 0x22 then some 0x22
  else if b = 0x5C then some 0x5C
  else if b = 0x2F then some 0x2F
  else if b = 0x62 then some 0x08
  else if b = 0x66 then some 0x0C
  else if b = 0x6E then some 0x0A
  else if b = 0x72 then some 0x0D
  else if b = 0x74 then some 0x09
  else none

def isLeadingSurrogate (n : Nat) : Bool := 0xD800 ≤ n && n < 0xDC00

def isTrailingSurrogate (n : Nat) : Bool := 0xDC00 ≤ n && n < 0xE000

def readTrailing (leading : Nat) : Bytes → Except Fault (Front Char)
  | [] => .error (.before .endInText [])
  | b :: rest =>
    if b ≠ backslashByte then .error (.before .unfinishedSurrogatePair rest)
    else
      match rest with
      | [] => .error (.before .endInText [])
      | u :: rest =>
        if u ≠ 0x75 then .error (.before .unfinishedSurrogatePair rest)
        else do
          let (trailing, rest) ← readHex rest
          if isTrailingSurrogate trailing then
            return (Char.ofNat ((leading - 0xD800) * 0x400 + (trailing - 0xDC00) + 0x10000), rest)
          else .error (.before .loneSurrogate rest)

def readEscape : Bytes → Except Fault (Front Bytes)
  | [] => .error (.before .endInText [])
  | b :: rest =>
    if b = 0x75 then do
      let (n, rest) ← readHex rest
      if isTrailingSurrogate n then .error (.before .loneSurrogate rest)
      else if isLeadingSurrogate n then do
        let (c, rest) ← readTrailing n rest
        return (Utf8.encodeChar c, rest)
      else return (Utf8.encodeChar (Char.ofNat n), rest)
    else
      match shortEscape? b with
      | some byte => .ok ([byte], rest)
      | none => .error (.before .invalidEscape rest)

theorem length_lt_of_readHex (s rest : Bytes) (n : Nat) (h : readHex s = .ok (n, rest)) :
    rest.length < s.length := by
  unfold readHex at h
  split at h
  · split at h
    · cases h
      simp only [List.length_cons]
      omega
    · contradiction
  · contradiction

theorem length_lt_of_readTrailing (leading : Nat) (s rest : Bytes) (c : Char)
    (h : readTrailing leading s = .ok (c, rest)) : rest.length < s.length := by
  unfold readTrailing at h
  split at h
  · contradiction
  · split at h
    · contradiction
    · split at h
      · contradiction
      · split at h
        · contradiction
        · rename_i b _ _ u rest' _
          cases e : readHex rest' with
          | error f => simp [e, bind, Except.bind] at h
          | ok r =>
            have shorter := length_lt_of_readHex rest' r.2 r.1 e
            simp only [e, bind, Except.bind] at h
            split at h
            · simp only [pure, Except.pure, Except.ok.injEq, Prod.mk.injEq] at h
              simp only [List.length_cons, ← h.2]
              omega
            · contradiction

theorem length_lt_of_readEscape (s rest bytes : Bytes) (h : readEscape s = .ok (bytes, rest)) :
    rest.length < s.length := by
  unfold readEscape at h
  split at h
  · contradiction
  · rename_i b tail
    split at h
    · cases e : readHex tail with
      | error f => simp [e, bind, Except.bind] at h
      | ok r =>
        have shorter := length_lt_of_readHex tail r.2 r.1 e
        simp only [e, bind, Except.bind] at h
        split at h
        · contradiction
        · split at h
          · cases e' : readTrailing r.1 r.2 with
            | error f => simp [e'] at h
            | ok t =>
              have shorter' := length_lt_of_readTrailing r.1 r.2 t.2 t.1 e'
              simp only [e'] at h
              cases h
              simp only [List.length_cons]
              omega
          · cases h
            simp only [List.length_cons]
            omega
    · split at h
      · cases h
        simp
      · contradiction

/-- Reads up to the closing quote; `sofar` holds the bytes read, the last one first. -/
def readQuoted (sofar : Bytes) : Bytes → Except Fault (Front Bytes)
  | [] => .error (.before .endInText [])
  | b :: rest =>
    if b = quoteByte then .ok (sofar.reverse, rest)
    else if b = backslashByte then
      match h : readEscape rest with
      | .error fault => .error fault
      | .ok (bytes, after) =>
        have := length_lt_of_readEscape rest after bytes h
        readQuoted (bytes.reverse ++ sofar) after
    else if b < 0x20 then .error (.before .controlCharacter rest)
    else readQuoted (b :: sofar) rest
termination_by s => s.length
decreasing_by all_goals (simp only [List.length_cons]; omega)

/-- Reads quoted text, from behind its opening quote. Escapes stand for whole characters, so the
first broken one is also the first broken one of the text as written. -/
def readText (s : Bytes) : Except Fault (Front String) := do
  let (bytes, rest) ← readQuoted [] s
  match Utf8.decode? bytes with
  | some text => return (text, rest)
  | none => .error (.past .invalidUtf8 (Utf8.broken s))

end RequestBus.Json
