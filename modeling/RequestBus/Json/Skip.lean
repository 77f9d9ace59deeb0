import RequestBus.Json.Lexical

/-! Skipping a JSON value whose content is of no interest. Its syntax is checked to any depth,
with the open lists and objects on a stack; its text need not be Unicode and its numbers may
be of any size. -/
namespace RequestBus.Json

inductive Frame where
  | list
  | object
  deriving DecidableEq, Repr

def Frame.close : Frame → UInt8
  | .list => 0x5D
  | .object => 0x7D

def Frame.endInside : Frame → Cause
  | .list => .endInList
  | .object => .endInObject

def Frame.expectedEnd : Frame → Cause
  | .list => .expectedListEnd
  | .object => .expectedObjectEnd

def commaByte : UInt8 := 0x2C

def colonByte : UInt8 := 0x3A

def openList : UInt8 := 0x5B

def openObject : UInt8 := 0x7B

def readColon (s : Bytes) : Except Fault Bytes :=
  match skipBlanks s with
  | [] => .error (.before .endInObject [])
  | b :: rest => if b = colonByte then .ok rest else .error (.past .expectedColon (b :: rest))

def skipQuoted : Bytes → Except Fault Bytes
  | [] => .error (.before .endInText [])
  | b :: rest =>
    if b = quoteByte then .ok rest
    else if b = backslashByte then
      match rest with
      | [] => .error (.before .endInText [])
      | e :: after =>
        if e = 0x75 then
          match after with
          | h₁ :: h₂ :: h₃ :: h₄ :: after =>
            if [h₁, h₂, h₃, h₄].all (fun h => (hexDigit? h).isSome) then skipQuoted after
            else .error (.before .invalidEscape after)
          | _ => .error (.before .endInText [])
        else if (shortEscape? e).isSome then skipQuoted after
        else .error (.before .invalidEscape after)
    else if b < 0x20 then .error (.before .controlCharacter (b :: rest))
    else skipQuoted rest

def skipName (s : Bytes) : Except Fault Bytes :=
  match skipBlanks s with
  | [] => .error (.before .endInObject [])
  | b :: rest => do
    if b = quoteByte then readColon (← skipQuoted rest)
    else .error (.past .nameNotText (b :: rest))

def skipScalar (s : Bytes) : Except Fault Bytes :=
  match s with
  | 0x6E :: rest => readLiteral nullTail rest
  | 0x74 :: rest => readLiteral trueTail rest
  | 0x66 :: rest => readLiteral falseTail rest
  | b :: rest =>
    if b = quoteByte then skipQuoted rest
    else if b = 0x2D ∨ isDigit b then (scanNumeral .invalidNumber s).map (·.2)
    else .error (.past .expectedValue s)
  | [] => .error (.before .endInValue [])

def skipAfter : List Frame → Bytes → Except Fault (List Frame × Bytes)
  | [], s => .ok ([], s)
  | frame :: outer, s =>
    match skipBlanks s with
    | [] => .error (.before frame.endInside [])
    | b :: rest =>
      if b = commaByte then
        match frame with
        | .list => .ok (frame :: outer, rest)
        | .object => (skipName rest).map fun s => (frame :: outer, s)
      else if b = frame.close then skipAfter outer rest
      else .error (.past frame.expectedEnd (b :: rest))

def skipOne (frames : List Frame) (s : Bytes) : Except Fault (List Frame × Bytes) :=
  match skipBlanks s with
  | [] => .error (.before .endInValue [])
  | b :: rest =>
    if b = openList then
      match skipBlanks rest with
      | [] => .error (.before .endInList [])
      | c :: after =>
        if c = Frame.close .list then skipAfter frames after
        else .ok (.list :: frames, c :: after)
    else if b = openObject then
      match skipBlanks rest with
      | [] => .error (.before .endInObject [])
      | c :: after =>
        if c = Frame.close .object then skipAfter frames after
        else (skipName (c :: after)).map fun s => (.object :: frames, s)
    else do
      skipAfter frames (← skipScalar (b :: rest))

def skipAll : Nat → List Frame → Bytes → Except Fault Bytes
  | 0, _, _ => .error (.before .endInValue [])
  | fuel + 1, frames, s => do
    let (frames, s) ← skipOne frames s
    if frames = [] then return s else skipAll fuel frames s

/-- Skips one value. Every round reads a byte, so the length of the text bounds them. -/
def skipValue (s : Bytes) : Except Fault Bytes := skipAll (s.length + 1) [] s

end RequestBus.Json
