import RequestBus.Json.Skip

namespace RequestBus.Json

open Decimal

/-- How many containers may be open inside each other. -/
def nesting : Nat := 127

def nextItem (first : Bool) (s : Bytes) : Except Fault (Front Bool) :=
  match skipBlanks s with
  | [] => .error (.before .endInList [])
  | b :: rest =>
    if b = Frame.close .list then .ok (false, rest)
    else if first then .ok (true, b :: rest)
    else if b = commaByte then
      match skipBlanks rest with
      | [] => .error (.before .endInValue [])
      | c :: after =>
        if c = Frame.close .list then .error (.past .trailingComma (c :: after))
        else .ok (true, c :: after)
    else .error (.past .expectedListEnd (b :: rest))

def nextName (first : Bool) (s : Bytes) : Except Fault (Front (Option String)) :=
  match skipBlanks s with
  | [] => .error (.before .endInObject [])
  | b :: rest =>
    if b = Frame.close .object then .ok (none, rest)
    else if first then
      if b = quoteByte then (readText rest).map fun (name, s) => (some name, s)
      else .error (.past .nameNotText (b :: rest))
    else if b = commaByte then
      match skipBlanks rest with
      | [] => .error (.before .endInValue [])
      | c :: after =>
        if c = quoteByte then (readText after).map fun (name, s) => (some name, s)
        else if c = Frame.close .object then .error (.past .trailingComma (c :: after))
        else .error (.past .nameNotText (c :: after))
    else .error (.past .expectedObjectEnd (b :: rest))

/-- Reads the items of a list, at most `fuel`, with a state that each item changes. -/
def foldItems (onItem : σ → Bytes → Except Fault (Front σ)) :
    Nat → Bool → σ → Bytes → Except Fault (Front σ)
  | 0, _, _, _ => .error (.before .endInList [])
  | fuel + 1, first, state, s => do
    match ← nextItem first s with
    | (false, s) => return (state, s)
    | (true, s) => do
      let (state, s) ← onItem state s
      foldItems onItem fuel false state s

def foldMembers (onMember : σ → String → Bytes → Except Fault (Front σ)) :
    Nat → Bool → σ → Bytes → Except Fault (Front σ)
  | 0, _, _, _ => .error (.before .endInObject [])
  | fuel + 1, first, state, s => do
    match ← nextName first s with
    | (none, s) => return (state, s)
    | (some name, s) => do
      let (state, s) ← onMember state name s
      foldMembers onMember fuel false state s

def readItems (item : Bytes → Except Fault (Front Value)) (s : Bytes) :
    Except Fault (Front (List Value)) := do
  let (items, s) ← foldItems (fun items s => do
    let (v, s) ← item s
    return (v :: items, s)) (s.length + 1) true [] s
  return (items.reverse, s)

def readDictionary (item : Bytes → Except Fault (Front Value)) (s : Bytes) :
    Except Fault (Front (Dictionary Value)) :=
  foldMembers (fun d name s => do
    let (v, s) ← item (← readColon s)
    return (d.insert name v, s)) (s.length + 1) true Dictionary.empty s

def readValueWith (inside : Except Cause (Bytes → Except Fault (Front Value))) (s : Bytes) :
    Except Fault (Front Value) :=
  match skipBlanks s with
  | [] => .error (.before .endInValue [])
  | 0x6E :: rest => (readLiteral nullTail rest).map fun s => (.null, s)
  | 0x74 :: rest => (readLiteral trueTail rest).map fun s => (.flag true, s)
  | 0x66 :: rest => (readLiteral falseTail rest).map fun s => (.flag false, s)
  | b :: rest =>
    if b = quoteByte then (readText rest).map fun (t, s) => (.text t, s)
    else if b = 0x2D ∨ isDigit b then (readNumber (b :: rest)).map fun (n, s) => (.number n, s)
    else if b = openList then
      match inside with
      | .error cause => .error (.past cause (b :: rest))
      | .ok item => (readItems item rest).map fun (items, s) => (.list items, s)
    else if b = openObject then
      match inside with
      | .error cause => .error (.past cause (b :: rest))
      | .ok item => (readDictionary item rest).map fun (d, s) => (.object d.entries, s)
    else .error (.past .expectedValue (b :: rest))

/-- Reads a value in which at most `depth` containers are open at once. -/
def readValue : Nat → Bytes → Except Fault (Front Value)
  | 0 => readValueWith (.error .tooDeep)
  | depth + 1 => readValueWith (.ok (readValue depth))

/-- What is wrong with a value that is not of the wanted kind. A scalar is read first, and may
be faulty itself; a container is not looked into. -/
def unexpected (wanted : Wanted) (s : Bytes) : Fault :=
  let after (found : Except Fault (Front Found)) : Fault :=
    match found with
    | .ok (found, rest) => .before (.wrongType found wanted) rest
    | .error fault => fault
  match s with
  | 0x6E :: rest => after ((readLiteral nullTail rest).map fun s => (.null, s))
  | 0x74 :: rest => after ((readLiteral trueTail rest).map fun s => (.flag true, s))
  | 0x66 :: rest => after ((readLiteral falseTail rest).map fun s => (.flag false, s))
  | b :: rest =>
    if b = quoteByte then after ((readText rest).map fun (t, s) => (.text t, s))
    else if b = 0x2D ∨ isDigit b then after ((readNumber s).map fun (n, s) => (.number n, s))
    else if b = openList then .before (.wrongType .list wanted) s
    else if b = openObject then .before (.wrongType .object wanted) s
    else .past .expectedValue s
  | [] => .before .endInValue []

def readTextValue (s : Bytes) : Except Fault (Front String) :=
  match skipBlanks s with
  | [] => .error (.before .endInValue [])
  | b :: rest =>
    if b = quoteByte then readText rest else .error (unexpected .text (b :: rest))

def readFlag (s : Bytes) : Except Fault (Front Bool) :=
  match skipBlanks s with
  | [] => .error (.before .endInValue [])
  | 0x74 :: rest => (readLiteral trueTail rest).map fun s => (true, s)
  | 0x66 :: rest => (readLiteral falseTail rest).map fun s => (false, s)
  | s => .error (unexpected .flag s)

def readUnsigned (word : String) (limit : Nat) (s : Bytes) : Except Fault (Front Nat) :=
  match skipBlanks s with
  | [] => .error (.before .endInValue [])
  | b :: rest =>
    if b = 0x2D ∨ isDigit b then do
      match ← readNumber (b :: rest) with
      | (.whole n, after) =>
        if 0 ≤ n ∧ n < limit then return (n.toNat, after)
        else .error (.before (.wrongValue (.number (.whole n)) (.unsigned word)) after)
      | (.real x, after) =>
        .error (.before (.wrongType (.number (.real x)) (.unsigned word)) after)
    else .error (unexpected (.unsigned word) (b :: rest))

def readObjectValue (depth : Nat) (s : Bytes) : Except Fault (Front (Dictionary Value)) :=
  match skipBlanks s with
  | [] => .error (.before .endInValue [])
  | b :: rest =>
    if b = openObject then
      match depth with
      | 0 => .error (.past .tooDeep (b :: rest))
      | depth + 1 => readDictionary (readValue depth) rest
    else .error (unexpected .object (b :: rest))

def readNullable (read : Bytes → Except Fault (Front α)) (s : Bytes) :
    Except Fault (Front (Option α)) :=
  match skipBlanks s with
  | 0x6E :: rest => (readLiteral nullTail rest).map fun s => (none, s)
  | s => (read s).map fun (a, s) => (some a, s)

def readWhole (read : Bytes → Except Fault (Front α)) (text : Bytes) : Except Error α :=
  match read text with
  | .error fault => .error (fault.locate text)
  | .ok (a, rest) =>
    match skipBlanks rest with
    | [] => .ok a
    | rest => .error ((Fault.past .trailingCharacters rest).locate text)

def parse (text : Bytes) : Except Error Value := readWhole (readValue nesting) text

end RequestBus.Json
