import RequestBus.Toml.Quoted
import RequestBus.Toml.Scalar

namespace RequestBus.Toml

inductive Term where
  | scalar (d : Datum)
  | list (items : List Term)
  | inline (entries : List (List String × Term))

inductive Line where
  | entry (key : List String) (value : Term)
  | header (key : List String)
  | rowHeader (key : List String)

def skipSpace (cs : List Char) : List Char := cs.dropWhile fun c => c == ' ' || c == '\t'

def skipComment : List Char → List Char
  | '#' :: rest => rest.dropWhile isPlain
  | cs => cs

def nextLine? : List Char → Option (List Char)
  | [] => some []
  | '\n' :: rest => some rest
  | '\r' :: '\n' :: rest => some rest
  | _ => none

def skipLines : Nat → List Char → List Char
  | 0, cs => cs
  | fuel + 1, cs =>
    match skipComment (skipSpace cs) with
    | '\n' :: rest => skipLines fuel rest
    | '\r' :: '\n' :: rest => skipLines fuel rest
    | cs => cs

def skipGap (cs : List Char) : List Char := skipLines cs.length cs

def isBareKeyChar (c : Char) : Bool := c.isAlphanum || c == '_' || c == '-'

def readName (cs : List Char) : Option (String × List Char) :=
  match cs with
  | '"' :: rest => (readLine '"' (rest.length + 1) [] rest).map named
  | '\'' :: rest => (readLine '\'' (rest.length + 1) [] rest).map named
  | cs =>
    let name := cs.takeWhile isBareKeyChar
    if name = [] then none else some (String.ofList name, cs.dropWhile isBareKeyChar)
where
  named (r : List Char × List Char) : String × List Char := (String.ofList r.1, r.2)

def readNames : Nat → List Char → Option (List String × List Char)
  | 0, _ => none
  | fuel + 1, cs => do
    let (name, cs) ← readName (skipSpace cs)
    match skipSpace cs with
    | '.' :: rest =>
      let (names, cs) ← readNames fuel rest
      return (name :: names, cs)
    | cs => return ([name], cs)

def readKey (cs : List Char) : Option (List String × List Char) := readNames (cs.length + 1) cs

def endsWord (c : Char) : Bool :=
  c == ' ' || c == '\t' || c == '\n' || c == '\r' || c == ',' || c == ']' || c == '}' ||
    c == '#' || c == '='

/-- Reads a bare scalar. A date may be followed by one blank and a time. -/
def readScalar (cs : List Char) : Option (Term × List Char) :=
  let word := cs.takeWhile (!endsWord ·)
  let rest := cs.dropWhile (!endsWord ·)
  match behindDate? word, rest with
  | some [], ' ' :: d :: more =>
    if d.isDigit then
      let time := (d :: more).takeWhile (!endsWord ·)
      (scalar? (word ++ ' ' :: time)).map fun v => (.scalar v, (d :: more).dropWhile (!endsWord ·))
    else (scalar? word).map fun v => (.scalar v, rest)
  | _, _ => (scalar? word).map fun v => (.scalar v, rest)

def readListItems (item : List Char → Option (Term × List Char)) :
    Nat → List Char → Option (List Term × List Char)
  | 0, _ => none
  | fuel + 1, cs =>
    match skipGap cs with
    | ']' :: rest => some ([], rest)
    | cs => do
      let (v, cs) ← item cs
      match skipGap cs with
      | ',' :: rest =>
        let (more, cs) ← readListItems item fuel rest
        return (v :: more, cs)
      | ']' :: rest => return ([v], rest)
      | _ => none

def readEntry (item : List Char → Option (Term × List Char)) (cs : List Char) :
    Option ((List String × Term) × List Char) := do
  let (key, cs) ← readKey cs
  match cs with
  | '=' :: rest =>
    let (v, cs) ← item (skipSpace rest)
    return ((key, v), cs)
  | _ => none

def readEntries (item : List Char → Option (Term × List Char)) :
    Nat → List Char → Option (List (List String × Term) × List Char)
  | 0, _ => none
  | fuel + 1, cs =>
    match skipGap cs with
    | '}' :: rest => some ([], rest)
    | cs => do
      let (e, cs) ← readEntry item cs
      match skipGap cs with
      | ',' :: rest =>
        let (more, cs) ← readEntries item fuel rest
        return (e :: more, cs)
      | '}' :: rest => return ([e], rest)
      | _ => none

/-- How many lists and inline tables may stand inside each other. -/
def nesting : Nat := 80

/-- Reads a value, in which at most `depth` containers stand inside each other. -/
def readTerm : Nat → List Char → Option (Term × List Char)
  | depth, cs =>
    match cs with
    | '"' :: _ => (readText cs).map fun (t, rest) => (.scalar (.text (String.ofList t)), rest)
    | '\'' :: _ => (readText cs).map fun (t, rest) => (.scalar (.text (String.ofList t)), rest)
    | '[' :: rest =>
      match depth with
      | 0 => none
      | depth + 1 =>
        (readListItems (readTerm depth) (rest.length + 1) rest).map fun (items, rest) =>
          (.list items, rest)
    | '{' :: rest =>
      match depth with
      | 0 => none
      | depth + 1 =>
        (readEntries (readTerm depth) (rest.length + 1) rest).map fun (entries, rest) =>
          (.inline entries, rest)
    | cs => readScalar cs

def readLineContent (cs : List Char) : Option (Option Line × List Char) :=
  match cs with
  | '[' :: '[' :: rest => do
    let (key, cs) ← readKey rest
    match cs with
    | ']' :: ']' :: rest => return (some (.rowHeader key), rest)
    | _ => none
  | '[' :: rest => do
    let (key, cs) ← readKey rest
    match cs with
    | ']' :: rest => return (some (.header key), rest)
    | _ => none
  | [] => some (none, [])
  | c :: rest =>
    if c = '#' ∨ c = '\n' ∨ c = '\r' then some (none, c :: rest)
    else (readEntry (readTerm nesting) (c :: rest)).map fun ((key, v), cs) =>
      (some (.entry key v), cs)

def readLinesOf : Nat → List Char → Option (List Line)
  | 0, _ => some []
  | fuel + 1, cs =>
    if cs = [] then some []
    else do
      let (line, cs) ← readLineContent (skipSpace cs)
      let cs ← nextLine? (skipComment (skipSpace cs))
      let lines ← readLinesOf fuel cs
      return line.toList ++ lines

/-- The lines of a document. A byte order mark at its beginning is left out. -/
def lines? (document : List Char) : Option (List Line) :=
  match document with
  | c :: rest =>
    if c.toNat = 0xFEFF then readLinesOf (rest.length + 1) rest
    else readLinesOf (rest.length + 2) (c :: rest)
  | [] => some []

end RequestBus.Toml
