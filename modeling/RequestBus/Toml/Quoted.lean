import RequestBus.Text.Quoted

/-! TOML text. Basic text stands in double quotes and has escapes, literal text stands in single
quotes and has none; either may span lines between tripled quotes. Writing takes the first of
these forms that shows the text best. -/
namespace RequestBus.Toml

def hexDigit? (c : Char) : Option Nat :=
  if '0' ≤ c ∧ c ≤ '9' then some (c.toNat - 0x30)
  else if 'A' ≤ c ∧ c ≤ 'F' then some (c.toNat - 0x41 + 10)
  else if 'a' ≤ c ∧ c ≤ 'f' then some (c.toNat - 0x61 + 10)
  else none

def readCodePoint (count : Nat) (cs : List Char) : Option (Char × List Char) := do
  let ds ← (cs.take count).mapM hexDigit?
  let n := ds.foldl (fun n d => n * 16 + d) 0
  if ds.length = count ∧ (n < 0xD800 ∨ (0xE000 ≤ n ∧ n < 0x110000)) then
    some (Char.ofNat n, cs.drop count)
  else none

def readEscape : List Char → Option (Char × List Char)
  | [] => none
  | c :: rest =>
    if c = 'b' then some (Char.ofNat 0x08, rest)
    else if c = 't' then some ('\t', rest)
    else if c = 'n' then some ('\n', rest)
    else if c = 'f' then some (Char.ofNat 0x0C, rest)
    else if c = 'r' then some ('\r', rest)
    else if c = 'e' then some (Char.ofNat 0x1B, rest)
    else if c = '"' ∨ c = '\\' then some (c, rest)
    else if c = 'x' then readCodePoint 2 rest
    else if c = 'u' then readCodePoint 4 rest
    else if c = 'U' then readCodePoint 8 rest
    else none

def isPlain (c : Char) : Bool := c == '\t' || (0x20 ≤ c.toNat && c.toNat != 0x7F)

def readLine (quote : Char) : Nat → List Char → List Char → Option (List Char × List Char)
  | 0, _, _ => none
  | _, _, [] => none
  | fuel + 1, sofar, c :: rest =>
    if c = quote then some (sofar.reverse, rest)
    else if c = '\\' ∧ quote = '"' then do
      let (e, rest) ← readEscape rest
      readLine quote fuel (e :: sofar) rest
    else if isPlain c then readLine quote fuel (c :: sofar) rest
    else none

/-- Whether a backslash ends its line: nothing but blanks stands before the line break. If so,
the text goes on behind all blanks and line breaks that follow. -/
def behindLineEnd? (cs : List Char) : Option (List Char) :=
  match cs.dropWhile fun c => c == ' ' || c == '\t' with
  | '\n' :: rest => some (skipBlank rest)
  | '\r' :: '\n' :: rest => some (skipBlank rest)
  | _ => none
where
  skipBlank : List Char → List Char
    | '\r' :: '\n' :: rest => skipBlank rest
    | c :: rest => if c = ' ' ∨ c = '\t' ∨ c = '\n' then skipBlank rest else c :: rest
    | [] => []

/-- Reads text over several lines from behind its opening quotes, at most so many characters.
Up to two quotes may stand together anywhere, also right before the closing ones. -/
def readLines (quote : Char) : Nat → List Char → List Char → Option (List Char × List Char)
  | 0, _, _ => none
  | _, _, [] => none
  | fuel + 1, sofar, c :: rest =>
    if c = quote then
      let more := rest.takeWhile (· == quote)
      let after := rest.dropWhile (· == quote)
      let count := more.length + 1
      if count < 3 then readLines quote fuel (List.replicate count quote ++ sofar) after
      else if count ≤ 5 then some ((List.replicate (count - 3) quote ++ sofar).reverse, after)
      else none
    else if c = '\\' ∧ quote = '"' then
      match behindLineEnd? rest with
      | some rest => readLines quote fuel sofar rest
      | none => do
        let (e, rest) ← readEscape rest
        readLines quote fuel (e :: sofar) rest
    else if c = '\n' then readLines quote fuel ('\n' :: sofar) rest
    else if c = '\r' then
      match rest with
      | '\n' :: rest => readLines quote fuel ('\n' :: sofar) rest
      | _ => none
    else if isPlain c then readLines quote fuel (c :: sofar) rest
    else none

def dropFirstBreak : List Char → List Char
  | '\n' :: rest => rest
  | '\r' :: '\n' :: rest => rest
  | cs => cs

/-- Reads text in any of the four forms; its opening quote is in front. -/
def readText : List Char → Option (List Char × List Char)
  | '"' :: '"' :: '"' :: rest => readLines '"' (rest.length + 1) [] (dropFirstBreak rest)
  | '\'' :: '\'' :: '\'' :: rest => readLines '\'' (rest.length + 1) [] (dropFirstBreak rest)
  | '"' :: rest => readLine '"' (rest.length + 1) [] rest
  | '\'' :: rest => readLine '\'' (rest.length + 1) [] rest
  | _ => none

def longestRun (mark : Char) (cs : List Char) : Nat :=
  (cs.foldl (fun (run, best) c =>
    if c = mark then (run + 1, max best (run + 1)) else (0, best)) (0, 0)).2

def needsEscape (c : Char) : Bool :=
  (c.toNat < 0x20 && c != '\t' && c != '\n') || c.toNat == 0x7F

def capitalDigit (n : Nat) : Char := (Text.hexDigit n).toUpper

def writeChar (acrossLines : Bool) (c : Char) : List Char :=
  if c.toNat = 0x08 then ['\\', 'b']
  else if c = '\t' then ['\\', 't']
  else if c = '\n' then (if acrossLines then ['\n'] else ['\\', 'n'])
  else if c.toNat = 0x0C then ['\\', 'f']
  else if c = '\r' then ['\\', 'r']
  else if c = '\\' then ['\\', '\\']
  else if c.toNat < 0x20 ∨ c.toNat = 0x7F then
    ['\\', 'u', '0', '0', capitalDigit (c.toNat / 16), capitalDigit (c.toNat % 16)]
  else [c]

/-- Basic text between its quotes; `room` quotes may still stand as they are, and `most` after
any other character. -/
def writeChars (acrossLines : Bool) (most : Nat) : Nat → List Char → List Char
  | _, [] => []
  | room, c :: rest =>
    if c = '"' then
      match room with
      | 0 => '\\' :: '"' :: writeChars acrossLines most most rest
      | room + 1 => '"' :: writeChars acrossLines most room rest
    else writeChar acrossLines c ++ writeChars acrossLines most most rest

def writeBasic (cs : List Char) : List Char := '"' :: writeChars false 0 0 cs ++ ['"']

/-- Text between tripled quotes. Text with line breaks begins on a line of its own. -/
def tripled (quote : Char) (cs inner : List Char) : List Char :=
  let quotes := [quote, quote, quote]
  quotes ++ (if '\n' ∈ cs then ['\n'] else []) ++ inner ++ quotes

def writeBasicLines (cs : List Char) : List Char := tripled '"' cs (writeChars true 2 2 cs)

def writeText (cs : List Char) : List Char :=
  let escapes := cs.any needsEscape
  let breaks := '\n' ∈ cs
  let backslash := '\\' ∈ cs
  if ¬escapes ∧ ¬backslash ∧ ¬breaks ∧ '"' ∉ cs then writeBasic cs
  else if ¬escapes ∧ ¬breaks ∧ '\'' ∉ cs then '\'' :: cs ++ ['\'']
  else if ¬escapes ∧ ¬backslash ∧ longestRun '"' cs ≤ 2 then writeBasicLines cs
  else if ¬escapes ∧ longestRun '\'' cs ≤ 2 then tripled '\'' cs cs
  else if breaks then writeBasicLines cs
  else writeBasic cs

end RequestBus.Toml
