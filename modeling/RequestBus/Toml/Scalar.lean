import RequestBus.Datum

namespace RequestBus.Toml

open Decimal

/-- The digits at the front of a word, with single underscores between them left out, and the
rest of the word. -/
def digitsFrom (isDigit : Char → Bool) : List Char → List Char × List Char
  | [] => ([], [])
  | '_' :: c :: rest =>
    if isDigit c then
      let (ds, rest) := digitsFrom isDigit rest
      (c :: ds, rest)
    else ([], '_' :: c :: rest)
  | c :: rest =>
    if isDigit c then
      let (ds, rest) := digitsFrom isDigit rest
      (c :: ds, rest)
    else ([], c :: rest)

def digits? (isDigit : Char → Bool) : List Char → Option (List Char × List Char)
  | [] => none
  | c :: rest =>
    if isDigit c then
      let (ds, rest) := digitsFrom isDigit rest
      some (c :: ds, rest)
    else none

def digitValue (c : Char) : Nat :=
  if c.isDigit then c.toNat - 0x30
  else if 'a' ≤ c ∧ c ≤ 'f' then c.toNat - 0x61 + 10
  else if 'A' ≤ c ∧ c ≤ 'F' then c.toNat - 0x41 + 10
  else 16

def valueIn (base : Nat) (ds : List Char) : Nat :=
  ds.foldl (fun n c => n * base + digitValue c) 0

def basedNumber? (base : Nat) (cs : List Char) : Option Datum :=
  match digits? (fun c => digitValue c < base) cs with
  | some (ds, []) => some (.whole (valueIn base ds))
  | _ => none

/-- The largest number that a floating-point text may be worth is below this power of ten. -/
def decimalLimit : Int := 400

def realNotation : Notation :=
  { leastPositional := -decimalLimit, greatestPositional := decimalLimit, wholeSuffix := ".0",
    exponentPlus := "" }

def realNumber? (negative : Bool) (ds : List Char) (exponent : Int) : Option Datum :=
  let n := valueIn 10 ds
  let magnitude :=
    if n = 0 ∨ exponent + ds.length < -decimalLimit then some 0
    else if decimalLimit < exponent then none
    else
      match exponent with
      | .ofNat k => Binary64.ofQuotient? (n * Nat.pow 10 k) 1
      | .negSucc k => Binary64.ofQuotient? n (Nat.pow 10 (k + 1))
  magnitude.map fun m => .real (realNotation.text ⟨negative, m⟩)

def exponent? (cs : List Char) : Option Int :=
  let (negative, cs) :=
    match cs with
    | '-' :: rest => (true, rest)
    | '+' :: rest => (false, rest)
    | cs => (false, cs)
  match digits? Char.isDigit cs with
  | some (ds, []) => some (if negative then -(valueIn 10 ds : Int) else valueIn 10 ds)
  | _ => none

def decimalNumber? (negative : Bool) (cs : List Char) : Option Datum := do
  let (whole, rest) ← digits? Char.isDigit cs
  if 1 < whole.length ∧ whole.head? = some '0' then none
  match rest with
  | [] =>
    let n := valueIn 10 whole
    return .whole (if negative then -(n : Int) else n)
  | '.' :: rest =>
    let (fraction, rest) ← digits? Char.isDigit rest
    match rest with
    | [] => realNumber? negative (whole ++ fraction) (-(fraction.length : Int))
    | e :: rest =>
      if e ≠ 'e' ∧ e ≠ 'E' then none
      realNumber? negative (whole ++ fraction) ((← exponent? rest) - fraction.length)
  | e :: rest =>
    if e ≠ 'e' ∧ e ≠ 'E' then none
    realNumber? negative whole (← exponent? rest)

def number? : List Char → Option Datum
  | '0' :: 'x' :: rest => basedNumber? 16 rest
  | '0' :: 'o' :: rest => basedNumber? 8 rest
  | '0' :: 'b' :: rest => basedNumber? 2 rest
  | '+' :: rest => signed false rest
  | '-' :: rest => signed true rest
  | cs => signed false cs
where
  signed (negative : Bool) (cs : List Char) : Option Datum :=
    if cs = ['i', 'n', 'f'] then some (.real (if negative then "-inf" else "inf"))
    else if cs = ['n', 'a', 'n'] then some (.real "NaN")
    else decimalNumber? negative cs

def fixed? (count : Nat) (cs : List Char) : Option (Nat × List Char) :=
  let ds := cs.take count
  if ds.length = count ∧ ds.all Char.isDigit then some (valueIn 10 ds, cs.drop count) else none

def behind? (mark : Char) : List Char → Option (List Char)
  | [] => none
  | c :: rest => if c = mark then some rest else none

def isLeapYear (year : Nat) : Bool := year % 4 == 0 && (year % 100 != 0 || year % 400 == 0)

def daysIn (year month : Nat) : Nat :=
  if month = 2 then (if isLeapYear year then 29 else 28)
  else if month ∈ [4, 6, 9, 11] then 30
  else 31

def behindDate? (cs : List Char) : Option (List Char) := do
  let (year, cs) ← fixed? 4 cs
  let (month, cs) ← fixed? 2 (← behind? '-' cs)
  let (day, cs) ← fixed? 2 (← behind? '-' cs)
  if 1 ≤ month ∧ month ≤ 12 ∧ 1 ≤ day ∧ day ≤ daysIn year month then some cs else none

/-- The word behind a time of day; seconds and their fractions may be left off. -/
def behindTime? (cs : List Char) : Option (List Char) := do
  let (hour, cs) ← fixed? 2 cs
  let (minute, cs) ← fixed? 2 (← behind? ':' cs)
  if 23 < hour ∨ 59 < minute then none
  match cs with
  | ':' :: cs =>
    let (second, cs) ← fixed? 2 cs
    if 60 < second then none
    match cs with
    | '.' :: cs =>
      if (cs.takeWhile Char.isDigit).isEmpty then none
      return cs.dropWhile Char.isDigit
    | cs => return cs
  | cs => return cs

def isOffset : List Char → Bool
  | [] => true
  | ['Z'] => true
  | ['z'] => true
  | sign :: cs =>
    (sign == '+' || sign == '-') &&
      ((do
        let (hour, cs) ← fixed? 2 cs
        let (minute, cs) ← fixed? 2 (← behind? ':' cs)
        return decide (hour ≤ 23 ∧ minute ≤ 59 ∧ cs = [])).getD false)

def isMoment (cs : List Char) : Bool :=
  match behindDate? cs with
  | some [] => true
  | some (t :: rest) =>
    (t == 'T' || t == 't' || t == ' ') &&
      (match behindTime? rest with
        | some rest => isOffset rest
        | none => false)
  | none => behindTime? cs == some []

def scalar? (word : List Char) : Option Datum :=
  if word = ['t', 'r', 'u', 'e'] then some (.flag true)
  else if word = ['f', 'a', 'l', 's', 'e'] then some (.flag false)
  else if isMoment word then some .moment
  else number? word

end RequestBus.Toml
