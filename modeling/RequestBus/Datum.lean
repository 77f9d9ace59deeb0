import RequestBus.Json.Error
import RequestBus.Json.Value

namespace RequestBus

inductive Datum where
  | null
  | flag (b : Bool)
  | whole (n : Int)
  | real (shown : String)
  | text (s : String)
  | list (items : List Datum)
  | table (members : List (String × Datum))
  deriving Repr

namespace Datum

/-- A date or a time. Nothing looks into it, so it is a table without known members. -/
def moment : Datum := .table []

def describe : Datum → String
  | .null => "null"
  | .flag true => "boolean `true`"
  | .flag false => "boolean `false`"
  | .whole n =>
    let shown := "integer `" ++ Decimal.intText n ++ "`"
    if n < -(Nat.pow 2 63 : Int) ∨ (Nat.pow 2 64 : Int) ≤ n then
      if (Nat.pow 2 127 : Int) ≤ n then shown ++ " as u128" else shown ++ " as i128"
    else shown
  | .real shown => "floating point `" ++ shown ++ "`"
  | .text s => "string " ++ Text.quoted s
  | .list _ => "sequence"
  | .table _ => "map"

mutual

def ofJson : Json.Value → Datum
  | .null => .null
  | .flag b => .flag b
  | .number (.whole n) => .whole n
  | .number (.real x) => .real (Json.numberNotation.text x)
  | .text s => .text s
  | .list items => .list (ofJsonItems items)
  | .object members => .table (ofJsonMembers members)

def ofJsonItems : List Json.Value → List Datum
  | [] => []
  | v :: more => ofJson v :: ofJsonItems more

def ofJsonMembers : List (String × Json.Value) → List (String × Datum)
  | [] => []
  | (name, v) :: more => (name, ofJson v) :: ofJsonMembers more

end

mutual

def toJson : Datum → Json.Value
  | .null => .null
  | .flag b => .flag b
  | .whole n => .number (.whole n)
  | .real shown => .text shown
  | .text s => .text s
  | .list items => .list (toJsonItems items)
  | .table members => .object (toJsonMembers members)

def toJsonItems : List Datum → List Json.Value
  | [] => []
  | d :: more => toJson d :: toJsonItems more

def toJsonMembers : List (String × Datum) → List (String × Json.Value)
  | [] => []
  | (name, d) :: more => (name, toJson d) :: toJsonMembers more

end

end Datum

end RequestBus
