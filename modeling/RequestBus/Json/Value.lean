import RequestBus.Decimal.Binary64
import RequestBus.Dictionary

/-! JSON values. Whole numbers that fit 64 bits, signed or unsigned, stay whole; every other
number is the nearest floating-point number. The members of an object stand in ascending order
of their names. -/
namespace RequestBus.Json

open Decimal

inductive Number where
  | whole (n : Int)
  | real (x : Binary64)
  deriving DecidableEq, Repr

inductive Value where
  | null
  | flag (b : Bool)
  | number (n : Number)
  | text (s : String)
  | list (items : List Value)
  | object (members : List (String × Value))
  deriving Repr

namespace Value

def nat (n : Nat) : Value := .number (.whole n)

def ofMembers (members : List (String × Value)) : Value :=
  .object (Dictionary.ofList members).entries

def ofText? : Option String → Value
  | none => .null
  | some s => .text s

def member? (v : Value) (name : String) : Option Value :=
  match v with
  | .object members => (members.find? fun m => m.1 == name).map (·.2)
  | _ => none

end Value

end RequestBus.Json
