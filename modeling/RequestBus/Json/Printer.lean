import RequestBus.Json.Error

namespace RequestBus.Json

open Decimal

def writeChar (c : Char) : List Char :=
  if c = '"' ∨ c = '\\' then ['\\', c]
  else if c = '\n' then ['\\', 'n']
  else if c = '\r' then ['\\', 'r']
  else if c = '\t' then ['\\', 't']
  else if c.toNat = 0x08 then ['\\', 'b']
  else if c.toNat = 0x0C then ['\\', 'f']
  else if c.toNat < 0x20 then
    ['\\', 'u', '0', '0', Text.hexDigit (c.toNat / 16), Text.hexDigit (c.toNat % 16)]
  else [c]

def writeText (s : String) : List Char := '"' :: s.toList.flatMap writeChar ++ ['"']

def joined : List (List Char) → List Char
  | [] => []
  | [one] => one
  | one :: more => one ++ ',' :: joined more

def writeMember (name : String) (value : List Char) : List Char :=
  writeText name ++ ':' :: value

def writeObject (members : List (String × List Char)) : List Char :=
  '{' :: joined (members.map fun m => writeMember m.1 m.2) ++ ['}']

mutual

def Value.write : Value → List Char
  | .null => ['n', 'u', 'l', 'l']
  | .flag true => ['t', 'r', 'u', 'e']
  | .flag false => ['f', 'a', 'l', 's', 'e']
  | .number n => n.write.toList
  | .text s => writeText s
  | .list items => '[' :: joined (writeItems items) ++ [']']
  | .object members => '{' :: joined (writeMembers members) ++ ['}']

def writeItems : List Value → List (List Char)
  | [] => []
  | v :: more => v.write :: writeItems more

def writeMembers : List (String × Value) → List (List Char)
  | [] => []
  | (name, v) :: more => writeMember name v.write :: writeMembers more

end

def Value.bytes (v : Value) : Bytes := Utf8.encodeChars v.write

def lineAt (depth : Nat) : List Char := '\n' :: List.replicate (2 * depth) ' '

def writeBlock (opening closing : Char) (depth : Nat) (members : List (List Char)) :
    List Char :=
  if members = [] then [opening, closing]
  else opening :: joined (members.map (lineAt (depth + 1) ++ ·)) ++ lineAt depth ++ [closing]

mutual

def Value.writeIndented (depth : Nat) : Value → List Char
  | .null => ['n', 'u', 'l', 'l']
  | .flag true => ['t', 'r', 'u', 'e']
  | .flag false => ['f', 'a', 'l', 's', 'e']
  | .number n => n.write.toList
  | .text s => writeText s
  | .list items => writeBlock '[' ']' depth (indentedItems (depth + 1) items)
  | .object members => writeBlock '{' '}' depth (indentedMembers (depth + 1) members)

def indentedItems (depth : Nat) : List Value → List (List Char)
  | [] => []
  | v :: more => v.writeIndented depth :: indentedItems depth more

def indentedMembers (depth : Nat) : List (String × Value) → List (List Char)
  | [] => []
  | (name, v) :: more =>
    (writeText name ++ ':' :: ' ' :: v.writeIndented depth) :: indentedMembers depth more

end

def Value.indented (v : Value) : String := String.ofList (v.writeIndented 0)

def Value.compact (v : Value) : String := String.ofList v.write

end RequestBus.Json
