import RequestBus.Json.Value
import RequestBus.Decimal.Notation
import RequestBus.Text.Quoted
import RequestBus.Text.Utf8

namespace RequestBus.Json

open Decimal

def numberNotation : Notation :=
  { leastPositional := -5, greatestPositional := 15, wholeSuffix := ".0", exponentPlus := "+" }

def Number.write : Number → String
  | .whole n => intText n
  | .real x => numberNotation.text x

inductive Found where
  | null
  | flag (b : Bool)
  | number (n : Number)
  | text (s : String)
  | list
  | object
  deriving DecidableEq, Repr

def Found.describe : Found → String
  | .null => "null"
  | .flag true => "boolean `true`"
  | .flag false => "boolean `false`"
  | .number (.whole n) => "integer `" ++ intText n ++ "`"
  | .number (.real x) => "floating point `" ++ numberNotation.text x ++ "`"
  | .text s => "string " ++ Text.quoted s
  | .list => "sequence"
  | .object => "map"

inductive Wanted where
  | text
  | flag
  | object
  | list
  | unsigned (word : String)
  | record (name : String)
  deriving DecidableEq, Repr

def Wanted.describe : Wanted → String
  | .text => "a string"
  | .flag => "a boolean"
  | .object => "a map"
  | .list => "a sequence"
  | .unsigned word => word
  | .record name => "struct " ++ name

inductive Cause where
  | endInValue
  | endInList
  | endInObject
  | endInText
  | expectedValue
  | expectedLiteral
  | expectedColon
  | expectedObjectEnd
  | expectedListEnd
  | trailingComma
  | trailingCharacters
  | nameNotText
  | invalidNumber
  | numberOutOfRange
  | invalidEscape
  | controlCharacter
  | loneSurrogate
  | unfinishedSurrogatePair
  | invalidUtf8
  | tooDeep
  | wrongType (found : Found) (wanted : Wanted)
  | wrongValue (found : Found) (wanted : Wanted)
  | wrongLength (length : Nat) (record : String) (members : Nat)
  | missingMember (name : String)
  | repeatedMember (name : String)
  deriving DecidableEq, Repr

def Cause.message : Cause → String
  | .endInValue => "EOF while parsing a value"
  | .endInList => "EOF while parsing a list"
  | .endInObject => "EOF while parsing an object"
  | .endInText => "EOF while parsing a string"
  | .expectedValue => "expected value"
  | .expectedLiteral => "expected ident"
  | .expectedColon => "expected `:`"
  | .expectedObjectEnd => "expected `,` or `\x7d`"
  | .expectedListEnd => "expected `,` or `]`"
  | .trailingComma => "trailing comma"
  | .trailingCharacters => "trailing characters"
  | .nameNotText => "key must be a string"
  | .invalidNumber => "invalid number"
  | .numberOutOfRange => "number out of range"
  | .invalidEscape => "invalid escape"
  | .controlCharacter =>
    "control character (\\u0000-\\u001F) found while parsing a string"
  | .loneSurrogate => "lone leading surrogate in hex escape"
  | .unfinishedSurrogatePair => "unexpected end of hex escape"
  | .invalidUtf8 => "invalid unicode code point"
  | .tooDeep => "recursion limit exceeded"
  | .wrongType found wanted =>
    "invalid type: " ++ found.describe ++ ", expected " ++ wanted.describe
  | .wrongValue found wanted =>
    "invalid value: " ++ found.describe ++ ", expected " ++ wanted.describe
  | .wrongLength length record members =>
    "invalid length " ++ natText length ++ ", expected struct " ++ record ++ " with " ++
      natText members ++ (if members = 1 then " element" else " elements")
  | .missingMember name => "missing field `" ++ name ++ "`"
  | .repeatedMember name => "duplicate field `" ++ name ++ "`"

/-- A cause, and how many bytes were left when it was noticed. -/
structure Fault where
  cause : Cause
  left : Nat
  deriving DecidableEq, Repr

def Fault.before (cause : Cause) (rest : Bytes) : Fault := ⟨cause, rest.length⟩

/-- Noticed at the first of these bytes, which counts as read; at the end there is none. -/
def Fault.past (cause : Cause) (rest : Bytes) : Fault := ⟨cause, rest.length - 1⟩

/-- A cause with the line and column where reading stopped. Lines count from one; the column is
the number of bytes read of the line. -/
structure Error where
  cause : Cause
  line : Nat
  column : Nat
  deriving DecidableEq, Repr

def newline : UInt8 := 0x0A

def Fault.locate (fault : Fault) (text : Bytes) : Error :=
  let read := text.take (text.length - fault.left)
  { cause := fault.cause
    line := 1 + read.count newline
    column := (read.reverse.takeWhile (· != newline)).length }

def Error.message (e : Error) : String :=
  e.cause.message ++ " at line " ++ natText e.line ++ " column " ++ natText e.column

end RequestBus.Json
