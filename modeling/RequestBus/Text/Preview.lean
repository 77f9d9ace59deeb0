import RequestBus.Text.Utf8
import RequestBus.Text.Quoted

namespace RequestBus.Text

def isControl (c : Char) : Bool :=
  let n := c.toNat
  n < 0x20 || (0x7F ≤ n && n < 0xA0)

def previewChar (c : Char) : List Char :=
  if isControl c then
    if c = '\t' then ['\\', 't']
    else if c = '\r' then ['\\', 'r']
    else if c = '\n' then ['\\', 'n']
    else codePoint c
  else [c]

/-- The first `limit` characters of a payload, safe to print on one line. -/
def preview (payload : Bytes) (limit : Nat) : String :=
  let cs := Utf8.lossyChars payload
  let shown := (cs.take limit).flatMap previewChar
  String.ofList (if limit < cs.length then shown ++ ['.', '.', '.'] else shown)

end RequestBus.Text
