import RequestBus.Text.Ascii
import RequestBus.Text.Blank
import RequestBus.Text.Split

namespace RequestBus.Version

/-- The value of a piece that has the form `version=value`, in any case, blanks around the key
and the value and quotes around the value left out. -/
def ofPiece? (piece : List Char) : Option (List Char) :=
  (Text.cutAt '=' piece).bind fun (key, value) =>
    if Text.sameIgnoringCase (String.ofList (Text.stripChars Text.isBlank key)) "version" then
      some (Text.stripChars (· == '"') (Text.stripChars Text.isBlank value))
    else none

/-- The version in an `Accept` text. An empty one counts as none, even if another follows. -/
def ofAccept? (accept : String) : Option String :=
  (((Text.pieces ';' accept.toList).findSome? ofPiece?).filter (· ≠ [])).map String.ofList

end RequestBus.Version
