import RequestBus.Dictionary
import RequestBus.Text.Ascii

namespace RequestBus

abbrev Headers := Dictionary String

namespace Headers

def lookup (headers : Headers) (name : String) : Option String :=
  headers.find? (Text.sameIgnoringCase · name)

def contentType : String := "Content-Type"

def contentLength : String := "Content-Length"

def jsonType : String := "application/json"

end Headers

end RequestBus
