import RequestBus.Text.Utf8

namespace RequestBus.Amqp

def replyExchangeHeader : String := "replyToExchange"

inductive HeaderValue where
  | longText (content : Bytes)
  | shortText (content : String)
  | other
  deriving DecidableEq, Repr

/-- The text of a header; what is no UTF-8 in it is replaced. -/
def HeaderValue.text? : HeaderValue → Option String
  | .longText content => some (Utf8.lossy content)
  | .shortText content => some content
  | .other => none

def softCodes : List Nat := [311, 312, 313, 403, 404, 405, 406]

def hardCodes : List Nat := [320, 402, 501, 502, 503, 504, 505, 506, 530, 540, 541]

def accessRefused : Nat := 403

def notAllowed : Nat := 530

inductive Failure where
  | refused (code : Nat)
  | network
  deriving DecidableEq, Repr

inductive Progress where
  | connect
  | setup
  deriving DecidableEq, Repr

/-- The broker refused the credentials, which it can only do when the connection is made. -/
def isCredentialRefusal : Progress → Failure → Bool
  | .connect, .refused code => code == accessRefused || code == notAllowed
  | _, _ => false

end RequestBus.Amqp
