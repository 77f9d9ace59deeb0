import RequestBus.Decimal.Shortest

namespace RequestBus.Decimal

structure Notation where
  /-- Least exponent of the leading digit that is still written positionally. -/
  leastPositional : Int
  /-- Greatest exponent of the leading digit that is still written positionally. -/
  greatestPositional : Int
  wholeSuffix : String
  exponentPlus : String

def pointed (ds : List Char) : List Char :=
  match ds with
  | [] => []
  | [d] => [d]
  | d :: rest => d :: '.' :: rest

/-- Digits in positional notation, the leading one worth `10 ^ lead`. -/
def positional (suffix : String) (ds : List Char) (lead : Int) : List Char :=
  match lead with
  | .ofNat k =>
    if ds.length ≤ k + 1 then
      ds ++ List.replicate (k + 1 - ds.length) '0' ++ suffix.toList
    else ds.take (k + 1) ++ '.' :: ds.drop (k + 1)
  | .negSucc k => '0' :: '.' :: (List.replicate k '0' ++ ds)

def Notation.text (style : Notation) (x : Binary64) : String :=
  let sign := if x.negative then ['-'] else []
  if x.magnitude = 0 then String.ofList (sign ++ '0' :: style.wholeSuffix.toList)
  else
    let s := shortest x.magnitude
    let ds := digits s.digits
    let lead := s.exponent + (ds.length - 1 : Nat)
    if style.leastPositional ≤ lead ∧ lead ≤ style.greatestPositional then
      String.ofList (sign ++ positional style.wholeSuffix ds lead)
    else
      let mark := if lead < 0 then "-" else style.exponentPlus
      String.ofList (sign ++ pointed ds) ++ "e" ++ mark ++ natText lead.natAbs

end RequestBus.Decimal
