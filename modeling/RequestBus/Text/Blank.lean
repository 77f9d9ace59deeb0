namespace RequestBus.Text

def isBlank (c : Char) : Bool :=
  let n := c.toNat
  (9 ≤ n && n ≤ 13) || n == 0x20 || n == 0x85 || n == 0xA0 || n == 0x1680 ||
    (0x2000 ≤ n && n ≤ 0x200A) || n == 0x2028 || n == 0x2029 || n == 0x202F ||
    n == 0x205F || n == 0x3000

def stripChars (drop : Char → Bool) (cs : List Char) : List Char :=
  (((cs.dropWhile drop).reverse).dropWhile drop).reverse

def trim (s : String) : String := String.ofList (stripChars isBlank s.toList)

/-- Nothing but blank characters; the empty text counts. -/
def allBlank (s : String) : Bool := s.toList.all isBlank

def given? (s : String) : Option String := if allBlank s then none else some s

end RequestBus.Text
