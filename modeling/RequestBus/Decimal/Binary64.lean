/-! Finite binary floating-point numbers of 64 bits. A magnitude is kept as its bit pattern
without the sign, so equal patterns are equal numbers and larger patterns larger numbers.
Rounding a quotient goes to the nearest pattern, ties to the even one; arithmetic is exact
arithmetic followed by that rounding. -/
namespace RequestBus.Decimal

/-- A finite number: its sign and the bit pattern of its magnitude. -/
structure Binary64 where
  negative : Bool
  magnitude : Nat
  deriving DecidableEq, Repr

namespace Binary64

def infinite : Nat := 0x7FF * Nat.pow 2 52

/-- A magnitude as `significand * 2 ^ (scale - 1074)`. -/
def significand (magnitude : Nat) : Nat :=
  if magnitude < Nat.pow 2 52 then magnitude else Nat.pow 2 52 + magnitude % Nat.pow 2 52

def scale (magnitude : Nat) : Nat := magnitude / Nat.pow 2 52 - 1

/-- A magnitude as a number of the smallest ones, each worth `1 / 2 ^ 1074`. -/
def units (magnitude : Nat) : Nat := significand magnitude * Nat.pow 2 (scale magnitude)

/-- The nearest whole number to a quotient; halfway goes to the even one. -/
def nearest (num den : Nat) : Nat :=
  let q := num / den
  let twice := 2 * (num % den)
  if twice < den ∨ (twice = den ∧ q % 2 = 0) then q else q + 1

/-- The scale at which a quotient has 53 significant bits, or the smallest scale there is. -/
def scaleOf (num den : Nat) : Nat :=
  -- `2 ^ guess` is at most the quotient times `2 ^ 1074`, and within a factor of four of it
  let guess := num.log2 + 1074 - (den.log2 + 1)
  if num * Nat.pow 2 1074 < den * Nat.pow 2 (guess + 1) then guess - 52 else guess + 1 - 52

def ofQuotient? (num den : Nat) : Option Nat :=
  if num = 0 then some 0
  else
    let s := scaleOf num den
    let pattern := s * Nat.pow 2 52 + nearest (num * Nat.pow 2 1074) (den * Nat.pow 2 s)
    if pattern < infinite then some pattern else none

def ofNat? (n : Nat) : Option Nat := ofQuotient? n 1

def mulPowerOfTen? (magnitude k : Nat) : Option Nat := do
  let ten ← ofNat? (Nat.pow 10 k)
  ofQuotient? (units magnitude * units ten) (Nat.pow 2 2148)

def divPowerOfTen? (magnitude k : Nat) : Option Nat := do
  let ten ← ofNat? (Nat.pow 10 k)
  ofQuotient? (units magnitude) (units ten)

def greatestPowerOfTen : Nat := 308

def shrink (magnitude k : Nat) : Option Nat :=
  if k ≤ greatestPowerOfTen then divPowerOfTen? magnitude k
  else if magnitude = 0 then some 0
  else do
    let smaller ← divPowerOfTen? magnitude greatestPowerOfTen
    shrink smaller (k - greatestPowerOfTen)
termination_by k
decreasing_by simp only [greatestPowerOfTen] at *; omega

/-- The magnitude of `digits * 10 ^ exponent`, rounded once for the digits and once for each
power of ten used; nothing where it is too large. -/
def ofDecimal? (digits : Nat) (exponent : Int) : Option Nat := do
  let magnitude ← ofNat? digits
  match exponent with
  | .ofNat k =>
    if k ≤ greatestPowerOfTen then mulPowerOfTen? magnitude k
    else if magnitude = 0 then some 0
    else none
  | .negSucc k => shrink magnitude (k + 1)

end Binary64

end RequestBus.Decimal
