import RequestBus.Decimal.Binary64
import RequestBus.Decimal.Natural

/-! The shortest decimal for a floating-point magnitude: the fewest significant digits that
read back as the same magnitude, and of two such decimals the nearer one. Everything is decided
in exact arithmetic on fractions. -/
namespace RequestBus.Decimal

/-- A positive decimal: the number `digits * 10 ^ exponent`. -/
structure Scientific where
  digits : Nat
  exponent : Int
  deriving DecidableEq, Repr

namespace Shortest

/-- A magnitude and the ends of the interval that rounds to it, as numerators over one
denominator, `2 ^ 1076`; the ends belong to the interval when the significand is even. -/
structure Interval where
  low : Nat
  value : Nat
  high : Nat
  closed : Bool

def interval (magnitude : Nat) : Interval :=
  let m := Binary64.significand magnitude
  let unit := Nat.pow 2 (Binary64.scale magnitude)
  -- below a power of two the neighbours are twice as close
  let below := if m = Nat.pow 2 52 ∧ 0 < Binary64.scale magnitude then unit else 2 * unit
  { low := 4 * m * unit - below
    value := 4 * m * unit
    high := 4 * m * unit + 2 * unit
    closed := m % 2 = 0 }

def denominator : Nat := Nat.pow 2 1076

def step (exponent : Int) : Nat × Nat :=
  match exponent with
  | .ofNat k => (Nat.pow 10 k, 1)
  | .negSucc k => (1, Nat.pow 10 (k + 1))

def Interval.holds (i : Interval) (digits : Nat) (exponent : Int) : Bool :=
  let (num, den) := step exponent
  let point := digits * num * denominator
  if i.closed then i.low * den ≤ point && point ≤ i.high * den
  else i.low * den < point && point < i.high * den

def Interval.distance (i : Interval) (digits : Nat) (exponent : Int) : Nat :=
  let (num, den) := step exponent
  let point := digits * num * denominator
  let value := i.value * den
  if point ≤ value then value - point else point - value

/-- The better of the two grid points around the value, if either reads back. -/
def Interval.onGrid? (i : Interval) (exponent : Int) : Option Scientific :=
  let (num, den) := step exponent
  let floor := i.value * den / (num * denominator)
  match i.holds floor exponent && 0 < floor, i.holds (floor + 1) exponent with
  | false, false => none
  | true, false => some ⟨floor, exponent⟩
  | false, true => some ⟨floor + 1, exponent⟩
  | true, true =>
    let left := i.distance floor exponent
    let right := i.distance (floor + 1) exponent
    if left < right ∨ (left = right ∧ floor % 2 = 0) then some ⟨floor, exponent⟩
    else some ⟨floor + 1, exponent⟩

/-- The decimal exponent of the leading digit of a fraction: the largest `e` with
`10 ^ e ≤ num / den`. -/
def leading (num den : Nat) : Int :=
  if den ≤ num then Int.ofNat ((digits (num / den)).length - 1)
  else Int.negSucc ((digits ((den - 1) / num)).length - 1)

def search (i : Interval) (exponent : Int) : Nat → Option Scientific
  | 0 => none
  | tries + 1 =>
    match i.onGrid? exponent with
    | some found => some found
    | none => search i (exponent - 1) tries

def normalise (s : Scientific) : Scientific :=
  if h : s.digits ≠ 0 ∧ s.digits % 10 = 0 then
    normalise ⟨s.digits / 10, s.exponent + 1⟩
  else s
termination_by s.digits
decreasing_by omega

end Shortest

/-- The shortest decimal that reads back as a positive magnitude; seventeen digits always do. -/
def shortest (magnitude : Nat) : Scientific :=
  let i := Shortest.interval magnitude
  let top := Shortest.leading i.value Shortest.denominator
  match Shortest.search i top 17 with
  | some found => Shortest.normalise found
  | none => ⟨0, 0⟩

end RequestBus.Decimal
