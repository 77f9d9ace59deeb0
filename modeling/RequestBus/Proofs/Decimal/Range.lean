import RequestBus.Proofs.Decimal.Rounding

/-! Which decimal numbers are too large. The digits and the power of ten are rounded each for itself
and their product once more, so around the greatest magnitude a number may be refused that is not
beyond it; all in all the limit is off by three parts in `2 ^ 53` at most. -/
namespace RequestBus.Decimal.Binary64

theorem lt_infinite {num den p : Nat} (rounded : ofQuotient? num den = some p) : p < infinite := by
  unfold ofQuotient? at rounded
  split at rounded
  · obtain rfl := Option.some.inj rounded
    decide
  · dsimp only at rounded
    split at rounded
    · rename_i finite
      exact Option.some.inj rounded ▸ finite
    · contradiction

theorem units_le {p : Nat} (finite : p < infinite) : units p ≤ (2 ^ 53 - 1) * 2 ^ 2045 := by
  unfold infinite at finite
  simp only [Nat.pow_eq] at finite
  have small : significand p ≤ 2 ^ 53 - 1 := by
    unfold significand
    simp only [Nat.pow_eq]
    split <;> omega
  have low : scale p ≤ 2045 := by
    unfold scale
    simp only [Nat.pow_eq]
    omega
  generalize 2045 = top at *
  exact Nat.mul_le_mul small (two_pow_le low)

theorem ofNat?_spec {n : Nat} (positive : 0 < n) (inside : n ≤ 10 ^ greatestPowerOfTen) :
    ∃ p, ofNat? n = some p ∧
    units p * 2 ^ 53 ≤ n * 2 ^ 1074 * (2 ^ 53 + 1) ∧
    n * 2 ^ 1074 * (2 ^ 53 - 1) ≤ units p * 2 ^ 53 := by
  have fits : n * 2 ^ 1074 ≤ (2 ^ 53 - 1) * (1 * 2 ^ 2045) := by
    have greatest : 10 ^ greatestPowerOfTen * 2 ^ 1074 ≤ (2 ^ 53 - 1) * (1 * 2 ^ 2045) := by
      decide +kernel
    exact Nat.le_trans (Nat.mul_le_mul_right _ inside) greatest
  obtain ⟨p, rounded⟩ := Option.isSome_iff_exists.mp (isSome_ofQuotient? Nat.one_pos fits)
  have normal : 1 * 2 ^ 52 ≤ n * 2 ^ 1074 :=
    Nat.mul_le_mul positive (@two_pow_le 52 1074 (by decide))
  have bounds := units_ofQuotient? Nat.one_pos normal rounded
  rw [Nat.mul_one] at bounds
  exact ⟨p, rounded, bounds⟩

theorem product_le {m t d n unit e c : Nat} (positive : 0 < e) (first : m * e ≤ d * unit * (e + 1))
    (second : t * e ≤ n * unit * (e + 1))
    (inside : d * n * ((e + 1) * (e + 1)) ≤ (e - 1) * c * (e * e)) :
    m * t ≤ (e - 1) * c * (unit * unit) := by
  refine Nat.le_of_mul_le_mul_right ?_ (Nat.mul_pos positive positive)
  calc m * t * (e * e) = m * e * (t * e) := by ac_rfl
    _ ≤ d * unit * (e + 1) * (n * unit * (e + 1)) := Nat.mul_le_mul first second
    _ = d * n * ((e + 1) * (e + 1)) * (unit * unit) := by ac_rfl
    _ ≤ (e - 1) * c * (e * e) * (unit * unit) := Nat.mul_le_mul_right _ inside
    _ = (e - 1) * c * (unit * unit) * (e * e) := by ac_rfl

theorem le_product {m t d n unit e c : Nat} (positive : 0 < e) (first : d * unit * (e - 1) ≤ m * e)
    (second : n * unit * (e - 1) ≤ t * e)
    (outside : c * (e * e) ≤ d * n * ((e - 1) * (e - 1))) :
    c * (unit * unit) ≤ m * t := by
  refine Nat.le_of_mul_le_mul_right ?_ (Nat.mul_pos positive positive)
  calc c * (unit * unit) * (e * e) = c * (e * e) * (unit * unit) := by ac_rfl
    _ ≤ d * n * ((e - 1) * (e - 1)) * (unit * unit) := Nat.mul_le_mul_right _ outside
    _ = d * unit * (e - 1) * (n * unit * (e - 1)) := by ac_rfl
    _ ≤ m * e * (t * e) := Nat.mul_le_mul first second
    _ = m * t * (e * e) := by ac_rfl

theorem isSome_divPowerOfTen? {magnitude k : Nat} (finite : magnitude < infinite) (some : 0 < k)
    (low : k ≤ greatestPowerOfTen) : (divPowerOfTen? magnitude k).isSome := by
  obtain ⟨ten, rounded, _, least⟩ := @ofNat?_spec (10 ^ k) (Nat.pow_pos (by decide))
    (Nat.pow_le_pow_right (by decide) low)
  have many : 10 ≤ 10 ^ k := Nat.le_self_pow (Nat.pos_iff_ne_zero.mp some) 10
  have large : 2 ^ 1074 ≤ units ten := by
    generalize 1074 = places at *
    have more := Nat.mul_le_mul_right (2 ^ places) many
    generalize 2 ^ places = one at *
    omega
  have below := units_le finite
  rw [divPowerOfTen?, Nat.pow_eq, rounded]
  have positive : 0 < units ten :=
    pos_of_le_mul (Nat.mul_pos (mul_two_pow_pos (Nat.pow_pos (by decide)) 1074) (by decide)) least
  refine isSome_ofQuotient? positive ?_
  generalize 1074 = places at *
  generalize 2045 = top at *
  calc units magnitude * 2 ^ places
      ≤ (2 ^ 53 - 1) * 2 ^ top * units ten := Nat.mul_le_mul below large
    _ = (2 ^ 53 - 1) * (units ten * 2 ^ top) := by ac_rfl

theorem isSome_shrink {magnitude k : Nat} (finite : magnitude < infinite) (some : 0 < k) :
    (shrink magnitude k).isSome := by
  fun_induction shrink magnitude k with
  | case1 magnitude k low => exact isSome_divPowerOfTen? finite some low
  | case2 => rfl
  | case3 magnitude k high nonzero ih =>
    obtain ⟨smaller, divided⟩ := Option.isSome_iff_exists.mp
      (isSome_divPowerOfTen? finite (by decide) (Nat.le_refl greatestPowerOfTen))
    rw [divided]
    refine ih smaller ?_ (by omega)
    unfold divPowerOfTen? at divided
    obtain ⟨ten, _, divided⟩ := Option.bind_eq_some_iff.mp divided
    exact lt_infinite divided

theorem shift_le {x c a b low high : Nat} (twice : low = b + b) (total : high = a + b)
    (h : x ≤ c * 2 ^ a * (2 ^ b * 2 ^ b)) : x * 2 ^ b ≤ c * (2 ^ low * 2 ^ high) := by
  rw [twice, total, Nat.pow_add, Nat.pow_add]
  calc x * 2 ^ b
      ≤ c * 2 ^ a * (2 ^ b * 2 ^ b) * 2 ^ b := Nat.mul_le_mul_right _ h
    _ = c * (2 ^ b * 2 ^ b * (2 ^ a * 2 ^ b)) := by ac_rfl

theorem le_shift {x a b low high : Nat} (twice : low = b + b) (total : high = a + b)
    (h : 2 ^ a * (2 ^ b * 2 ^ b) ≤ x) : 2 ^ low * 2 ^ high ≤ x * 2 ^ b := by
  rw [twice, total, Nat.pow_add, Nat.pow_add]
  calc 2 ^ b * 2 ^ b * (2 ^ a * 2 ^ b)
      = 2 ^ a * (2 ^ b * 2 ^ b) * 2 ^ b := by ac_rfl
    _ ≤ x * 2 ^ b := Nat.mul_le_mul_right _ h

/-- The greatest finite number. -/
def greatest : Nat := (2 ^ 53 - 1) * 2 ^ 971

/-- A number of sixteen digits just below the greatest magnitude. -/
def wellInside : Nat := 1797693134862315 * 10 ^ 293

/-- A number of sixteen digits just above the greatest magnitude. -/
def wellOutside : Nat := 1797693134862317 * 10 ^ 293

theorem wellInside_lt : wellInside * 2 < 10 ^ (greatestPowerOfTen + 1) := by decide +kernel

theorem lt_wellOutside : 2 ^ 64 * 2 < wellOutside := by decide +kernel

section Decimal
variable {digits : Nat} (positive : 0 < digits) (word : digits < 2 ^ 64)
include positive word

theorem ofNat?_word : ∃ p, ofNat? digits = some p ∧
    units p * 2 ^ 53 ≤ digits * 2 ^ 1074 * (2 ^ 53 + 1) ∧
    digits * 2 ^ 1074 * (2 ^ 53 - 1) ≤ units p * 2 ^ 53 :=
  ofNat?_spec positive (Nat.le_trans (Nat.le_of_lt word) (by decide +kernel))

theorem isSome_ofDecimal?_ofNat {k : Nat} (low : k ≤ greatestPowerOfTen)
    (inside : digits * 10 ^ k * ((2 ^ 53 + 1) * (2 ^ 53 + 1)) ≤
      (2 ^ 53 - 1) * 2 ^ 971 * (2 ^ 53 * 2 ^ 53)) : (ofDecimal? digits (.ofNat k)).isSome := by
  obtain ⟨magnitude, rounded, above, _⟩ := ofNat?_word positive word
  obtain ⟨ten, power, aboveTen, _⟩ := @ofNat?_spec (10 ^ k) (Nat.pow_pos (by decide))
    (Nat.pow_le_pow_right (by decide) low)
  have product := product_le (show 0 < 2 ^ 53 by decide) above aboveTen inside
  replace product := @shift_le _ _ 971 1074 2148 2045 rfl rfl product
  simp only [ofDecimal?, rounded, Option.bind_some, bind, if_pos low, mulPowerOfTen?]
  generalize 2148 = places at *
  rw [Nat.pow_eq, power, Option.bind_some]
  exact isSome_ofQuotient? (Nat.two_pow_pos places) product

theorem ofDecimal?_eq_none {k : Nat} (outside : 2 ^ 1024 * (2 ^ 53 * 2 ^ 53) ≤
    digits * 10 ^ k * ((2 ^ 53 - 1) * (2 ^ 53 - 1))) : ofDecimal? digits (.ofNat k) = none := by
  obtain ⟨magnitude, rounded, _, least⟩ := ofNat?_word positive word
  simp only [ofDecimal?, rounded, Option.bind_some, bind]
  split
  · rename_i low
    obtain ⟨ten, power, _, leastTen⟩ := @ofNat?_spec (10 ^ k) (Nat.pow_pos (by decide))
      (Nat.pow_le_pow_right (by decide) low)
    have product := le_product (show 0 < 2 ^ 53 by decide) least leastTen outside
    replace product := @le_shift _ 1024 1074 2148 2098 rfl rfl product
    simp only [mulPowerOfTen?, bind]
    generalize 2148 = places at *
    rw [Nat.pow_eq, power, Option.bind_some]
    exact ofQuotient?_eq_none (Nat.two_pow_pos places) product
  · rw [if_neg]
    rintro rfl
    have some : 0 < digits * 2 ^ 1074 * (2 ^ 53 - 1) :=
      Nat.mul_pos (mul_two_pow_pos positive 1074) (by decide)
    rw [show units 0 = 0 by decide, Nat.zero_mul] at least
    omega

theorem isSome_ofDecimal?_negSucc (k : Nat) : (ofDecimal? digits (.negSucc k)).isSome := by
  obtain ⟨magnitude, rounded, _⟩ := ofNat?_word positive word
  simp only [ofDecimal?, rounded, Option.bind_some, bind]
  exact isSome_shrink (lt_infinite rounded) (Nat.succ_pos k)

/-- There is a magnitude for a number that is well inside the range, give or take one part in
`10 ^ 18`. -/
theorem isSome_of_wellInside {k : Nat}
    (inside : digits * 10 ^ k * 10 ^ 18 ≤ wellInside * (10 ^ 18 + 1)) :
    (ofDecimal? digits (.ofNat k)).isSome := by
  have low : k ≤ greatestPowerOfTen := by
    refine Nat.le_of_not_lt fun high => ?_
    have power : 10 ^ (greatestPowerOfTen + 1) ≤ 10 ^ k := Nat.pow_le_pow_right (by decide) high
    have least : 10 ^ k * 10 ^ 18 ≤ digits * 10 ^ k * 10 ^ 18 :=
      Nat.mul_le_mul_right _ (Nat.le_mul_of_pos_left _ positive)
    have limit : wellInside * (10 ^ 18 + 1) < 10 ^ (greatestPowerOfTen + 1) * 10 ^ 18 := by
      decide +kernel
    have power' := Nat.mul_le_mul_right (10 ^ 18) power
    omega
  refine isSome_ofDecimal?_ofNat positive word low ?_
  have limit : wellInside * (10 ^ 18 + 1) * ((2 ^ 53 + 1) * (2 ^ 53 + 1)) ≤
      (2 ^ 53 - 1) * 2 ^ 971 * (2 ^ 53 * 2 ^ 53) * 10 ^ 18 := by decide +kernel
  refine Nat.le_of_mul_le_mul_right ?_ (show 0 < 10 ^ 18 by decide)
  calc digits * 10 ^ k * ((2 ^ 53 + 1) * (2 ^ 53 + 1)) * 10 ^ 18
      = digits * 10 ^ k * 10 ^ 18 * ((2 ^ 53 + 1) * (2 ^ 53 + 1)) := by ac_rfl
    _ ≤ wellInside * (10 ^ 18 + 1) * ((2 ^ 53 + 1) * (2 ^ 53 + 1)) := Nat.mul_le_mul_right _ inside
    _ ≤ _ := limit

theorem none_of_wellOutside {k : Nat}
    (outside : wellOutside * 10 ^ 18 ≤ digits * 10 ^ k * (10 ^ 18 + 1)) :
    ofDecimal? digits (.ofNat k) = none := by
  refine ofDecimal?_eq_none positive word ?_
  have limit : 2 ^ 1024 * (2 ^ 53 * 2 ^ 53) * (10 ^ 18 + 1) ≤
      wellOutside * 10 ^ 18 * ((2 ^ 53 - 1) * (2 ^ 53 - 1)) := by decide +kernel
  refine Nat.le_of_mul_le_mul_right ?_ (show 0 < 10 ^ 18 + 1 by decide)
  calc 2 ^ 1024 * (2 ^ 53 * 2 ^ 53) * (10 ^ 18 + 1)
      ≤ wellOutside * 10 ^ 18 * ((2 ^ 53 - 1) * (2 ^ 53 - 1)) := limit
    _ ≤ digits * 10 ^ k * (10 ^ 18 + 1) * ((2 ^ 53 - 1) * (2 ^ 53 - 1)) :=
      Nat.mul_le_mul_right _ outside
    _ = digits * 10 ^ k * ((2 ^ 53 - 1) * (2 ^ 53 - 1)) * (10 ^ 18 + 1) := by ac_rfl

end Decimal

theorem isSome_ofDecimal?_zero (exponent : Int) : (ofDecimal? 0 exponent).isSome := by
  have zero : ofNat? 0 = some 0 := rfl
  cases exponent with
  | ofNat k =>
    simp only [ofDecimal?, zero, Option.bind_some, bind]
    split
    · rename_i low
      obtain ⟨ten, power, _⟩ := @ofNat?_spec (10 ^ k) (Nat.pow_pos (by decide))
        (Nat.pow_le_pow_right (by decide) low)
      simp only [mulPowerOfTen?, bind]
      generalize 2148 = places
      rw [Nat.pow_eq, power, Option.bind_some]
      rw [show units 0 = 0 by decide, Nat.zero_mul]
      rfl
    · rfl
  | negSucc k =>
    simp only [ofDecimal?, zero, Option.bind_some, bind]
    exact isSome_shrink (by decide) (Nat.succ_pos k)

end RequestBus.Decimal.Binary64
