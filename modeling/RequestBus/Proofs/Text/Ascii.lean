import RequestBus.Text.Ascii

namespace RequestBus.Text

theorem toNat_toLower (c : Char) :
    c.toLower.toNat = if 65 ≤ c.toNat ∧ c.toNat ≤ 90 then c.toNat + 32 else c.toNat := by
  unfold Char.toLower
  split
  · rename_i capital
    have bounds : 65 ≤ c.toNat ∧ c.toNat ≤ 90 := capital
    rw [if_pos bounds, Char.toNat, UInt32.toNat_add]
    have shift : ('a'.val - 'A'.val).toNat = 32 := rfl
    simp only [Char.toNat_val, shift]
    omega
  · rename_i other
    exact (if_neg other).symm

theorem toNat_toUpper (c : Char) :
    c.toUpper.toNat = if 97 ≤ c.toNat ∧ c.toNat ≤ 122 then c.toNat - 32 else c.toNat := by
  unfold Char.toUpper
  split
  · rename_i small
    have bounds : 97 ≤ c.toNat ∧ c.toNat ≤ 122 := small
    rw [if_pos bounds, Char.toNat, UInt32.toNat_add]
    have shift : ('A'.val - 'a'.val).toNat = 2 ^ 32 - 32 := rfl
    simp only [Char.toNat_val, shift]
    omega
  · rename_i other
    exact (if_neg other).symm

theorem toUpper_toLower (c : Char) : c.toLower.toUpper = c.toUpper := by
  rw [← Char.toNat_inj, toNat_toUpper, toNat_toUpper, toNat_toLower]
  grind

theorem toLower_toUpper (c : Char) : c.toUpper.toLower = c.toLower := by
  rw [← Char.toNat_inj, toNat_toLower, toNat_toLower, toNat_toUpper]
  grind

theorem upper_lower (s : String) : upper (lower s) = upper s := by
  rw [upper, lower, String.toList_ofList, List.map_map]
  exact congrArg String.ofList (List.map_congr_left fun c _ => toUpper_toLower c)

theorem lower_upper (s : String) : lower (upper s) = lower s := by
  rw [lower, upper, String.toList_ofList, List.map_map]
  exact congrArg String.ofList (List.map_congr_left fun c _ => toLower_toUpper c)

theorem sameIgnoringCase_iff {a b : String} : sameIgnoringCase a b = true ↔ upper a = upper b := by
  rw [sameIgnoringCase, beq_iff_eq]
  constructor
  · intro same
    rw [← upper_lower a, same, upper_lower]
  · intro same
    rw [← lower_upper a, same, lower_upper]

theorem toLower_mem_of_sameIgnoringCase {a b : String} (same : sameIgnoringCase a b = true)
    {c : Char} (member : c ∈ a.toList) : c.toLower ∈ (lower b).toList := by
  rw [sameIgnoringCase, beq_iff_eq] at same
  rw [← same, lower, String.toList_ofList]
  exact List.mem_map_of_mem member

end RequestBus.Text
