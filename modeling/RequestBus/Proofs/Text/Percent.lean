import RequestBus.Proofs.Text.Utf8
import RequestBus.Text.Percent

namespace RequestBus.Text.Percent

theorem hexValue?_hexDigit {n : Nat} (digit : n < 16) : hexValue? (hexDigit n) = some n := by
  have all : ∀ n : Fin 16, hexValue? (hexDigit n) = some n.val := by decide
  exact all ⟨n, digit⟩

theorem unreserved_lt {b : UInt8} (plain : isUnreserved b = true) : b.toNat < 0x80 := by
  simp only [isUnreserved, Bool.or_eq_true, Bool.and_eq_true, decide_eq_true_eq,
    beq_iff_eq] at plain
  omega

theorem toNat_ofNat {b : UInt8} (plain : isUnreserved b = true) :
    (Char.ofNat b.toNat).toNat = b.toNat := by
  have all : ∀ n : Fin 0x80, (Char.ofNat n.val).toNat = n.val := by decide
  exact all ⟨b.toNat, unreserved_lt plain⟩

theorem decodeBytes_encodeByte (b : UInt8) (rest : List Char) :
    decodeBytes (encodeByte b ++ rest) = (decodeBytes rest).map (b :: ·) := by
  unfold encodeByte
  split
  · -- A byte that stands for itself is ASCII and no percent sign, so it is read as itself.
    rename_i plain
    have other : Char.ofNat b.toNat ≠ '%' := by
      intro same
      have percent : b = 0x25 := by
        rw [← UInt8.toNat_inj, ← toNat_ofNat plain, same]
        rfl
      subst percent
      exact absurd plain (by decide)
    have ascii : ¬ 0x80 ≤ (Char.ofNat b.toNat).toNat := by
      have low := unreserved_lt plain
      rw [toNat_ofNat plain]
      omega
    rw [List.singleton_append, decodeBytes]
    · rw [if_neg (not_or.mpr ⟨other, ascii⟩), toNat_ofNat plain, UInt8.ofNat_toNat]
      cases decodeBytes rest <;> rfl
    · exact fun _ _ _ same => absurd same other
  · have high : hexValue? (hexDigit (b.toNat / 16)) = some (b.toNat / 16) :=
      hexValue?_hexDigit (by have := b.toNat_lt; omega)
    have low : hexValue? (hexDigit (b.toNat % 16)) = some (b.toNat % 16) :=
      hexValue?_hexDigit (by omega)
    have whole : UInt8.ofNat (16 * (b.toNat / 16) + b.toNat % 16) = b := by
      rw [Nat.div_add_mod, UInt8.ofNat_toNat]
    simp only [List.cons_append, List.nil_append, decodeBytes, high, low, Option.bind_eq_bind,
      Option.bind_some, whole]
    cases decodeBytes rest <;> rfl

theorem decodeBytes_encode (bytes : Bytes) :
    decodeBytes (bytes.flatMap encodeByte) = some bytes := by
  induction bytes with
  | nil => rfl
  | cons b bytes ih =>
    rw [List.flatMap_cons, decodeBytes_encodeByte, ih]
    rfl

theorem decodeChars_encodeChars (cs : List Char) : decodeChars (encodeChars cs) = some cs := by
  rw [decodeChars, encodeChars, decodeBytes_encode]
  exact Utf8.decodeChars?_encodeChars cs

theorem mem_encodeChars {c : Char} {cs : List Char} (member : c ∈ encodeChars cs) :
    c = '%' ∨ isUnreserved (UInt8.ofNat c.toNat) = true := by
  have digits : ∀ n : Fin 16, isUnreserved (UInt8.ofNat (hexDigit n).toNat) = true := by decide
  obtain ⟨b, _, inside⟩ := List.mem_flatMap.mp member
  unfold encodeByte at inside
  split at inside
  · rename_i plain
    obtain rfl := List.mem_singleton.mp inside
    rw [toNat_ofNat plain, UInt8.ofNat_toNat]
    exact .inr plain
  · simp only [List.mem_cons, List.not_mem_nil, or_false] at inside
    rcases inside with rfl | rfl | rfl
    · exact .inl rfl
    · exact .inr (digits ⟨b.toNat / 16, by have := b.toNat_lt; omega⟩)
    · exact .inr (digits ⟨b.toNat % 16, by omega⟩)

end RequestBus.Text.Percent
