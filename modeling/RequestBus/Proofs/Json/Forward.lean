import RequestBus.Json.Skip

namespace RequestBus.Json

theorem ok_of_bind {x : Except ε α} {f : α → Except ε β} {b : β} (h : x >>= f = .ok b) :
    ∃ a, x = .ok a ∧ f a = .ok b := by
  cases x with
  | error e => contradiction
  | ok a => exact ⟨a, rfl, h⟩

theorem ok_of_map {x : Except ε α} {f : α → β} {b : β} (h : x.map f = .ok b) :
    ∃ a, x = .ok a ∧ f a = b := by
  cases x with
  | error e => contradiction
  | ok a => exact ⟨a, rfl, Except.ok.inj h⟩

theorem mapError_ok (f : ε → ε') (a : α) : (Except.ok a).mapError f = .ok a := rfl

theorem ok_of_mapError {x : Except ε α} {f : ε → ε'} {a : α} (h : x.mapError f = .ok a) :
    x = .ok a := by
  cases x with
  | error e => contradiction
  | ok b => exact congrArg Except.ok (Except.ok.inj h)

theorem length_dropWhile_le (p : α → Bool) (l : List α) : (l.dropWhile p).length ≤ l.length :=
  (List.dropWhile_suffix p).length_le

theorem length_skipBlanks_le (s : Bytes) : (skipBlanks s).length ≤ s.length :=
  length_dropWhile_le _ _

theorem length_readLiteral {want s rest : Bytes} (h : readLiteral want s = .ok rest) :
    rest.length ≤ s.length := by
  induction want generalizing s with
  | nil =>
    cases h
    exact Nat.le_refl _
  | cons w want ih =>
    cases s with
    | nil => contradiction
    | cons b s =>
      rw [readLiteral] at h
      split at h
      · exact Nat.le_succ_of_le (ih h)
      · contradiction

theorem length_scanWhole {atEnd : Cause} {s rest digits : Bytes}
    (h : scanWhole atEnd s = .ok (digits, rest)) : rest.length < s.length := by
  unfold scanWhole at h
  split at h
  · contradiction
  · split at h
    · split at h
      · split at h
        · contradiction
        · cases h
          exact Nat.lt_succ_self _
      · cases h
        exact Nat.lt_succ_self _
    · split at h
      · cases h
        exact Nat.lt_succ_of_le (length_dropWhile_le _ _)
      · contradiction

theorem length_scanFraction {atEnd : Cause} {s rest digits : Bytes}
    (h : scanFraction atEnd s = .ok (digits, rest)) : rest.length ≤ s.length := by
  unfold scanFraction at h
  split at h
  · split at h
    · contradiction
    · cases h
      exact Nat.le_succ_of_le (length_dropWhile_le _ _)
  · cases h
    exact Nat.le_refl _

theorem length_scanSign (s : Bytes) : (scanSign s).2.length ≤ s.length := by
  unfold scanSign
  split
  · exact Nat.le_succ _
  · exact Nat.le_succ _
  · exact Nat.le_refl _

theorem length_scanExponent {atEnd : Cause} {s rest : Bytes} {e : Option (Bool × Bytes)}
    (h : scanExponent atEnd s = .ok (e, rest)) : rest.length ≤ s.length := by
  unfold scanExponent at h
  split at h
  · cases h
    exact Nat.le_refl _
  · rename_i b tail
    have behind := length_scanSign tail
    split at h
    · split at h
      · contradiction
      · rename_i c more signed
        rw [signed] at behind
        split at h
        · cases h
          have digits := length_dropWhile_le isDigit more
          simp only [List.length_cons] at behind ⊢
          omega
        · contradiction
    · cases h
      exact Nat.le_refl _

theorem length_scanUnsigned {atEnd : Cause} {negative : Bool} {s rest : Bytes} {n : Numeral}
    (h : scanUnsigned atEnd negative s = .ok (n, rest)) : rest.length < s.length := by
  obtain ⟨⟨whole, afterWhole⟩, first, h⟩ := ok_of_bind h
  obtain ⟨⟨fraction, afterFraction⟩, second, h⟩ := ok_of_bind h
  obtain ⟨⟨exponent, afterExponent⟩, third, h⟩ := ok_of_bind h
  cases h
  have shorter := length_scanWhole first
  have later := length_scanFraction second
  have last := length_scanExponent third
  omega

theorem length_scanNumeral {atEnd : Cause} {s rest : Bytes} {n : Numeral}
    (h : scanNumeral atEnd s = .ok (n, rest)) : rest.length < s.length := by
  unfold scanNumeral at h
  split at h
  · exact Nat.lt_succ_of_lt (length_scanUnsigned h)
  · exact length_scanUnsigned h

theorem length_skipQuoted {s rest : Bytes} (h : skipQuoted s = .ok rest) :
    rest.length < s.length := by
  induction s using skipQuoted.induct with
  | case1 => contradiction
  | case2 tail =>
    unfold skipQuoted at h
    cases h
    exact Nat.lt_succ_self _
  | case4 a b c d after hex notQuote ih =>
    unfold skipQuoted at h
    simp only [notQuote, if_false, if_true, hex] at h
    have later := ih h
    simp only [List.length_cons]
    omega
  | case7 e after notHex short notQuote ih =>
    unfold skipQuoted at h
    simp only [notQuote, notHex, if_false, if_true, short] at h
    have later := ih h
    simp only [List.length_cons]
    omega
  | case10 b tail notQuote notBackslash control ih =>
    unfold skipQuoted at h
    simp only [notQuote, notBackslash, control, if_false] at h
    exact Nat.lt_succ_of_lt (ih h)
  | case5 a b c d after hex notQuote =>
    unfold skipQuoted at h
    simp only [notQuote, if_false, if_true, hex] at h
    contradiction
  | _ =>
    unfold skipQuoted at h
    simp_all

theorem length_readColon {s rest : Bytes} (h : readColon s = .ok rest) :
    rest.length < s.length := by
  have blanks := length_skipBlanks_le s
  unfold readColon at h
  split at h
  · contradiction
  · rename_i b tail front
    rw [front, List.length_cons] at blanks
    split at h
    · cases h
      omega
    · contradiction

theorem length_skipName {s rest : Bytes} (h : skipName s = .ok rest) : rest.length < s.length := by
  have blanks := length_skipBlanks_le s
  unfold skipName at h
  split at h
  · contradiction
  · rename_i b tail front
    rw [front, List.length_cons] at blanks
    split at h
    · obtain ⟨after, quoted, h⟩ := ok_of_bind h
      have name := length_skipQuoted quoted
      have colon := length_readColon h
      omega
    · contradiction

theorem length_skipScalar {s rest : Bytes} (h : skipScalar s = .ok rest) :
    rest.length < s.length := by
  unfold skipScalar at h
  split at h
  · exact Nat.lt_succ_of_le (length_readLiteral h)
  · exact Nat.lt_succ_of_le (length_readLiteral h)
  · exact Nat.lt_succ_of_le (length_readLiteral h)
  · split at h
    · exact Nat.lt_succ_of_lt (length_skipQuoted h)
    · split at h
      · obtain ⟨⟨n, after⟩, scanned, rfl⟩ := ok_of_map h
        exact length_scanNumeral scanned
      · contradiction
  · contradiction

theorem length_skipAfter {frames outer : List Frame} {s rest : Bytes}
    (h : skipAfter frames s = .ok (outer, rest)) : rest.length ≤ s.length := by
  induction frames generalizing s with
  | nil =>
    cases h
    exact Nat.le_refl _
  | cons frame frames ih =>
    have blanks := length_skipBlanks_le s
    unfold skipAfter at h
    split at h
    · contradiction
    · rename_i b tail front
      rw [front, List.length_cons] at blanks
      split at h
      · split at h
        · cases h
          omega
        · obtain ⟨after, name, same⟩ := ok_of_map h
          cases same
          have shorter := length_skipName name
          omega
      · split at h
        · have later := ih h
          omega
        · contradiction

theorem length_skipOne {frames inner : List Frame} {s rest : Bytes}
    (h : skipOne frames s = .ok (inner, rest)) : rest.length < s.length := by
  have blanks := length_skipBlanks_le s
  unfold skipOne at h
  split at h
  · contradiction
  · rename_i b tail front
    have inside := length_skipBlanks_le tail
    rw [front, List.length_cons] at blanks
    split at h
    · split at h
      · contradiction
      · rename_i c after next
        rw [next, List.length_cons] at inside
        split at h
        · have later := length_skipAfter h
          omega
        · cases h
          simp only [List.length_cons]
          omega
    · split at h
      · split at h
        · contradiction
        · rename_i c after next
          rw [next, List.length_cons] at inside
          split at h
          · have later := length_skipAfter h
            omega
          · obtain ⟨behind, name, same⟩ := ok_of_map h
            cases same
            have shorter := length_skipName name
            simp only [List.length_cons] at shorter
            omega
      · obtain ⟨behind, scalar, h⟩ := ok_of_bind h
        have shorter := length_skipScalar scalar
        have later := length_skipAfter h
        simp only [List.length_cons] at shorter
        omega

theorem skipAll_fuel {fuel more : Nat} {frames : List Frame} {s : Bytes}
    (enough : s.length < fuel) (least : s.length < more) :
    skipAll fuel frames s = skipAll more frames s := by
  induction fuel generalizing more frames s with
  | zero => contradiction
  | succ fuel ih =>
    cases more with
    | zero => contradiction
    | succ more =>
      simp only [skipAll]
      cases one : skipOne frames s with
      | error fault => rfl
      | ok state =>
        obtain ⟨inner, rest⟩ := state
        have shorter := length_skipOne one
        simp only [bind, Except.bind]
        split
        · rfl
        · exact ih (by omega) (by omega)

end RequestBus.Json
