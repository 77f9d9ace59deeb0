import RequestBus.Json.Reader
import RequestBus.Proofs.Json.Forward

/-! What is read could have been skipped: whoever skips a value that another reader reads ends at
the same byte. -/
namespace RequestBus.Json

def skipFrom (frames : List Frame) (s : Bytes) : Except Fault Bytes :=
  skipAll (s.length + 1) frames s

def skipOnward (frames : List Frame) (s : Bytes) : Except Fault Bytes := do
  let (inner, s) ← skipAfter frames s
  if inner = [] then return s else skipFrom inner s

def Passes (s rest : Bytes) : Prop := ∀ frames, skipFrom frames s = skipOnward frames rest

theorem skipFrom_eq (frames : List Frame) (s : Bytes) : skipFrom frames s = (do
    let (inner, rest) ← skipOne frames s
    if inner = [] then return rest else skipFrom inner rest) := by
  rw [skipFrom, skipAll]
  cases one : skipOne frames s with
  | error fault => rfl
  | ok state =>
    obtain ⟨inner, rest⟩ := state
    have shorter := length_skipOne one
    have same : skipAll s.length inner rest = skipFrom inner rest :=
      skipAll_fuel shorter (Nat.lt_succ_self _)
    simp only [bind, Except.bind, same]

theorem skipValue_of_passes {s rest : Bytes} (h : Passes s rest) : skipValue s = .ok rest := h []

theorem skipBlanks_skipBlanks (s : Bytes) : skipBlanks (skipBlanks s) = skipBlanks s := by
  induction s with
  | nil => rfl
  | cons b s ih =>
    cases blank : isBlank b with
    | true => simpa [skipBlanks, blank] using ih
    | false => simp [skipBlanks, blank]

theorem skipFrom_skipBlanks (frames : List Frame) (s : Bytes) :
    skipFrom frames (skipBlanks s) = skipFrom frames s := by
  have same : skipOne frames (skipBlanks s) = skipOne frames s := by
    rw [skipOne, skipOne, skipBlanks_skipBlanks]
  rw [skipFrom_eq, skipFrom_eq, same]

theorem passes_of_front {s front rest : Bytes} (h : skipBlanks s = front)
    (passes : Passes front rest) : Passes s rest := by
  intro frames
  rw [← skipFrom_skipBlanks, h]
  exact passes frames

/-! ## Scalars -/

theorem passes_scalar {b : UInt8} {tail rest : Bytes} (solid : isBlank b = false)
    (notList : b ≠ openList) (notObject : b ≠ openObject)
    (scalar : skipScalar (b :: tail) = .ok rest) : Passes (b :: tail) rest := by
  intro frames
  have one : skipOne frames (b :: tail) = skipAfter frames rest := by
    have front : skipBlanks (b :: tail) = b :: tail := by simp [skipBlanks, solid]
    simp only [skipOne, front, notList, notObject, if_false, scalar, bind, Except.bind]
  rw [skipFrom_eq, one]
  rfl

theorem skipQuoted_hex {s rest : Bytes} {n : Nat} (h : readHex s = .ok (n, rest)) :
    skipQuoted (backslashByte :: 0x75 :: s) = skipQuoted rest := by
  unfold readHex at h
  split at h
  · split at h
    · rename_i ha hb hc hd
      cases h
      rw [skipQuoted]
      simp [ha, hb, hc, hd, show backslashByte ≠ quoteByte by decide]
    · contradiction
  · contradiction

theorem skipQuoted_trailing {leading : Nat} {s rest : Bytes} {c : Char}
    (h : readTrailing leading s = .ok (c, rest)) : skipQuoted s = skipQuoted rest := by
  unfold readTrailing at h
  split at h
  · contradiction
  · split at h
    · contradiction
    · rename_i backslash
      split at h
      · contradiction
      · split at h
        · contradiction
        · rename_i hex
          obtain ⟨⟨n, after⟩, trailing, h⟩ := ok_of_bind h
          dsimp only at h
          split at h
          · have last := (Prod.mk.inj (Except.ok.inj h)).2
            rw [Decidable.not_not.mp backslash, Decidable.not_not.mp hex, skipQuoted_hex trailing,
              last]
          · contradiction

theorem skipQuoted_escape {s rest bytes : Bytes} (h : readEscape s = .ok (bytes, rest)) :
    skipQuoted (backslashByte :: s) = skipQuoted rest := by
  unfold readEscape at h
  split at h
  · contradiction
  · rename_i b tail
    split at h
    · rename_i hex
      subst hex
      obtain ⟨⟨n, after⟩, first, h⟩ := ok_of_bind h
      rw [skipQuoted_hex first]
      dsimp only at h
      split at h
      · contradiction
      · split at h
        · obtain ⟨⟨c, behind⟩, second, h⟩ := ok_of_bind h
          have last : behind = rest := (Prod.mk.inj (Except.ok.inj h)).2
          rw [skipQuoted_trailing second, last]
        · have last := (Prod.mk.inj (Except.ok.inj h)).2
          rw [last]
    · rename_i notHex
      split at h
      · rename_i byte short
        cases h
        rw [skipQuoted.eq_def]
        simp [notHex, short, show backslashByte ≠ quoteByte by decide]
      · contradiction

theorem skipQuoted_of_readQuoted {sofar s bytes rest : Bytes}
    (h : readQuoted sofar s = .ok (bytes, rest)) : skipQuoted s = .ok rest := by
  induction sofar, s using readQuoted.induct with
  | case1 => simp [readQuoted] at h
  | case2 sofar tail =>
    rw [readQuoted, if_pos rfl] at h
    cases h
    rw [skipQuoted.eq_def]
    rfl
  | case3 sofar tail fault escape notQuote =>
    rw [readQuoted] at h
    simp only [notQuote, if_false, if_true] at h
    split at h
    · contradiction
    · rename_i found
      rw [escape] at found
      contradiction
  | case4 sofar tail escaped after escape _ notQuote ih =>
    rw [readQuoted] at h
    simp only [notQuote, if_false, if_true] at h
    split at h
    · contradiction
    · rename_i found
      rw [escape] at found
      cases found
      rw [skipQuoted_escape escape]
      exact ih h
  | case5 sofar b tail notQuote notBackslash control =>
    rw [readQuoted] at h
    simp only [notQuote, notBackslash, control, if_false, if_true] at h
    contradiction
  | case6 sofar b tail notQuote notBackslash control ih =>
    rw [readQuoted] at h
    simp only [notQuote, notBackslash, control, if_false] at h
    rw [skipQuoted.eq_def]
    simp only [notQuote, notBackslash, control, if_false]
    exact ih h

theorem skipQuoted_of_readText {s rest : Bytes} {text : String}
    (h : readText s = .ok (text, rest)) : skipQuoted s = .ok rest := by
  obtain ⟨⟨bytes, after⟩, quoted, h⟩ := ok_of_bind h
  dsimp only at h
  split at h
  · cases h
    exact skipQuoted_of_readQuoted quoted
  · contradiction

/-! ### Numbers -/

theorem scanWhole_cause {one : Cause} (other : Cause) {s : Bytes} {r : Front Bytes}
    (h : scanWhole one s = .ok r) : scanWhole other s = .ok r := by
  unfold scanWhole at h ⊢
  split at h
  · contradiction
  · exact h

theorem scanFraction_cause {one : Cause} (other : Cause) {s : Bytes} {r : Front Bytes}
    (h : scanFraction one s = .ok r) : scanFraction other s = .ok r := by
  unfold scanFraction at h ⊢
  split at h
  · split at h
    · contradiction
    · rename_i some
      rw [if_neg some]
      exact h
  · exact h

theorem scanExponent_cause {one : Cause} (other : Cause) {s : Bytes}
    {r : Front (Option (Bool × Bytes))} (h : scanExponent one s = .ok r) :
    scanExponent other s = .ok r := by
  unfold scanExponent at h ⊢
  split at h
  · exact h
  · split at h
    · rename_i opens
      rw [if_pos opens]
      split at h
      · contradiction
      · exact h
    · rename_i notOpens
      rw [if_neg notOpens]
      exact h

theorem scanNumeral_cause {one : Cause} (other : Cause) {s : Bytes} {r : Front Numeral}
    (h : scanNumeral one s = .ok r) : scanNumeral other s = .ok r := by
  have unsigned : ∀ negative s, scanUnsigned one negative s = .ok r →
      scanUnsigned other negative s = .ok r := by
    intro negative s h
    obtain ⟨⟨whole, afterWhole⟩, first, h⟩ := ok_of_bind h
    obtain ⟨⟨fraction, afterFraction⟩, second, h⟩ := ok_of_bind h
    obtain ⟨⟨exponent, afterExponent⟩, third, h⟩ := ok_of_bind h
    simp only [scanUnsigned, scanWhole_cause other first, scanFraction_cause other second,
      scanExponent_cause other third, bind, Except.bind]
    exact h
  unfold scanNumeral at h ⊢
  split at h
  · exact unsigned _ _ h
  · exact unsigned _ _ h

theorem opens_number {b : UInt8} (opens : b = 0x2D ∨ isDigit b = true) : isBlank b = false ∧
    b ≠ 0x6E ∧ b ≠ 0x74 ∧ b ≠ 0x66 ∧ b ≠ quoteByte ∧ b ≠ openList ∧ b ≠ openObject := by
  have all : ∀ n : Fin 256, UInt8.ofNat n = 0x2D ∨ isDigit (UInt8.ofNat n) = true →
      isBlank (UInt8.ofNat n) = false ∧ UInt8.ofNat n ≠ 0x6E ∧ UInt8.ofNat n ≠ 0x74 ∧
        UInt8.ofNat n ≠ 0x66 ∧ UInt8.ofNat n ≠ quoteByte ∧ UInt8.ofNat n ≠ openList ∧
        UInt8.ofNat n ≠ openObject := by
    decide +kernel
  have same : UInt8.ofNat b.toNat = b := UInt8.ofNat_toNat
  have byte := all ⟨b.toNat, b.toNat_lt⟩
  simp only [same] at byte
  exact byte opens

theorem skipScalar_numeral {b : UInt8} {tail rest : Bytes} {n : Numeral}
    (opens : b = 0x2D ∨ isDigit b = true)
    (scanned : scanNumeral .invalidNumber (b :: tail) = .ok (n, rest)) :
    skipScalar (b :: tail) = .ok rest := by
  obtain ⟨_, notNull, notTrue, notFalse, notText, _⟩ := opens_number opens
  unfold skipScalar
  split
  · exact absurd (List.cons.inj ‹_›).1 notNull
  · exact absurd (List.cons.inj ‹_›).1 notTrue
  · exact absurd (List.cons.inj ‹_›).1 notFalse
  · rename_i same
    cases same
    simp only [notText, if_false, if_pos opens, scanned]
    rfl
  · contradiction

theorem skipScalar_number {b : UInt8} {tail rest : Bytes} {n : Number}
    (opens : b = 0x2D ∨ isDigit b = true) (h : readNumber (b :: tail) = .ok (n, rest)) :
    skipScalar (b :: tail) = .ok rest := by
  obtain ⟨⟨numeral, after⟩, scanned, h⟩ := ok_of_bind h
  have last : after = rest := by
    dsimp only at h
    split at h
    · exact (Prod.mk.inj (Except.ok.inj h)).2
    · contradiction
  subst last
  exact skipScalar_numeral opens (scanNumeral_cause .invalidNumber scanned)

/-! ## Lists and objects -/

section Containers
variable {onItem : σ → Bytes → Except Fault (Front σ)}
  {onMember : σ → String → Bytes → Except Fault (Front σ)}

theorem skipOnward_list
    (passes : ∀ state s next rest, onItem state s = .ok (next, rest) → Passes s rest)
    {fuel : Nat} {state last : σ} {s rest : Bytes}
    (h : foldItems onItem fuel false state s = .ok (last, rest)) (frames : List Frame) :
    skipOnward (.list :: frames) s = skipOnward frames rest := by
  -- one round for each item: skipping goes over its comma and value to the next one
  induction fuel generalizing state s with
  | zero => contradiction
  | succ fuel ih =>
    obtain ⟨⟨more, after⟩, item, h⟩ := ok_of_bind h
    unfold nextItem at item
    split at item
    · contradiction
    · rename_i b tail front
      split at item
      · rename_i closing
        cases item
        cases h
        have close : skipAfter (.list :: frames) s = skipAfter frames rest := by
          simp [skipAfter, front, closing, Frame.close, commaByte]
        rw [skipOnward, close]
        rfl
      · rename_i notClosing
        rw [if_neg Bool.false_ne_true] at item
        split at item
        · rename_i comma
          split at item
          · contradiction
          · rename_i c behind next
            split at item
            · contradiction
            · cases item
              obtain ⟨⟨state', s'⟩, read, h⟩ := ok_of_bind h
              have go : skipAfter (.list :: frames) s = .ok (.list :: frames, tail) := by
                simp [skipAfter, front, comma]
              have value := passes_of_front next (passes _ _ _ _ read) (.list :: frames)
              rw [skipOnward, go]
              exact value.trans (ih h)
        · contradiction

theorem passes_list
    (passes : ∀ state s next rest, onItem state s = .ok (next, rest) → Passes s rest)
    {fuel : Nat} {state last : σ} {s rest : Bytes}
    (h : foldItems onItem fuel true state s = .ok (last, rest)) : Passes (openList :: s) rest := by
  intro frames
  have front : skipBlanks (openList :: s) = openList :: s := rfl
  cases fuel with
  | zero => contradiction
  | succ fuel =>
    obtain ⟨⟨more, after⟩, item, h⟩ := ok_of_bind h
    unfold nextItem at item
    split at item
    · contradiction
    · rename_i b tail first
      split at item
      · rename_i closing
        cases item
        cases h
        have one : skipOne frames (openList :: s) = skipAfter frames rest := by
          simp only [skipOne, front, if_true, first, closing]
        rw [skipFrom_eq, one]
        rfl
      · rename_i notClosing
        rw [if_pos rfl] at item
        cases item
        obtain ⟨⟨state', s'⟩, read, h⟩ := ok_of_bind h
        have one : skipOne frames (openList :: s) = .ok (.list :: frames, b :: tail) := by
          simp only [skipOne, front, if_true, first, notClosing, if_false]
        have value := passes _ _ _ _ read (.list :: frames)
        rw [skipFrom_eq, one]
        exact value.trans (skipOnward_list passes h frames)

theorem skipName_of_readText {name : String} {s tail after value : Bytes}
    (front : skipBlanks s = quoteByte :: tail) (text : readText tail = .ok (name, after))
    (colon : readColon after = .ok value) : skipName s = .ok value := by
  simp only [skipName, front, if_true, skipQuoted_of_readText text, bind, Except.bind, colon]

theorem skipOnward_object
    (passes : ∀ state name s next rest, onMember state name s = .ok (next, rest) →
      ∃ value, readColon s = .ok value ∧ Passes value rest)
    {fuel : Nat} {state last : σ} {s rest : Bytes}
    (h : foldMembers onMember fuel false state s = .ok (last, rest)) (frames : List Frame) :
    skipOnward (.object :: frames) s = skipOnward frames rest := by
  induction fuel generalizing state s with
  | zero => contradiction
  | succ fuel ih =>
    obtain ⟨⟨name?, after⟩, named, h⟩ := ok_of_bind h
    unfold nextName at named
    split at named
    · contradiction
    · rename_i b tail front
      split at named
      · rename_i closing
        cases named
        cases h
        have close : skipAfter (.object :: frames) s = skipAfter frames rest := by
          simp [skipAfter, front, closing, Frame.close, commaByte]
        rw [skipOnward, close]
        rfl
      · rw [if_neg Bool.false_ne_true] at named
        split at named
        · rename_i comma
          split at named
          · contradiction
          · rename_i c behind next
            split at named
            · rename_i quote
              subst quote
              obtain ⟨⟨name, s'⟩, text, same⟩ := ok_of_map named
              cases same
              obtain ⟨⟨state', s''⟩, read, h⟩ := ok_of_bind h
              obtain ⟨value, colon, goes⟩ := passes _ _ _ _ _ read
              have go : skipAfter (.object :: frames) s = .ok (.object :: frames, value) := by
                simp only [skipAfter, front, comma, if_true, skipName_of_readText next text colon]
                rfl
              rw [skipOnward, go]
              exact (goes (.object :: frames)).trans (ih h)
            · split at named <;> contradiction
        · contradiction

theorem passes_object
    (passes : ∀ state name s next rest, onMember state name s = .ok (next, rest) →
      ∃ value, readColon s = .ok value ∧ Passes value rest)
    {fuel : Nat} {state last : σ} {s rest : Bytes}
    (h : foldMembers onMember fuel true state s = .ok (last, rest)) :
    Passes (openObject :: s) rest := by
  intro frames
  have front : skipBlanks (openObject :: s) = openObject :: s := rfl
  have notList : openObject ≠ openList := by decide
  cases fuel with
  | zero => contradiction
  | succ fuel =>
    obtain ⟨⟨name?, after⟩, named, h⟩ := ok_of_bind h
    unfold nextName at named
    split at named
    · contradiction
    · rename_i b tail first
      split at named
      · rename_i closing
        cases named
        cases h
        have one : skipOne frames (openObject :: s) = skipAfter frames rest := by
          simp only [skipOne, front, notList, if_false, if_true, first, closing]
        rw [skipFrom_eq, one]
        rfl
      · rename_i notClosing
        rw [if_pos rfl] at named
        split at named
        · rename_i quote
          subst quote
          obtain ⟨⟨name, s'⟩, text, same⟩ := ok_of_map named
          cases same
          obtain ⟨⟨state', s''⟩, read, h⟩ := ok_of_bind h
          obtain ⟨value, colon, goes⟩ := passes _ _ _ _ _ read
          have named : skipName (quoteByte :: tail) = .ok value :=
            skipName_of_readText rfl text colon
          have one : skipOne frames (openObject :: s) = .ok (.object :: frames, value) := by
            simp only [skipOne, front, notList, if_false, if_true, first, notClosing, named]
            rfl
          rw [skipFrom_eq, one]
          exact (goes (.object :: frames)).trans (skipOnward_object passes h frames)
        · contradiction

end Containers

/-! ## Values -/

def Skippable (read : Bytes → Except Fault (Front α)) : Prop :=
  ∀ s a rest, read s = .ok (a, rest) → Passes s rest

theorem passes_readText {s rest : Bytes} {text : String}
    (h : readText s = .ok (text, rest)) : Passes (quoteByte :: s) rest :=
  passes_scalar (by decide) (by decide) (by decide) (skipQuoted_of_readText h)

theorem skippable_readTextValue : Skippable readTextValue := by
  intro s text rest h
  unfold readTextValue at h
  split at h
  · contradiction
  · rename_i b tail front
    split at h
    · rename_i quote
      exact passes_of_front front (quote ▸ passes_readText h)
    · contradiction

theorem passes_readDictionary {item : Bytes → Except Fault (Front Value)} (skips : Skippable item)
    {s rest : Bytes} {d : Dictionary Value} (h : readDictionary item s = .ok (d, rest)) :
    Passes (openObject :: s) rest := by
  refine passes_object (fun state name s next rest h => ?_) h
  obtain ⟨value, colon, h⟩ := ok_of_bind h
  obtain ⟨⟨v, after⟩, read, h⟩ := ok_of_bind h
  cases h
  exact ⟨value, colon, skips _ _ _ read⟩

theorem passes_readItems {item : Bytes → Except Fault (Front Value)} (skips : Skippable item)
    {s rest : Bytes} {items : List Value} (h : readItems item s = .ok (items, rest)) :
    Passes (openList :: s) rest := by
  obtain ⟨⟨reversed, after⟩, fold, h⟩ := ok_of_bind h
  cases h
  refine passes_list (fun state s next rest h => ?_) fold
  obtain ⟨⟨v, after⟩, read, h⟩ := ok_of_bind h
  cases h
  exact skips _ _ _ read

theorem skippable_readValueWith {inside : Except Cause (Bytes → Except Fault (Front Value))}
    (skips : ∀ item, inside = .ok item → Skippable item) : Skippable (readValueWith inside) := by
  intro s v rest h
  unfold readValueWith at h
  split at h
  · contradiction
  · rename_i tail front
    obtain ⟨after, literal, same⟩ := ok_of_map h
    cases same
    exact passes_of_front front (passes_scalar (by decide) (by decide) (by decide) literal)
  · rename_i tail front
    obtain ⟨after, literal, same⟩ := ok_of_map h
    cases same
    exact passes_of_front front (passes_scalar (by decide) (by decide) (by decide) literal)
  · rename_i tail front
    obtain ⟨after, literal, same⟩ := ok_of_map h
    cases same
    exact passes_of_front front (passes_scalar (by decide) (by decide) (by decide) literal)
  · rename_i b tail _ _ _ front
    refine passes_of_front front ?_
    split at h
    · rename_i quote
      obtain ⟨⟨text, after⟩, read, same⟩ := ok_of_map h
      cases same
      exact quote ▸ passes_readText read
    · split at h
      · rename_i opens
        obtain ⟨⟨n, after⟩, read, same⟩ := ok_of_map h
        cases same
        obtain ⟨solid, _, _, _, _, notList, notObject⟩ := opens_number opens
        exact passes_scalar solid notList notObject (skipScalar_number opens read)
      · split at h
        · rename_i list
          split at h
          · contradiction
          · rename_i item
            obtain ⟨⟨items, after⟩, read, same⟩ := ok_of_map h
            cases same
            exact list ▸ passes_readItems (skips item rfl) read
        · split at h
          · rename_i object
            split at h
            · contradiction
            · rename_i item
              obtain ⟨⟨d, after⟩, read, same⟩ := ok_of_map h
              cases same
              exact object ▸ passes_readDictionary (skips item rfl) read
          · contradiction

theorem skippable_readValue (depth : Nat) : Skippable (readValue depth) := by
  induction depth with
  | zero =>
    refine skippable_readValueWith fun item same => ?_
    contradiction
  | succ depth ih =>
    refine skippable_readValueWith fun item same => ?_
    cases same
    exact ih

theorem skippable_readObjectValue (depth : Nat) : Skippable (readObjectValue depth) := by
  intro s d rest h
  unfold readObjectValue at h
  split at h
  · contradiction
  · rename_i b tail front
    split at h
    · rename_i object
      split at h
      · contradiction
      · exact passes_of_front front
          (object ▸ passes_readDictionary (skippable_readValue _) h)
    · contradiction

theorem skippable_readNullable {read : Bytes → Except Fault (Front α)} (skips : Skippable read) :
    Skippable (readNullable read) := by
  intro s a rest h
  unfold readNullable at h
  split at h
  · rename_i tail front
    obtain ⟨after, literal, same⟩ := ok_of_map h
    cases same
    exact passes_of_front front (passes_scalar (by decide) (by decide) (by decide) literal)
  · obtain ⟨⟨v, after⟩, value, same⟩ := ok_of_map h
    cases same
    exact passes_of_front rfl (skips _ _ _ value)

end RequestBus.Json
