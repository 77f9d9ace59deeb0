import RequestBus.Base64
import RequestBus.Proofs.Text.Order
import RequestBus.Text.Blank

namespace RequestBus.Base64

open Utf8

theorem symbol_spec {n : Nat} (h : n < 64) :
    value? (symbol n) = some n ∧ (symbol n != pad) = true := by
  have all : ∀ n : Fin 64, value? (symbol n) = some n.val ∧ (symbol n != pad) = true := by decide
  exact all ⟨n, h⟩

theorem values_symbols (offset : Nat) {bits : List Nat} (h : ∀ n ∈ bits, n < 64) :
    values offset (bits.map symbol) = .ok bits := by
  induction bits generalizing offset with
  | nil => rfl
  | cons n bits ih =>
    simp only [List.map_cons, values, (symbol_spec (h n List.mem_cons_self)).1,
      ih (offset + 1) fun m hm => h m (List.mem_cons_of_mem _ hm)]
    rfl

theorem split_padding {bits : List Nat} (h : ∀ n ∈ bits, n < 64) (k : Nat) :
    (bits.map symbol ++ List.replicate k pad).takeWhile (· != pad) = bits.map symbol ∧
      (bits.map symbol ++ List.replicate k pad).dropWhile (· != pad) = List.replicate k pad := by
  have symbols : ∀ b ∈ bits.map symbol, (b != pad) = true := by
    intro b hb
    obtain ⟨n, hn, rfl⟩ := List.mem_map.mp hb
    exact (symbol_spec (h n hn)).2
  rw [List.takeWhile_append_of_pos symbols, List.dropWhile_append_of_pos symbols]
  cases k <;> simp [List.replicate_succ]

section Last
variable {x y z : Nat} (hx : x < 64) (hy : y < 64)
include hx hy

theorem decodeLast_two (unused : y % 16 = 0) (offset : Nat) :
    decodeLast offset [symbol x, symbol y, pad, pad] = .ok [UInt8.ofNat (x * 4 + y / 16)] := by
  have small : ∀ n ∈ [x, y], n < 64 := by simp [hx, hy]
  obtain ⟨symbols, padding⟩ := split_padding small 2
  have read := values_symbols offset small
  simp only [List.map_cons, List.map_nil, List.replicate, List.cons_append, List.nil_append]
    at symbols padding read
  simp [decodeLast, symbols, padding, read, bind, Except.bind, unused]

theorem decodeLast_three (hz : z < 64) (unused : z % 4 = 0) (offset : Nat) :
    decodeLast offset [symbol x, symbol y, symbol z, pad] =
      .ok [UInt8.ofNat (x * 4 + y / 16), UInt8.ofNat (y % 16 * 16 + z / 4)] := by
  have small : ∀ n ∈ [x, y, z], n < 64 := by simp [hx, hy, hz]
  obtain ⟨symbols, padding⟩ := split_padding small 1
  have read := values_symbols offset small
  simp only [List.map_cons, List.map_nil, List.replicate, List.cons_append, List.nil_append]
    at symbols padding read
  simp [decodeLast, symbols, padding, read, bind, Except.bind, unused]

theorem decodeLast_four {u : Nat} (hz : z < 64) (hu : u < 64) (offset : Nat) :
    decodeLast offset [symbol x, symbol y, symbol z, symbol u] =
      .ok [UInt8.ofNat (x * 4 + y / 16), UInt8.ofNat (y % 16 * 16 + z / 4),
        UInt8.ofNat (z % 4 * 64 + u)] := by
  have small : ∀ n ∈ [x, y, z, u], n < 64 := by simp [hx, hy, hz, hu]
  obtain ⟨symbols, padding⟩ := split_padding small 0
  have read := values_symbols offset small
  simp only [List.map_cons, List.map_nil, List.replicate, List.append_nil] at symbols padding read
  simp [decodeLast, symbols, padding, read, bind, Except.bind]

theorem decodeGroup_four {u : Nat} (hz : z < 64) (hu : u < 64) (offset : Nat) :
    decodeFrom.decodeGroup offset (symbol x) (symbol y) (symbol z) (symbol u) =
      .ok [UInt8.ofNat (x * 4 + y / 16), UInt8.ofNat (y % 16 * 16 + z / 4),
        UInt8.ofNat (z % 4 * 64 + u)] := by
  have small : ∀ n ∈ [x, y, z, u], n < 64 := by simp [hx, hy, hz, hu]
  have read := values_symbols offset small
  simp only [List.map_cons, List.map_nil] at read
  simp only [decodeFrom.decodeGroup, read, bind, Except.bind]
  rfl

end Last

theorem byte_of_bits {n : Nat} (b : UInt8) (h : n = b.toNat) : UInt8.ofNat n = b := by
  rw [h]
  exact UInt8.ofNat_toNat

theorem decodeFrom_encodeBytes (payload : Bytes) (offset : Nat) :
    decodeFrom offset (encodeBytes payload) = .ok payload := by
  induction payload using encodeBytes.induct generalizing offset with
  | case1 => rfl
  | case2 a =>
    have small := a.toNat_lt
    rw [encodeBytes, decodeFrom, decodeLast_two (by omega) (by omega) (by omega),
      byte_of_bits a (by omega)]
    simp
  | case3 a b =>
    have smallA := a.toNat_lt
    have smallB := b.toNat_lt
    rw [encodeBytes, decodeFrom, decodeLast_three (by omega) (by omega) (by omega) (by omega),
      byte_of_bits a (by omega), byte_of_bits b (by omega)]
    simp
  | case4 a b c rest ih =>
    have smallA := a.toNat_lt
    have smallB := b.toNat_lt
    have smallC := c.toNat_lt
    rw [encodeBytes]
    cases written : encodeBytes rest with
    | nil =>
      have none : rest = [] := by
        have read := ih 0
        rw [written] at read
        exact (Except.ok.inj read).symm
      rw [decodeFrom, decodeLast_four (by omega) (by omega) (by omega) (by omega),
        byte_of_bits a (by omega), byte_of_bits b (by omega), byte_of_bits c (by omega), none]
      simp
    | cons e more =>
      have later := ih (offset + 4)
      rw [written] at later
      rw [decodeFrom, decodeGroup_four (by omega) (by omega) (by omega) (by omega), later,
        byte_of_bits a (by omega), byte_of_bits b (by omega), byte_of_bits c (by omega)]
      rfl

theorem length_encodeBytes (payload : Bytes) : (encodeBytes payload).length % 4 = 0 := by
  induction payload using encodeBytes.induct with
  | case1 => rfl
  | case2 a => simp [encodeBytes]
  | case3 a b => simp [encodeBytes]
  | case4 a b c rest ih =>
    simp only [encodeBytes, List.length_cons]
    omega

theorem decodeBytes_encodeBytes (payload : Bytes) :
    decodeBytes (encodeBytes payload) = .ok payload := by
  have whole : strayEnd? (encodeBytes payload) = none := by
    have length := length_encodeBytes payload
    rw [strayEnd?, if_neg (by omega)]
  rw [decodeBytes, whole]
  exact decodeFrom_encodeBytes payload 0

def IsSign (b : UInt8) : Prop := b = pad ∨ ∃ n < 64, b = symbol n

theorem isSign_of_mem {payload : Bytes} {b : UInt8} (member : b ∈ encodeBytes payload) :
    IsSign b := by
  have six : ∀ n, n < 64 → IsSign (symbol n) := fun n h => .inr ⟨n, h, rfl⟩
  induction payload using encodeBytes.induct with
  | case1 => contradiction
  | case2 a =>
    have small := a.toNat_lt
    simp only [encodeBytes, List.mem_cons, List.not_mem_nil, or_false] at member
    rcases member with rfl | rfl | rfl | rfl
    · exact six _ (by omega)
    · exact six _ (by omega)
    · exact .inl rfl
    · exact .inl rfl
  | case3 a b =>
    have smallA := a.toNat_lt
    have smallB := b.toNat_lt
    simp only [encodeBytes, List.mem_cons, List.not_mem_nil, or_false] at member
    rcases member with rfl | rfl | rfl | rfl
    · exact six _ (by omega)
    · exact six _ (by omega)
    · exact six _ (by omega)
    · exact .inl rfl
  | case4 a b c rest ih =>
    have smallA := a.toNat_lt
    have smallB := b.toNat_lt
    have smallC := c.toNat_lt
    simp only [encodeBytes, List.mem_cons] at member
    rcases member with rfl | rfl | rfl | rfl | later
    · exact six _ (by omega)
    · exact six _ (by omega)
    · exact six _ (by omega)
    · exact six _ (by omega)
    · exact ih later

theorem char_of_isSign {b : UInt8} (h : IsSign b) :
    encodeChar (Char.ofNat b.toNat) = [b] ∧ Text.isBlank (Char.ofNat b.toNat) = false := by
  have all : ∀ n : Fin 64, encodeChar (Char.ofNat (symbol n).toNat) = [symbol n] ∧
      Text.isBlank (Char.ofNat (symbol n).toNat) = false := by decide
  rcases h with rfl | ⟨n, small, rfl⟩
  · decide
  · exact all ⟨n, small⟩

theorem encode_encode (payload : Bytes) : Utf8.encode (encode payload) = encodeBytes payload := by
  have signs : ∀ b ∈ encodeBytes payload, IsSign b := fun b => isSign_of_mem
  rw [encode, Utf8.encode, String.toList_ofList]
  generalize encodeBytes payload = signed at signs
  induction signed with
  | nil => rfl
  | cons b signed ih =>
    rw [List.map_cons, encodeChars_cons, (char_of_isSign (signs b List.mem_cons_self)).1,
      ih fun c hc => signs c (List.mem_cons_of_mem _ hc)]
    rfl

theorem decode_encode (payload : Bytes) : decode (encode payload) = .ok payload := by
  rw [decode, encode_encode, decodeBytes_encodeBytes]

theorem notBlank_encode (payload : Bytes) : ∀ c ∈ (encode payload).toList,
    Text.isBlank c = false := by
  intro c member
  rw [encode, String.toList_ofList] at member
  obtain ⟨b, hb, rfl⟩ := List.mem_map.mp member
  exact (char_of_isSign (isSign_of_mem hb)).2

theorem symbol_of_value? {b : UInt8} {n : Nat} (h : value? b = some n) : b = symbol n ∧ n < 64 := by
  have all : ∀ m : Fin 256, ∀ n, value? (UInt8.ofNat m) = some n →
      UInt8.ofNat m = symbol n ∧ n < 64 := by
    have each : ∀ m : Fin 256, (value? (UInt8.ofNat m)).all fun n =>
        UInt8.ofNat m == symbol n && n < 64 := by decide +kernel
    intro m n found
    have this := each m
    rw [found] at this
    simpa using this
  have same : UInt8.ofNat b.toNat = b := UInt8.ofNat_toNat
  have byte := all ⟨b.toNat, b.toNat_lt⟩ n
  simp only [same] at byte
  exact byte h

theorem symbols_of_values {offset : Nat} {signs : Bytes} {bits : List Nat}
    (h : values offset signs = .ok bits) : signs = bits.map symbol ∧ ∀ n ∈ bits, n < 64 := by
  induction signs generalizing offset bits with
  | nil =>
    cases h
    exact ⟨rfl, fun n member => nomatch member⟩
  | cons b signs ih =>
    rw [values] at h
    split at h
    · contradiction
    · rename_i n found
      obtain ⟨same, small⟩ := symbol_of_value? found
      cases later : values (offset + 1) signs with
      | error e =>
        rw [later] at h
        contradiction
      | ok more =>
        rw [later] at h
        cases h
        obtain ⟨rest, all⟩ := ih later
        refine ⟨by rw [same, rest, List.map_cons], fun m member => ?_⟩
        rcases List.mem_cons.mp member with rfl | member
        · exact small
        · exact all m member

theorem encode_one {x y : Nat} (hx : x < 64) (hy : y < 64) (unused : y % 16 = 0) :
    encodeBytes [UInt8.ofNat (x * 4 + y / 16)] = [symbol x, symbol y, pad, pad] := by
  have first := toNat_ofNat (n := x * 4 + y / 16) (by omega)
  rw [encodeBytes, first, show (x * 4 + y / 16) / 4 = x by omega,
    show (x * 4 + y / 16) % 4 * 16 = y by omega]

theorem encode_two {x y z : Nat} (hx : x < 64) (hy : y < 64) (hz : z < 64) (unused : z % 4 = 0) :
    encodeBytes [UInt8.ofNat (x * 4 + y / 16), UInt8.ofNat (y % 16 * 16 + z / 4)] =
      [symbol x, symbol y, symbol z, pad] := by
  have first := toNat_ofNat (n := x * 4 + y / 16) (by omega)
  have second := toNat_ofNat (n := y % 16 * 16 + z / 4) (by omega)
  rw [encodeBytes, first, second, show (x * 4 + y / 16) / 4 = x by omega,
    show (x * 4 + y / 16) % 4 * 16 + (y % 16 * 16 + z / 4) / 16 = y by omega,
    show (y % 16 * 16 + z / 4) % 16 * 4 = z by omega]

theorem encode_three {x y z u : Nat} (hx : x < 64) (hy : y < 64) (hz : z < 64) (hu : u < 64)
    (more : Bytes) :
    encodeBytes (UInt8.ofNat (x * 4 + y / 16) :: UInt8.ofNat (y % 16 * 16 + z / 4) ::
      UInt8.ofNat (z % 4 * 64 + u) :: more) =
      symbol x :: symbol y :: symbol z :: symbol u :: encodeBytes more := by
  have first := toNat_ofNat (n := x * 4 + y / 16) (by omega)
  have second := toNat_ofNat (n := y % 16 * 16 + z / 4) (by omega)
  have third := toNat_ofNat (n := z % 4 * 64 + u) (by omega)
  rw [encodeBytes, first, second, third, show (x * 4 + y / 16) / 4 = x by omega,
    show (x * 4 + y / 16) % 4 * 16 + (y % 16 * 16 + z / 4) / 16 = y by omega,
    show (y % 16 * 16 + z / 4) % 16 * 4 + (z % 4 * 64 + u) / 64 = z by omega,
    show (z % 4 * 64 + u) % 64 = u by omega]

theorem eq_of_decodeLast {offset : Nat} {group payload : Bytes} (short : group.length ≤ 4)
    (h : decodeLast offset group = .ok payload) : group = encodeBytes payload := by
  have parts : group.takeWhile (· != pad) ++ group.dropWhile (· != pad) = group :=
    List.takeWhile_append_dropWhile
  unfold decodeLast at h
  dsimp only at h
  generalize group.takeWhile (· != pad) = symbols at parts h
  generalize group.dropWhile (· != pad) = padding at parts h
  cases read : values offset symbols with
  | error e =>
    rw [read] at h
    contradiction
  | ok bits =>
    obtain ⟨rfl, small⟩ := symbols_of_values read
    simp only [read, bind, Except.bind, List.length_map] at h
    split at h
    · contradiction
    · rename_i proper
      split at h
      · contradiction
      · rename_i notOne
        split at h
        · contradiction
        · rename_i whole
          have length := congrArg List.length parts
          rw [List.length_append, List.length_map] at length
          have few : padding = [] ∨ 2 ≤ bits.length := by
            by_cases none : padding = []
            · exact .inl none
            · exact .inr (Nat.le_of_not_lt fun low => proper ⟨none, .inl low⟩)
          have padded : padding = List.replicate padding.length pad := by
            refine List.eq_replicate_of_mem fun b member =>
              Decidable.byContradiction fun other => ?_
            refine proper ⟨List.ne_nil_of_mem member, .inr ?_⟩
            exact List.any_eq_true.mpr ⟨b, member, by simpa using other⟩
          rw [← parts]
          match bits with
          | [] =>
            cases h
            rcases few with rfl | two
            · rfl
            · contradiction
          | [x] => exact absurd rfl notOne
          | [x, y] =>
            have two : padding.length = 2 := by
              simp only [List.length_cons, List.length_nil] at length whole
              omega
            simp only [List.map_cons, List.map_nil] at h
            rw [padded, two]
            split at h
            · rename_i unused
              cases h
              exact (encode_one (small x (by simp)) (small y (by simp)) unused).symm
            · contradiction
          | [x, y, z] =>
            have one : padding.length = 1 := by
              simp only [List.length_cons, List.length_nil] at length whole
              omega
            simp only [List.map_cons, List.map_nil] at h
            rw [padded, one]
            split at h
            · rename_i unused
              cases h
              exact (encode_two (small x (by simp)) (small y (by simp)) (small z (by simp))
                unused).symm
            · contradiction
          | [x, y, z, u] =>
            have none : padding.length = 0 := by
              simp only [List.length_cons, List.length_nil] at length whole
              omega
            rw [padded, none]
            cases h
            exact (encode_three (small x (by simp)) (small y (by simp)) (small z (by simp))
              (small u (by simp)) []).symm
          | x :: y :: z :: u :: v :: more =>
            simp only [List.length_cons] at length
            omega

theorem eq_of_decodeFrom {offset : Nat} {signs payload : Bytes}
    (h : decodeFrom offset signs = .ok payload) : signs = encodeBytes payload := by
  fun_induction decodeFrom offset signs generalizing payload with
  | case1 offset a b c d e rest ih =>
    unfold decodeFrom.decodeGroup at h
    cases read : values offset [a, b, c, d] with
    | error e =>
      rw [read] at h
      contradiction
    | ok bits =>
      obtain ⟨same, small⟩ := symbols_of_values read
      rw [read] at h
      match bits with
      | [x, y, z, u] =>
        cases later : decodeFrom (offset + 4) (e :: rest) with
        | error e =>
          rw [later] at h
          contradiction
        | ok more =>
          rw [later] at h
          cases h
          have group := encode_three (small x (by simp)) (small y (by simp)) (small z (by simp))
            (small u (by simp)) more
          simp only [List.map_cons, List.map_nil, List.cons.injEq, and_true] at same
          obtain ⟨rfl, rfl, rfl, rfl⟩ := same
          rw [ih later]
          exact group.symm
      | [] | [_] | [_, _] | [_, _, _] | _ :: _ :: _ :: _ :: _ :: _ => simp at same
  | case2 offset group small =>
    refine eq_of_decodeLast (Nat.le_of_not_lt fun long => ?_) h
    match group with
    | a :: b :: c :: d :: e :: rest => exact small a b c d e rest rfl
    | [] | [_] | [_, _] | [_, _, _] | [_, _, _, _] => simp at long

/-- What is read is the padded text of the payload, and no other text. -/
theorem decode_eq_ok {text : String} {payload : Bytes} :
    decode text = .ok payload ↔ text = encode payload := by
  constructor
  · intro h
    unfold decode decodeBytes at h
    split at h
    · contradiction
    · have same := eq_of_decodeFrom h
      rw [← encode_encode] at same
      exact encode_injective same
  · rintro rfl
    exact decode_encode payload

end RequestBus.Base64
