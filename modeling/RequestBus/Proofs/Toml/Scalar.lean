import RequestBus.Proofs.Toml.Quoted
import RequestBus.Toml.Document

namespace RequestBus.Toml

open Decimal

def AllDigits (cs : List Char) : Prop := ∀ c ∈ cs, c.isDigit = true

theorem digitChar_spec : ∀ d < 10, (digitChar d).isDigit = true ∧ digitValue (digitChar d) = d ∧
    (digitChar d = '0' → d = 0) := by decide

theorem allDigits_digits (n : Nat) : AllDigits (digits n) := by
  induction n using Nat.strongRecOn with
  | _ n ih =>
    rw [digits]
    split
    · rename_i small
      exact List.forall_mem_singleton.mpr (digitChar_spec n small).1
    · refine List.forall_mem_append.mpr ⟨ih (n / 10) (by omega), ?_⟩
      exact List.forall_mem_singleton.mpr (digitChar_spec (n % 10) (by omega)).1

theorem notMem_digits {c : Char} {n : Nat} (other : c.isDigit = false) : c ∉ digits n := by
  intro member
  rw [allDigits_digits n c member] at other
  contradiction

theorem valueIn_digits (n : Nat) : valueIn 10 (digits n) = n := by
  induction n using Nat.strongRecOn with
  | _ n ih =>
    rw [digits]
    split
    · rename_i small
      simp [valueIn, (digitChar_spec n small).2.1]
    · have before := ih (n / 10) (by omega)
      have last := (digitChar_spec (n % 10) (by omega)).2.1
      unfold valueIn at before ⊢
      rw [List.foldl_append, before, List.foldl_cons, List.foldl_nil, last]
      omega

theorem eq_zero_of_head_digits {n : Nat} (zero : (digits n).head? = some '0') : n = 0 := by
  induction n using Nat.strongRecOn with
  | _ n ih =>
    rw [digits] at zero
    split at zero
    · rename_i small
      exact (digitChar_spec n small).2.2 (Option.some.inj zero)
    · rw [List.head?_append_of_ne_nil _ (digits_ne_nil _)] at zero
      have below := ih (n / 10) (by omega) zero
      omega

theorem digitsFrom_all {cs : List Char} (all : AllDigits cs) :
    digitsFrom Char.isDigit cs = (cs, []) := by
  induction cs with
  | nil => rfl
  | cons c cs ih =>
    obtain ⟨digit, behind⟩ := List.forall_mem_cons.mp all
    unfold digitsFrom
    split
    · contradiction
    · rename_i same
      cases same
      exact absurd digit (by decide)
    · rename_i same
      cases same
      simp only [digit, if_true, ih behind]

section Words
variable {cs rest : List Char}

theorem fixed?_all {count n : Nat} (all : AllDigits cs) (found : fixed? count cs = some (n, rest)) :
    AllDigits rest := by
  unfold fixed? at found
  dsimp only at found
  split at found
  · cases found
    exact fun c member => all c (List.mem_of_mem_drop member)
  · contradiction

theorem behind?_all {mark : Char} (other : mark.isDigit = false) (all : AllDigits cs) :
    behind? mark cs = none := by
  cases cs with
  | nil => rfl
  | cons c cs =>
    unfold behind?
    refine if_neg ?_
    rintro rfl
    rw [all c List.mem_cons_self] at other
    contradiction

theorem behindDate?_all (all : AllDigits cs) : behindDate? cs = none := by
  unfold behindDate?
  cases year : fixed? 4 cs with
  | none => rfl
  | some found =>
    obtain ⟨n, rest⟩ := found
    have none : behind? '-' rest = none := behind?_all (by decide) (fixed?_all all year)
    simp [none]

theorem behindTime?_all (all : AllDigits cs) : behindTime? cs = none := by
  unfold behindTime?
  cases hour : fixed? 2 cs with
  | none => rfl
  | some found =>
    obtain ⟨n, rest⟩ := found
    have none : behind? ':' rest = none := behind?_all (by decide) (fixed?_all all hour)
    simp [none]

theorem decimalNumber?_digits (n : Nat) : decimalNumber? false (digits n) = some (.whole n) := by
  have all := digitsFrom_all (allDigits_digits n)
  have proper : ¬ (1 < (digits n).length ∧ (digits n).head? = some '0') := by
    rintro ⟨long, zero⟩
    rw [eq_zero_of_head_digits zero, digits] at long
    exact absurd long (by decide)
  have whole : digits? Char.isDigit (digits n) = some (digits n, []) := by
    cases cs : digits n with
    | nil => exact absurd cs (digits_ne_nil n)
    | cons c cs' =>
      have digit := allDigits_digits n
      rw [cs] at digit
      obtain ⟨first, behind⟩ := List.forall_mem_cons.mp digit
      simp [digits?, first, digitsFrom_all behind]
  simp [decimalNumber?, whole, proper, valueIn_digits]

theorem number?_digits (n : Nat) : number? (digits n) = some (.whole n) := by
  have signed : number?.signed false (digits n) = some (.whole n) := by
    unfold number?.signed
    split
    · rename_i same
      exact absurd (show 'i' ∈ digits n by simp [same]) (notMem_digits (by decide))
    split
    · rename_i same
      exact absurd (show 'a' ∈ digits n by simp [same]) (notMem_digits (by decide))
    · exact decimalNumber?_digits n
  unfold number?
  split
  case h_1 same => exact absurd (show 'x' ∈ digits n by simp [same]) (notMem_digits (by decide))
  case h_2 same => exact absurd (show 'o' ∈ digits n by simp [same]) (notMem_digits (by decide))
  case h_3 same => exact absurd (show 'b' ∈ digits n by simp [same]) (notMem_digits (by decide))
  case h_4 same => exact absurd (show '+' ∈ digits n by simp [same]) (notMem_digits (by decide))
  case h_5 same => exact absurd (show '-' ∈ digits n by simp [same]) (notMem_digits (by decide))
  case h_6 => exact signed

theorem scalar?_digits (n : Nat) : scalar? (digits n) = some (.whole n) := by
  have all := allDigits_digits n
  have moment : isMoment (digits n) = false := by
    simp [isMoment, behindDate?_all all, behindTime?_all all]
  unfold scalar?
  split
  · rename_i same
    exact absurd (show 't' ∈ digits n by simp [same]) (notMem_digits (by decide))
  split
  · rename_i same
    exact absurd (show 'f' ∈ digits n by simp [same]) (notMem_digits (by decide))
  · rw [moment, number?_digits]
    rfl

/-- A word that nothing inside ends, and that is no text and no container. -/
structure Bare (word : List Char) : Prop where
  some : word ≠ []
  whole : ∀ c ∈ word, endsWord c = false
  starts : ∀ c ∈ word, c ≠ '"' ∧ c ≠ '\'' ∧ c ≠ '[' ∧ c ≠ '{'

theorem readScalar_bare {word : List Char} (bare : Bare word) (rest : List Char) :
    readScalar (word ++ '\n' :: rest) =
      (scalar? word).map fun d => (.scalar d, '\n' :: rest) := by
  have taken : (word ++ '\n' :: rest).takeWhile (!endsWord ·) = word := by
    rw [List.takeWhile_append_of_pos (by simpa using bare.whole)]
    simp [endsWord]
  have left : (word ++ '\n' :: rest).dropWhile (!endsWord ·) = '\n' :: rest := by
    rw [List.dropWhile_append_of_pos (by simpa using bare.whole)]
    simp [endsWord]
  unfold readScalar
  simp only [taken, left]
  split
  · rename_i same
    exact absurd (List.cons.inj same).1 (by decide)
  · rfl

theorem readTerm_bare {word : List Char} (bare : Bare word) {d : Datum}
    (means : scalar? word = some d) (depth : Nat) :
    readTerm depth (word ++ '\n' :: rest) = some (.scalar d, '\n' :: rest) := by
  have read := readScalar_bare bare rest
  rw [means] at read
  cases word with
  | nil => exact absurd rfl bare.some
  | cons c word =>
    obtain ⟨notQuote, notMark, notBracket, notBrace⟩ := bare.starts c List.mem_cons_self
    rw [List.cons_append] at read ⊢
    unfold readTerm
    split
    · rename_i same
      exact absurd (List.cons.inj same).1 notQuote
    · rename_i same
      exact absurd (List.cons.inj same).1 notMark
    · rename_i same
      exact absurd (List.cons.inj same).1 notBracket
    · rename_i same
      exact absurd (List.cons.inj same).1 notBrace
    · exact read

theorem bare_digits (n : Nat) : Bare (digits n) where
  some := digits_ne_nil n
  whole c member := by
    cases ends : endsWord c with
    | false => rfl
    | true =>
      simp only [endsWord, Bool.or_eq_true, beq_iff_eq, or_assoc] at ends
      rcases ends with rfl | rfl | rfl | rfl | rfl | rfl | rfl | rfl | rfl <;>
        exact absurd member (notMem_digits (by decide))
  starts c member := by
    refine ⟨?_, ?_, ?_, ?_⟩ <;> rintro rfl <;> exact absurd member (notMem_digits (by decide))

theorem bare_flag (b : Bool) : ∃ word, writeScalar (.flag b) = some word ∧ Bare word ∧
    scalar? word = some (.flag b) := by
  cases b with
  | true => exact ⟨_, rfl, ⟨by simp, by simp [endsWord], by simp⟩, rfl⟩
  | false => exact ⟨_, rfl, ⟨by simp, by simp [endsWord], by simp⟩, rfl⟩

theorem writeText_head (cs : List Char) :
    ∃ first more, writeText cs = first :: more ∧ (first = '"' ∨ first = '\'') := by
  unfold writeText
  dsimp only
  split
  · exact ⟨'"', _, rfl, .inl rfl⟩
  split
  · exact ⟨'\'', _, rfl, .inr rfl⟩
  split
  · exact ⟨'"', _, rfl, .inl rfl⟩
  split
  · exact ⟨'\'', _, rfl, .inr rfl⟩
  split <;> exact ⟨'"', _, rfl, .inl rfl⟩

theorem readTerm_text (cs rest : List Char) (depth : Nat) :
    readTerm depth (writeText cs ++ '\n' :: rest) =
      some (.scalar (.text (String.ofList cs)), '\n' :: rest) := by
  have read := readText_writeText cs rest
  obtain ⟨first, more, whole, quotes⟩ := writeText_head cs
  rw [whole, List.cons_append] at read ⊢
  unfold readTerm
  rcases quotes with rfl | rfl <;> simp [read]

/-- A scalar of a kind that settings are made of. -/
inductive Plain : Datum → Prop
  | flag (b : Bool) : Plain (.flag b)
  | natural (n : Nat) : Plain (.whole n)
  | text (s : String) : Plain (.text s)

/-- A plain scalar is written, and read back; no blank stands in front of it. -/
theorem Plain.readTerm {d : Datum} (plain : Plain d) (depth : Nat) :
    ∃ value first more, writeScalar d = some value ∧ value = first :: more ∧
      first ≠ ' ' ∧ first ≠ '\t' ∧ ∀ rest, readTerm depth (value ++ '\n' :: rest) =
        some (.scalar d, '\n' :: rest) := by
  have headed {word : List Char} (bare : Bare word) : ∃ first more, word = first :: more ∧
      first ≠ ' ' ∧ first ≠ '\t' := by
    cases word with
    | nil => exact absurd rfl bare.some
    | cons first more =>
      have whole := bare.whole first List.mem_cons_self
      refine ⟨first, more, rfl, ?_, ?_⟩ <;> rintro rfl <;> exact absurd whole (by decide)
  cases plain with
  | flag b =>
    obtain ⟨word, writes, bare, means⟩ := bare_flag b
    obtain ⟨first, more, whole, apart⟩ := headed bare
    exact ⟨word, first, more, writes, whole, apart.1, apart.2, fun rest =>
      readTerm_bare bare means depth⟩
  | natural n =>
    obtain ⟨first, more, whole, apart⟩ := headed (bare_digits n)
    exact ⟨digits n, first, more, by simp [writeScalar, intText, natText], whole, apart.1, apart.2,
      fun rest => readTerm_bare (bare_digits n) (scalar?_digits n) depth⟩
  | text s =>
    obtain ⟨first, more, whole, quotes⟩ := writeText_head s.toList
    refine ⟨_, first, more, rfl, whole, ?_, ?_, fun rest => ?_⟩
    · rcases quotes with rfl | rfl <;> decide
    · rcases quotes with rfl | rfl <;> decide
    · rw [readTerm_text, String.ofList_toList]

end Words

end RequestBus.Toml
