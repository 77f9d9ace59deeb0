import RequestBus.Proofs.Json.Members
import RequestBus.Proofs.Json.Skipping

namespace RequestBus.Json

open Decimal Utf8

/-- A reader reads a value that was written, whatever stands behind it. -/
def ReadsBack (read : Bytes → Except Fault (Front α)) (written : List Char) (value : α) : Prop :=
  ∀ rest, EndsNumber rest → read (encodeChars written ++ rest) = .ok (value, rest)

theorem append_writeText (s : String) (rest : Bytes) : encodeChars (writeText s) ++ rest =
    quoteByte :: (encodeChars (s.toList.flatMap writeChar) ++ quoteByte :: rest) := by
  simp [encode_writeText]

theorem readTextValue_written (s : String) : ReadsBack readTextValue (writeText s) s := by
  intro rest _
  rw [append_writeText]
  simp only [readTextValue, skipBlanks_cons (show isBlank quoteByte = false by decide), if_true,
    readText_written]

theorem readsBack_nullable {read : Bytes → Except Fault (Front α)} {written : List Char} {v : α}
    (opens : ∃ b tail, encodeChars written = b :: tail ∧ isBlank b = false ∧ b ≠ 0x6E)
    (back : ReadsBack read written v) : ReadsBack (readNullable read) written (some v) := by
  obtain ⟨b, tail, form, solid, notNull⟩ := opens
  intro rest ends
  have value := back rest ends
  rw [form, List.cons_append] at value ⊢
  unfold readNullable
  rw [skipBlanks_cons solid]
  split
  · exact absurd (List.cons.inj ‹_›).1 notNull
  · rw [value]
    rfl

theorem readNullable_text (s : String) :
    ReadsBack (readNullable readTextValue) (writeText s) (some s) :=
  readsBack_nullable ⟨quoteByte, _, encode_writeText s, by decide, by decide⟩
    (readTextValue_written s)

theorem readValueWith_text (inside : Except Cause (Bytes → Except Fault (Front Value)))
    (s : Bytes) : readValueWith inside (quoteByte :: s) =
      (readText s).map fun (t, s) => (.text t, s) := rfl

theorem readValue_text (depth : Nat) (s : String) :
    ReadsBack (readValue depth) (Value.text s).write (.text s) := by
  intro rest _
  rw [Value.write, append_writeText]
  cases depth <;> rw [readValue, readValueWith_text, readText_written] <;> rfl

theorem write_nat (n : Nat) : (Value.nat n).write = digits n := by
  simp [Value.nat, Value.write, Number.write, intText, natText]

theorem readValueWith_number (inside : Except Cause (Bytes → Except Fault (Front Value)))
    {b : UInt8} (opens : b = 0x2D ∨ isDigit b = true) (tail : Bytes) :
    readValueWith inside (b :: tail) =
      (readNumber (b :: tail)).map fun (n, s) => (.number n, s) := by
  obtain ⟨solid, notNull, notTrue, notFalse, notText, _⟩ := opens_number opens
  unfold readValueWith
  rw [skipBlanks_cons solid]
  split
  · contradiction
  · exact absurd (List.cons.inj ‹_›).1 notNull
  · exact absurd (List.cons.inj ‹_›).1 notTrue
  · exact absurd (List.cons.inj ‹_›).1 notFalse
  · rename_i same
    cases same
    simp only [notText, if_false, if_pos opens]

theorem readValue_nat (depth : Nat) {n : Nat} (h : n < wordLimit) :
    ReadsBack (readValue depth) (Value.nat n).write (.nat n) := by
  intro rest ends
  have read := readNumber_digits h ends
  obtain ⟨b, tail, written, digit, _⟩ := head_digits n
  rw [write_nat]
  rw [written] at read ⊢
  rw [List.cons_append] at read ⊢
  cases depth <;> rw [readValue, readValueWith_number _ (.inr digit), read] <;> rfl

theorem readUnsigned_written (word : String) {limit n : Nat} (below : n < limit)
    (h : n < wordLimit) : ReadsBack (readUnsigned word limit) (digits n) n := by
  intro rest ends
  have read := readNumber_digits h ends
  obtain ⟨b, tail, written, digit, _⟩ := head_digits n
  rw [written] at read ⊢
  rw [List.cons_append] at read ⊢
  have fits : 0 ≤ (n : Int) ∧ (n : Int) < limit := ⟨Int.natCast_nonneg n, Int.ofNat_lt.mpr below⟩
  simp only [readUnsigned, skipBlanks_cons (opens_number (.inr digit)).1, digit, or_true, if_true,
    read, bind, Except.bind, if_pos fits]
  rfl

theorem readFlag_false : ReadsBack readFlag (Value.flag false).write false := by
  intro rest _
  rfl

theorem insertEntry_last {entries : List (String × α)} {key : String} {value : α}
    (h : ∀ e ∈ entries, e.1 < key) : insertEntry key value entries = entries ++ [(key, value)] := by
  induction entries with
  | nil => rfl
  | cons head entries ih =>
    have before := h head List.mem_cons_self
    have notBelow : ¬ key < head.1 := fun below =>
      String.lt_irrefl _ (String.lt_trans before below)
    have different : key ≠ head.1 := fun same => String.lt_irrefl _ (same ▸ before)
    rw [insertEntry, if_neg notBelow, if_neg different,
      ih fun e he => h e (List.mem_cons_of_mem _ he), List.cons_append]

def writtenMembers (entries : List (String × Value)) : List Written :=
  entries.map fun e => (e.1, e.2.write)

theorem writeMembers_eq (entries : List (String × Value)) :
    writeMembers entries = (writtenMembers entries).map fun m => writeMember m.1 m.2 := by
  induction entries with
  | nil => rfl
  | cons e entries ih => simp [writeMembers, writtenMembers, ih]

theorem write_text (s : String) : (Value.text s).write = writeText s := by rw [Value.write]

theorem write_object (entries : List (String × Value)) :
    (Value.object entries).write = writeObject (writtenMembers entries) := by
  rw [Value.write, writeMembers_eq, writeObject]

theorem readColon_colon (s : Bytes) : readColon (colonByte :: s) = .ok s := rfl

theorem membersRead_entries {item : Bytes → Except Fault (Front Value)}
    (before entries : List (String × Value)) (ascending : Ascending (before ++ entries))
    (back : ∀ e ∈ entries, ReadsBack item e.2.write e.2) (d : Dictionary Value)
    (start : d.entries = before) : ∃ all : Dictionary Value, all.entries = before ++ entries ∧
      MembersRead (fun d name s => do
        let (v, s) ← item (← readColon s)
        return (d.insert name v, s)) d (writtenMembers entries) all := by
  induction entries generalizing before d with
  | nil => exact ⟨d, by rw [start, List.append_nil], .nil d⟩
  | cons e entries ih =>
    obtain ⟨name, value⟩ := e
    have below : ∀ f ∈ before, f.1 < name := fun f hf =>
      (List.pairwise_append.mp ascending).2.2 f hf (name, value) List.mem_cons_self
    have inserted : (d.insert name value).entries = before ++ [(name, value)] := by
      rw [← start] at below ⊢
      exact insertEntry_last below
    obtain ⟨all, whole, read⟩ := ih (before ++ [(name, value)]) (by simpa using ascending)
      (fun f hf => back f (List.mem_cons_of_mem _ hf)) _ inserted
    refine ⟨all, by simpa using whole, .cons (fun rest ends => ?_) read⟩
    have item := back (name, value) List.mem_cons_self rest ends
    simp only [readColon_colon, bind, Except.bind, item]
    rfl

theorem readDictionary_written {item : Bytes → Except Fault (Front Value)} (d : Dictionary Value)
    (back : ∀ e ∈ d.entries, ReadsBack item e.2.write e.2) (rest : Bytes) :
    readDictionary item (encodeChars (joined (writeMembers d.entries)) ++
      Frame.close .object :: rest) = .ok (d, rest) := by
  obtain ⟨all, whole, read⟩ := membersRead_entries [] d.entries d.ascending back .empty rfl
  have same : all = d := Dictionary.ext whole
  rw [same] at read
  rw [writeMembers_eq]
  exact foldMembers_written read rest

theorem readObjectValue_written (depth : Nat) (d : Dictionary Value)
    (back : ∀ e ∈ d.entries, ReadsBack (readValue depth) e.2.write e.2) :
    ReadsBack (readObjectValue (depth + 1)) (Value.object d.entries).write d := by
  intro rest _
  have read := readDictionary_written d back rest
  have opening : encodeChar '{' = [openObject] := rfl
  have closing : encodeChar '}' = [Frame.close .object] := rfl
  have bytes : encodeChars (Value.object d.entries).write ++ rest = openObject ::
      (encodeChars (joined (writeMembers d.entries)) ++ Frame.close .object :: rest) := by
    simp [Value.write, opening, closing]
  rw [bytes]
  simp only [readObjectValue, skipBlanks_cons (show isBlank openObject = false by decide), if_true,
    read]

theorem readNullable_object (depth : Nat) (d : Dictionary Value)
    (back : ∀ e ∈ d.entries, ReadsBack (readValue depth) e.2.write e.2) :
    ReadsBack (readNullable (readObjectValue (depth + 1))) (Value.object d.entries).write
      (some d) := by
  have opening : encodeChar '{' = [openObject] := rfl
  have form : encodeChars (Value.object d.entries).write = openObject ::
      encodeChars (joined (writeMembers d.entries) ++ ['}']) := by
    rw [Value.write, List.cons_append, encodeChars_cons, opening]
    rfl
  exact readsBack_nullable ⟨_, _, form, by decide, by decide⟩
    (readObjectValue_written depth d back)

end RequestBus.Json
