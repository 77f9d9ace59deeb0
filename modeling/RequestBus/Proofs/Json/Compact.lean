import RequestBus.Proofs.Dictionary
import RequestBus.Proofs.Json.Reading

namespace RequestBus.Json

open Utf8

instance (l : Literal) : Decidable l.Integer :=
  decidable_of_iff (l.fraction.isNone ∧ l.exponent.isNone ∧
      digitsNumber 0 l.whole.bytes < wordLimit ∧ (l.negative = true →
        0 < digitsNumber 0 l.whole.bytes ∧ digitsNumber 0 l.whole.bytes ≤ Nat.pow 2 63))
    ⟨fun ⟨fraction, exponent, fits, negative⟩ =>
        ⟨Option.isNone_iff_eq_none.mp fraction, Option.isNone_iff_eq_none.mp exponent, fits,
          negative⟩,
      fun h => ⟨Option.isNone_iff_eq_none.mpr h.fraction, Option.isNone_iff_eq_none.mpr h.exponent,
        h.fits, h.negative⟩⟩

/-- The compact text of a number: its own digits if it is an integer, or else those of the
floating-point number that it is read as. -/
def Literal.compact? (l : Literal) : Option Bytes :=
  if l.Integer then some l.bytes else l.value?.map fun n => encode n.write

def Frame.around (frame : Frame) (texts : List Bytes) : Bytes :=
  frame.opening :: (separated true texts ++ [frame.close])

def compactMember (name : String) (value : Bytes) : Bytes :=
  encodeChars (writeText name) ++ colonByte :: value

mutual

/-- The compact text of what a tree stands for. Of members with one name the last one counts. -/
def Tree.compact? : Tree → Option Bytes
  | .null => some (Tree.bytes .null)
  | .flag b => some (Tree.bytes (.flag b))
  | .number l => l.compact?
  | .text pieces => (text? pieces).map fun s => encodeChars (writeText s)
  | .list _ items => (compactItems? items).map (Frame.around .list)
  | .object _ entries => (compactEntries? entries).map fun members =>
      Frame.around .object
        ((Dictionary.ofList members).entries.map fun m => compactMember m.1 m.2)

def compactItems? : List (Padding × Tree) → Option (List Bytes)
  | [] => some []
  | (_, t) :: more => t.compact?.bind fun one => (compactItems? more).map (one :: ·)

def compactEntries? : List (Label × Tree) → Option (List (String × Bytes))
  | [] => some []
  | (label, t) :: more => (text? label.name).bind fun name => t.compact?.bind fun one =>
    (compactEntries? more).map ((name, one) :: ·)

end

theorem Literal.compact?_eq (l : Literal) :
    l.compact? = l.value?.map fun n => encode n.write := by
  rw [compact?]
  split
  · rename_i integer
    obtain ⟨n, value, written⟩ := integer.value
    rw [value, Option.map_some, written]
  · rfl

theorem encodeChars_joined (texts : List (List Char)) :
    encodeChars (joined texts) = separated true (texts.map encodeChars) := by
  have comma : encodeChar ',' = [commaByte] := rfl
  have later : ∀ (one : List Char) (texts : List (List Char)),
      encodeChars (joined (one :: texts)) =
        encodeChars one ++ separated false (texts.map encodeChars) := by
    intro one texts
    induction texts generalizing one with
    | nil => simp [joined, separated]
    | cons two texts ih =>
      rw [joined, encodeChars_append, encodeChars_cons, comma, ih]
      · rfl
      · rintro ⟨⟩
  cases texts with
  | nil => rfl
  | cons one texts => exact later one texts

theorem writeItems_eq (items : List Value) : writeItems items = items.map Value.write := by
  induction items with
  | nil => rfl
  | cons v items ih => rw [writeItems, ih, List.map_cons]

theorem bytes_list (items : List Value) :
    (Value.list items).bytes = Frame.around .list (items.map Value.bytes) := by
  have opening : encodeChar '[' = [openList] := rfl
  have closing : encodeChar ']' = [Frame.close .list] := rfl
  rw [Value.bytes, Value.write, writeItems_eq]
  simp only [List.cons_append, encodeChars_cons, encodeChars_append, encodeChars_joined,
    List.map_map, opening, closing, encodeChars_nil]
  rfl

theorem encode_writeMember (name : String) (value : List Char) :
    encodeChars (writeMember name value) = compactMember name (encodeChars value) := by
  have colon : encodeChar ':' = [colonByte] := rfl
  rw [writeMember, encodeChars_append, encodeChars_cons, colon]
  rfl

theorem bytes_object (members : List (String × Value)) : (Value.object members).bytes =
    Frame.around .object (members.map fun m => compactMember m.1 m.2.bytes) := by
  have opening : encodeChar '{' = [openObject] := rfl
  have closing : encodeChar '}' = [Frame.close .object] := rfl
  rw [Value.bytes, write_object, writeObject, writtenMembers]
  simp only [List.cons_append, encodeChars_cons, encodeChars_append, encodeChars_joined,
    List.map_map, opening, closing, encodeChars_nil]
  simp only [Function.comp_def, encode_writeMember]
  rfl

theorem compactItems?_eq {items : List (Padding × Tree)}
    (each : ∀ i ∈ items, i.2.compact? = i.2.value?.map Value.bytes) :
    compactItems? items = (Tree.itemValues items).map (·.map Value.bytes) := by
  induction items with
  | nil => rfl
  | cons i items ih =>
    rw [compactItems?, Tree.itemValues, each i List.mem_cons_self,
      ih fun j member => each j (List.mem_cons_of_mem _ member)]
    cases i.2.value? with
    | none => rfl
    | some v => cases Tree.itemValues items <;> rfl

theorem compactEntries?_eq {entries : List (Label × Tree)}
    (each : ∀ e ∈ entries, e.2.compact? = e.2.value?.map Value.bytes) :
    compactEntries? entries =
      (Tree.entryValues entries).map (·.map fun m => (m.1, m.2.bytes)) := by
  induction entries with
  | nil => rfl
  | cons e entries ih =>
    rw [compactEntries?, Tree.entryValues, each e List.mem_cons_self,
      ih fun f member => each f (List.mem_cons_of_mem _ member)]
    cases text? e.1.name with
    | none => rfl
    | some name =>
      cases e.2.value? with
      | none => rfl
      | some v => cases Tree.entryValues entries <;> rfl

theorem Tree.compact?_eq (t : Tree) : t.compact? = t.value?.map Value.bytes := by
  induction t using Tree.induction with
  | null => rfl
  | flag b => cases b <;> rfl
  | number l =>
    rw [compact?, value?, l.compact?_eq, Option.map_map]
    rfl
  | text pieces =>
    rw [compact?, value?, Option.map_map]
    rfl
  | list inner items ih =>
    rw [compact?, value?, compactItems?_eq ih, Option.map_map, Option.map_map]
    congr 1
    funext vs
    exact (bytes_list vs).symm
  | object inner entries ih =>
    rw [compact?, value?, compactEntries?_eq ih, Option.map_map, Option.map_map]
    congr 1
    funext ms
    simp only [Function.comp_apply, Value.ofMembers, bytes_object, Dictionary.entries_ofList_map,
      List.map_map]
    rfl

end RequestBus.Json
