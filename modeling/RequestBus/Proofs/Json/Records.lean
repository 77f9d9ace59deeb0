import RequestBus.Json.Record
import RequestBus.Proofs.Json.Values

namespace RequestBus.Json

open Utf8

theorem readMember_back {r : Record σ} {m : Member σ} {name : String} {draft next : σ}
    {depth : Nat} {value : List Char}
    (member : r.members.find? (·.answersTo name) = some m) (absent : m.filled draft = false)
    (back : ReadsBack (m.read depth draft) value next) : ∀ rest, EndsNumber rest →
      r.readMember depth draft name (colonByte :: (encodeChars value ++ rest)) =
        .ok (next, rest) := by
  intro rest ends
  have item := back rest ends
  simp only [Record.readMember, member, absent, Bool.false_eq_true, if_false, readColon_colon,
    bind, Except.bind, item]

theorem readMember_unknown {r : Record σ} {name : String} {draft : σ} {depth : Nat}
    {value : List Char} (unknown : r.members.find? (·.answersTo name) = none)
    (skipped : ∀ rest, EndsNumber rest → skipValue (encodeChars value ++ rest) = .ok rest) :
    ∀ rest, EndsNumber rest →
      r.readMember depth draft name (colonByte :: (encodeChars value ++ rest)) =
        .ok (draft, rest) := by
  intro rest ends
  simp only [Record.readMember, unknown, readColon_colon, bind, Except.bind, skipped rest ends]
  rfl

theorem readMember_field {r : Record σ} {m : Member σ} {name : String}
    {read : Nat → Bytes → Except Fault (Front τ)} {draft : σ} {depth : Nat} {value : List Char}
    {v : τ} (set : σ → τ → σ) (member : r.members.find? (·.answersTo name) = some m)
    (stores : m.read = (Member.ofField name (fun _ => none) set read).read)
    (absent : m.filled draft = false) (back : ReadsBack (read depth) value v) :
    ∀ rest, EndsNumber rest →
      r.readMember depth draft name (colonByte :: (encodeChars value ++ rest)) =
        .ok (set draft v, rest) := by
  refine readMember_back member absent fun rest ends => ?_
  simp only [stores, Member.ofField, back rest ends, bind, Except.bind]
  rfl

theorem readMember_written {r : Record σ} {name : String} {get : σ → Option τ} {set : σ → τ → σ}
    {read : Nat → Bytes → Except Fault (Front τ)} {draft : σ} {value : List Char} {v : τ}
    (member : r.members.find? (·.answersTo name) = some (Member.ofField name get set read))
    (absent : get draft = none) (depth : Nat) (back : ReadsBack (read depth) value v) :
    ∀ rest, EndsNumber rest →
      r.readMember depth draft name (colonByte :: (encodeChars value ++ rest)) =
        .ok (set draft v, rest) :=
  readMember_field set member rfl (by simp [Member.ofField, absent]) back

theorem readsBack_record {r : Record σ} {blank draft : σ} {members : List Written} {depth : Nat}
    (h : MembersRead (r.readMember depth) blank members draft)
    (complete : r.missing? draft = none) :
    ReadsBack (r.read blank (depth + 1)) (writeObject members) draft := by
  intro rest _
  have opening : encodeChar '{' = [openObject] := rfl
  have closing : encodeChar '}' = [Frame.close .object] := rfl
  have bytes : encodeChars (writeObject members) ++ rest = openObject ::
      (encodeChars (joined (members.map fun m => writeMember m.1 m.2)) ++
        Frame.close .object :: rest) := by
    simp [writeObject, opening, closing]
  have object : r.readObject depth blank
      (encodeChars (joined (members.map fun m => writeMember m.1 m.2)) ++
        Frame.close .object :: rest) = .ok (draft, rest) := by
    have read := foldMembers_written h rest
    simp only [Record.readObject, read, bind, Except.bind, complete]
    rfl
  rw [bytes]
  simp only [Record.read, skipBlanks_cons (show isBlank openObject = false by decide), or_true,
    if_true, show openObject ≠ openList by decide, if_false, object]

theorem readWhole_record {r : Record σ} {blank draft : σ} {members : List Written} {depth : Nat}
    (h : MembersRead (r.readMember depth) blank members draft)
    (complete : r.missing? draft = none) :
    readWhole (r.read blank (depth + 1)) (encodeChars (writeObject members)) = .ok draft := by
  have value := readsBack_record h complete [] trivial
  rw [List.append_nil] at value
  simp only [readWhole, value]
  rfl

end RequestBus.Json
