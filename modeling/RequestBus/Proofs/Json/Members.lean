import RequestBus.Proofs.Json.Number
import RequestBus.Proofs.Json.Text

namespace RequestBus.Json

open Utf8

theorem skipBlanks_cons {b : UInt8} (h : isBlank b = false) (s : Bytes) :
    skipBlanks (b :: s) = b :: s := by
  simp [skipBlanks, h]

abbrev Written := String × List Char

def Written.bytes (m : Written) : Bytes := encodeChars (writeMember m.1 m.2)

def laterMembers (members : List Written) : Bytes :=
  members.flatMap fun m => commaByte :: m.bytes

theorem bytes_written (name : String) (value : List Char) : Written.bytes (name, value) =
    quoteByte :: (encodeChars (name.toList.flatMap writeChar) ++
      quoteByte :: colonByte :: encodeChars value) := by
  rw [Written.bytes, writeMember, encodeChars_append, encode_writeText, encodeChars_cons]
  have colon : encodeChar ':' = [colonByte] := rfl
  simp [colon]

theorem encode_joined (m : Written) (members : List Written) :
    encodeChars (joined ((m :: members).map fun m => writeMember m.1 m.2)) =
      m.bytes ++ laterMembers members := by
  induction members generalizing m with
  | nil => simp [joined, Written.bytes, laterMembers]
  | cons n members ih =>
    have comma : encodeChar ',' = [commaByte] := rfl
    have step := ih n
    simp only [List.map_cons, joined] at step ⊢
    rw [encodeChars_append, encodeChars_cons, step, comma, laterMembers, laterMembers]
    simp [Written.bytes]

theorem length_le_laterMembers (members : List Written) :
    members.length ≤ (laterMembers members).length := by
  induction members with
  | nil => exact Nat.zero_le _
  | cons m members ih =>
    simp only [laterMembers, List.flatMap_cons, List.length_append, List.length_cons] at ih ⊢
    omega

theorem nextName_first (name : String) (value : List Char) (rest : Bytes) :
    nextName true (Written.bytes (name, value) ++ rest) =
      .ok (some name, colonByte :: (encodeChars value ++ rest)) := by
  have read := readText_written name (colonByte :: (encodeChars value ++ rest))
  rw [bytes_written]
  simp only [nextName, List.cons_append, List.append_assoc,
    skipBlanks_cons (show isBlank quoteByte = false by decide), read]
  rfl

theorem nextName_later (name : String) (value : List Char) (rest : Bytes) :
    nextName false (commaByte :: Written.bytes (name, value) ++ rest) =
      .ok (some name, colonByte :: (encodeChars value ++ rest)) := by
  have read := readText_written name (colonByte :: (encodeChars value ++ rest))
  rw [bytes_written]
  simp only [nextName, List.cons_append, List.append_assoc,
    skipBlanks_cons (show isBlank quoteByte = false by decide),
    skipBlanks_cons (show isBlank commaByte = false by decide), read]
  rfl

theorem nextName_end (first : Bool) (rest : Bytes) :
    nextName first (Frame.close .object :: rest) = .ok (none, rest) := by
  cases first <;> rfl

/-- Each of some members, read in turn, takes the state on. -/
inductive MembersRead (onMember : σ → String → Bytes → Except Fault (Front σ)) :
    σ → List Written → σ → Prop
  | nil (state : σ) : MembersRead onMember state [] state
  | cons {state next last : σ} {name : String} {value : List Char} {members : List Written}
      (read : ∀ rest, EndsNumber rest →
        onMember state name (colonByte :: (encodeChars value ++ rest)) = .ok (next, rest))
      (more : MembersRead onMember next members last) :
      MembersRead onMember state ((name, value) :: members) last

section Members
variable {onMember : σ → String → Bytes → Except Fault (Front σ)} {state last : σ}
  {members : List Written}

theorem endsNumber_later (members : List Written) (rest : Bytes) :
    EndsNumber (laterMembers members ++ Frame.close .object :: rest) := by
  cases members with
  | nil => exact ⟨by decide, by decide, by decide, by decide⟩
  | cons m members => exact ⟨by decide, by decide, by decide, by decide⟩

theorem foldMembers_later (h : MembersRead onMember state members last) {fuel : Nat}
    (enough : members.length < fuel) (rest : Bytes) :
    foldMembers onMember fuel false state
      (laterMembers members ++ Frame.close .object :: rest) = .ok (last, rest) := by
  induction h generalizing fuel with
  | nil =>
    cases fuel with
    | zero => contradiction
    | succ fuel =>
      simp only [foldMembers, laterMembers, List.flatMap_nil, List.nil_append, nextName_end, bind,
        Except.bind]
      rfl
  | @cons state next last name value members read more ih =>
    cases fuel with
    | zero => contradiction
    | succ fuel =>
      have split : laterMembers ((name, value) :: members) ++ Frame.close .object :: rest =
          commaByte :: Written.bytes (name, value) ++
            (laterMembers members ++ Frame.close .object :: rest) := by
        simp [laterMembers]
      have member := read _ (endsNumber_later members rest)
      rw [split]
      simp only [foldMembers, nextName_later, bind, Except.bind, member]
      exact ih (by simpa using enough)

theorem foldMembers_first (h : MembersRead onMember state members last) {fuel : Nat}
    (enough : members.length < fuel) (rest : Bytes) :
    foldMembers onMember fuel true state
      (encodeChars (joined (members.map fun m => writeMember m.1 m.2)) ++
        Frame.close .object :: rest) = .ok (last, rest) := by
  cases fuel with
  | zero => contradiction
  | succ fuel =>
    cases h with
    | nil =>
      simp only [foldMembers, List.map_nil, joined, encodeChars_nil, List.nil_append,
        nextName_end, bind, Except.bind]
      rfl
    | @cons _ next _ name value members read more =>
      have member := read _ (endsNumber_later members rest)
      rw [encode_joined, List.append_assoc]
      simp only [foldMembers, nextName_first, bind, Except.bind, member]
      exact foldMembers_later more (by simpa using enough) rest

theorem length_le_joined (members : List Written) : members.length ≤
    (encodeChars (joined (members.map fun m => writeMember m.1 m.2))).length := by
  cases members with
  | nil => exact Nat.zero_le _
  | cons m members =>
    have later := length_le_laterMembers members
    rw [encode_joined, bytes_written]
    simp only [List.length_append, List.length_cons]
    omega

theorem foldMembers_written (h : MembersRead onMember state members last) (rest : Bytes) :
    foldMembers onMember ((encodeChars (joined (members.map fun m => writeMember m.1 m.2)) ++
      Frame.close .object :: rest).length + 1) true state
      (encodeChars (joined (members.map fun m => writeMember m.1 m.2)) ++
        Frame.close .object :: rest) = .ok (last, rest) := by
  have length := length_le_joined members
  refine foldMembers_first h ?_ rest
  rw [List.length_append]
  omega

end Members

end RequestBus.Json
