import RequestBus.Json.Record
import RequestBus.Proofs.Json.Skipping

/-! Records of which only the first member matters. A record with that member alone finds in an
object what the whole record finds there; of a list it takes one item and no more. -/
namespace RequestBus.Json

theorem foldMembers_related {one : σ → String → Bytes → Except Fault (Front σ)}
    {two : τ → String → Bytes → Except Fault (Front τ)} (related : σ → τ → Prop)
    (together : ∀ a b name s a' rest, related a b → one a name s = .ok (a', rest) →
      ∃ b', two b name s = .ok (b', rest) ∧ related a' b')
    {fuel : Nat} {first : Bool} {a a' : σ} {b : τ} {s rest : Bytes} (start : related a b)
    (h : foldMembers one fuel first a s = .ok (a', rest)) :
    ∃ b', foldMembers two fuel first b s = .ok (b', rest) ∧ related a' b' := by
  -- both readers find the same names, so one round of the one is one round of the other
  induction fuel generalizing first a b s with
  | zero => contradiction
  | succ fuel ih =>
    obtain ⟨⟨name?, after⟩, named, h⟩ := ok_of_bind h
    cases name? with
    | none =>
      cases h
      refine ⟨b, ?_, start⟩
      simp only [foldMembers, named, bind, Except.bind]
      rfl
    | some name =>
      obtain ⟨⟨a'', behind⟩, member, h⟩ := ok_of_bind h
      obtain ⟨b'', same, still⟩ := together _ _ _ _ _ _ start member
      obtain ⟨b', last, related⟩ := ih still h
      refine ⟨b', ?_, related⟩
      simp only [foldMembers, named, bind, Except.bind, same]
      exact last

def MemberSkippable (read : Nat → σ → Bytes → Except Fault (Front σ)) : Prop :=
  ∀ depth draft, Skippable (read depth draft)

theorem memberSkippable_inside {m : Member τ} (skips : MemberSkippable m.read) (get : σ → τ)
    (set : σ → τ → σ) : MemberSkippable (m.inside get set).read := by
  intro depth draft s draft' rest h
  obtain ⟨⟨v, after⟩, value, same⟩ := ok_of_bind h
  cases same
  exact skips depth _ _ _ _ value

theorem read_of_readWhole {read : Bytes → Except Fault (Front α)} {raw : Bytes} {a : α}
    (h : readWhole read raw = .ok a) : ∃ rest, read raw = .ok (a, rest) := by
  unfold readWhole at h
  split at h
  · contradiction
  · rename_i b rest value
    split at h
    · cases h
      exact ⟨rest, value⟩
    · contradiction

def Opens (b : UInt8) (text : Bytes) : Prop := ∃ rest, skipBlanks text = b :: rest

theorem Record.opens_of_read {r : Record σ} {blank draft : σ} {depth : Nat} {s rest : Bytes}
    (h : r.read blank depth s = .ok (draft, rest)) : Opens openList s ∨ Opens openObject s := by
  unfold Record.read at h
  split at h
  · contradiction
  · rename_i b tail front
    split at h
    · rename_i opens
      rcases opens with rfl | rfl
      · exact .inl ⟨tail, front⟩
      · exact .inr ⟨tail, front⟩
    · contradiction

/-- The record `q` has but one member, which does for it what the member `m`, the first one, does
for the record `r`. `view` is what `q` makes of a draft of `r`; the other members of `r` leave it
alone. -/
structure Record.Peeks (r : Record σ) (q : Record τ) (m : Member σ) (view : σ → τ) : Prop where
  members : ∃ others, r.members = m :: others ∧ ∀ o ∈ others, MemberSkippable o.read ∧
    ∀ depth draft s draft' rest, o.read depth draft s = .ok (draft', rest) →
      view draft' = view draft
  only : ∃ first, q.members = [first] ∧ first.optional = true ∧
    (∀ name, first.answersTo name = m.answersTo name) ∧
    (∀ draft, first.filled (view draft) = m.filled draft) ∧
    ∀ depth draft s draft' rest, m.read depth draft s = .ok (draft', rest) →
      first.read depth (view draft) s = .ok (view draft', rest)

theorem Record.peeks_ofField {r : Record σ} {q : Record (Option τ)} {name : String}
    {get : σ → Option τ} {set : σ → τ → σ} {read : Nat → Bytes → Except Fault (Front τ)}
    {others : List (Member σ)} (stores : ∀ draft v, get (set draft v) = some v)
    (members : r.members = { Member.ofField name get set read with optional := true } :: others)
    (single : q.members =
      [{ Member.ofField name id (fun _ v => some v) read with optional := true }])
    (keep : ∀ o ∈ others, MemberSkippable o.read ∧
      ∀ depth draft s draft' rest, o.read depth draft s = .ok (draft', rest) →
        get draft' = get draft) :
    r.Peeks q { Member.ofField name get set read with optional := true } get where
  members := ⟨others, members, keep⟩
  only := by
    refine ⟨_, single, rfl, fun _ => rfl, fun _ => rfl, ?_⟩
    intro depth draft s draft' rest h
    obtain ⟨⟨v, after⟩, value, same⟩ := ok_of_bind h
    cases same
    simp only [Member.ofField, bind, Except.bind, value, stores]
    rfl

namespace Record.Peeks

variable {r : Record σ} {q : Record τ} {m : Member σ} {view : σ → τ} {depth : Nat}
  {draft draft' blank : σ} {s rest : Bytes}

theorem readMember (h : r.Peeks q m view) {name : String}
    (read : r.readMember depth draft name s = .ok (draft', rest)) :
    q.readMember depth (view draft) name s = .ok (view draft', rest) := by
  obtain ⟨others, members, others_keep⟩ := h.members
  obtain ⟨first, single, _, names, filled, same⟩ := h.only
  unfold Record.readMember at read ⊢
  rw [members, List.find?_cons] at read
  rw [single, List.find?_cons, names]
  cases answers : m.answersTo name with
  | true =>
    simp only [answers] at read
    split at read
    · contradiction
    · rename_i absent
      obtain ⟨value, colon, read⟩ := ok_of_bind read
      rw [← filled] at absent
      simp only [if_neg absent, colon, bind, Except.bind]
      exact same _ _ _ _ _ read
  | false =>
    simp only [answers, List.find?_nil] at read ⊢
    split at read
    · rename_i o found
      split at read
      · contradiction
      · obtain ⟨value, colon, read⟩ := ok_of_bind read
        obtain ⟨skips, keeps⟩ := others_keep o (List.mem_of_find?_eq_some found)
        have skipped := skipValue_of_passes (skips depth draft _ _ _ read)
        simp only [colon, bind, Except.bind, skipped, keeps _ _ _ _ _ read]
        rfl
    · obtain ⟨value, colon, read⟩ := ok_of_bind read
      obtain ⟨after, skipped, read⟩ := ok_of_bind read
      cases read
      simp only [colon, bind, Except.bind, skipped]
      rfl

theorem readObject (h : r.Peeks q m view)
    (read : r.readObject depth blank s = .ok (draft, rest)) :
    q.readObject depth (view blank) s = .ok (view draft, rest) := by
  obtain ⟨⟨last, after⟩, fold, read⟩ := ok_of_bind read
  have ends : last = draft ∧ after = rest := by
    dsimp only at read
    split at read
    · contradiction
    · cases read
      exact ⟨rfl, rfl⟩
  obtain ⟨rfl, rfl⟩ := ends
  obtain ⟨state, folded, rfl⟩ := foldMembers_related (fun draft t => view draft = t)
    (fun a b name s a' rest same read => ⟨view a', same ▸ h.readMember read, rfl⟩) rfl fold
  obtain ⟨first, single, optional, _⟩ := h.only
  have complete : q.missing? (view last) = none := by
    simp [Record.missing?, single, optional]
  simp only [Record.readObject, folded, bind, Except.bind, complete]
  rfl

end Record.Peeks

theorem nextItem_comma {s rest : Bytes} (h : nextItem false s = .ok (true, rest)) :
    ∃ fault, readListEnd s = .error fault := by
  unfold nextItem at h
  split at h
  · contradiction
  · rename_i b tail front
    split at h
    · cases h
    · rename_i notClosing
      rw [if_neg Bool.false_ne_true] at h
      split at h
      · rename_i comma
        split at h
        · contradiction
        · rename_i c behind next
          simp only [readListEnd, front, if_neg notClosing, if_pos comma, next]
          exact ⟨_, rfl⟩
      · contradiction

namespace Record.Peeks

variable {r : Record σ} {q : Record τ} {m : Member σ} {view : σ → τ} {depth : Nat}
  {draft blank : σ} {s rest rest' : Bytes} {t : τ}

def Sparse (m : Member σ) (blank draft : σ) : Prop :=
  draft = blank ∨ ∃ depth s rest, m.read depth blank s = .ok (draft, rest)

theorem readItems (h : r.Peeks q m view)
    (read : r.readItems depth r.members 0 blank s = .ok (draft, rest))
    (peeked : q.readItems depth q.members 0 (view blank) s = .ok (t, rest')) :
    Sparse m blank draft := by
  obtain ⟨others, members, _⟩ := h.members
  obtain ⟨first, single, _, _, _, same⟩ := h.only
  rw [members] at read
  rw [single] at peeked
  obtain ⟨⟨more, after⟩, item, read⟩ := ok_of_bind read
  cases more with
  | false =>
    dsimp only at read
    split at read
    · cases read
      exact .inl rfl
    · contradiction
  | true =>
    obtain ⟨⟨draft', behind⟩, value, read⟩ := ok_of_bind read
    cases others with
    | nil =>
      obtain ⟨_, _, read⟩ := ok_of_bind read
      cases read
      exact .inr ⟨depth, after, behind, value⟩
    | cons o others =>
      obtain ⟨⟨more, beyond⟩, next, read⟩ := ok_of_bind read
      cases more with
      | false =>
        dsimp only at read
        split at read
        · cases read
          exact .inr ⟨depth, after, behind, value⟩
        · contradiction
      | true =>
        obtain ⟨fault, ends⟩ := nextItem_comma next
        simp only [Record.readItems, item, bind, Except.bind, same _ _ _ _ _ value, ends] at peeked
        contradiction

theorem read_object (h : r.Peeks q m view) (opens : Opens openObject s)
    (read : r.read blank depth s = .ok (draft, rest)) :
    q.read (view blank) depth s = .ok (view draft, rest) := by
  obtain ⟨tail, front⟩ := opens
  unfold Record.read at read ⊢
  simp only [front, or_true, if_true, show openObject ≠ openList by decide, if_false] at read ⊢
  cases depth with
  | zero => contradiction
  | succ depth => exact h.readObject read

theorem sparse_of_list (h : r.Peeks q m view) (opens : Opens openList s)
    (read : r.read blank depth s = .ok (draft, rest))
    (peeked : q.read (view blank) depth s = .ok (t, rest')) : Sparse m blank draft := by
  obtain ⟨tail, front⟩ := opens
  unfold Record.read at read peeked
  simp only [front, true_or, if_true] at read peeked
  cases depth with
  | zero => contradiction
  | succ depth => exact h.readItems read peeked

/-- Of an object the peeking record reads its part; a list it refuses, if the other record has found
more than one item in it. -/
theorem readWhole (h : r.Peeks q m view) (read : readWhole (r.read blank depth) s = .ok draft)
    (rich : ¬ Sparse m blank draft) :
    (Opens openObject s ∧ Json.readWhole (q.read (view blank) depth) s = .ok (view draft)) ∨
    (Opens openList s ∧ ∃ e, Json.readWhole (q.read (view blank) depth) s = .error e) := by
  obtain ⟨rest, value⟩ := read_of_readWhole read
  rcases Record.opens_of_read value with list | object
  · refine .inr ⟨list, ?_⟩
    cases peeked : Json.readWhole (q.read (view blank) depth) s with
    | error e => exact ⟨e, rfl⟩
    | ok t =>
      obtain ⟨rest', only⟩ := read_of_readWhole peeked
      exact absurd (h.sparse_of_list list value only) rich
  · refine .inl ⟨object, ?_⟩
    unfold Json.readWhole at read ⊢
    rw [value] at read
    rw [h.read_object object value]
    dsimp only at read ⊢
    split at read
    · rfl
    · contradiction

end Record.Peeks

end RequestBus.Json
