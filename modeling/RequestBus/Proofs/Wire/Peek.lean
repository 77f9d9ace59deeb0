import RequestBus.Proofs.Json.Peeking
import RequestBus.Wire.Codec

namespace RequestBus.Wire

open Json

theorem skippable_text : Skippable (readNullable readTextValue) :=
  skippable_readNullable skippable_readTextValue

theorem memberSkippable_parts : ∀ m ∈ Parts.members, MemberSkippable m.read := by
  intro m member depth draft s draft' rest h
  simp only [Parts.members, List.mem_cons, List.not_mem_nil, or_false] at member
  rcases member with rfl | rfl | rfl | rfl
  all_goals
    obtain ⟨⟨v, after⟩, value, same⟩ := ok_of_bind h
    cases same
  · exact skippable_text _ _ _ value
  · exact skippable_text _ _ _ value
  · exact skippable_readNullable (skippable_readObjectValue depth) _ _ _ value
  · exact skippable_text _ _ _ value

section Reading
variable {σ τ : Type} {r : Json.Record σ} {only : Json.Record (Option τ)} {m : Member σ}
  {get : σ → Option τ} {blank : σ} {demand : Option τ → Except Malformed String}
  {rest : σ → String → Except Malformed Request} {raw : Bytes} {q : Request}

/-- Reads a request through a record: its id is demanded first, and goes into what the rest makes of
the draft. -/
def readThrough (r : Json.Record σ) (get : σ → Option τ) (blank : σ)
    (demand : Option τ → Except Malformed String)
    (rest : σ → String → Except Malformed Request) (raw : Bytes) : Except Malformed Request := do
  let draft ← (readWhole (r.read blank nesting) raw).mapError .json
  let id ← demand (get draft)
  rest draft id

def peekThrough (only : Json.Record (Option τ)) (demand : Option τ → Except Malformed String)
    (raw : Bytes) : Except Malformed String := do
  let value ← (readWhole (only.read none nesting) raw).mapError .json
  demand value

/-- The id of a request is peeked if it is written as an object, and not if it is a list. For a list
with one item holds no request. -/
theorem peekThrough_of_readThrough (peeks : r.Peeks only m get) (empty : get blank = none)
    (complete : ∀ draft id q, rest draft id = .ok q →
      q.id = id ∧ ¬ Record.Peeks.Sparse m blank draft)
    (read : readThrough r get blank demand rest raw = .ok q) :
    (Opens openObject raw ∧ peekThrough only demand raw = .ok q.id) ∨
    (Opens openList raw ∧ ∃ fault, peekThrough only demand raw = .error fault) := by
  obtain ⟨draft, whole, read⟩ := ok_of_bind read
  obtain ⟨id, required, read⟩ := ok_of_bind read
  obtain ⟨rfl, rich⟩ := complete draft id q read
  have found := peeks.readWhole (ok_of_mapError whole) rich
  rw [empty] at found
  rcases found with ⟨object, value⟩ | ⟨list, e, value⟩
  · refine .inl ⟨object, ?_⟩
    simp only [peekThrough, value, mapError_ok, bind, Except.bind, required]
  · refine .inr ⟨list, .json e, ?_⟩
    simp only [peekThrough, value]
    rfl

theorem not_sparse {ρ : Type} {name : String} {set : σ → τ → σ}
    {read : Nat → Bytes → Except Fault (Front τ)} {draft : σ} (other : σ → Option ρ)
    (empty : other blank = none) (apart : ∀ v, other (set blank v) = none)
    (present : other draft ≠ none) :
    ¬ Record.Peeks.Sparse { Member.ofField name get set read with optional := true } blank draft := by
  rintro (rfl | ⟨depth, s, rest, first⟩)
  · exact present empty
  · obtain ⟨⟨v, after⟩, _, same⟩ := ok_of_bind first
    cases same
    exact present (apart v)

end Reading

namespace Flat

theorem peeks : requestRecord.Peeks idRecord
    { Member.ofField "id" Draft.id (fun d v => { d with id := some v })
      (fun _ => readNullable readTextValue) with optional := true } Draft.id := by
  refine Record.peeks_ofField (fun _ _ => rfl) rfl rfl ?_
  intro o member
  obtain ⟨part, hp, rfl⟩ := List.mem_map.mp member
  refine ⟨memberSkippable_inside (memberSkippable_parts part hp) _ _, ?_⟩
  intro depth draft s draft' rest h
  obtain ⟨⟨v, after⟩, _, same⟩ := ok_of_bind h
  cases same
  rfl

theorem peekId_of_readRequest {raw : Bytes} {q : Request} (read : readRequest raw = .ok q) :
    (Opens openObject raw ∧ peekId raw = .ok q.id) ∨
    (Opens openList raw ∧ ∃ fault, peekId raw = .error fault) := by
  have through : readThrough requestRecord Draft.id {} (fun id => require "id" id.join)
      (fun draft id => draft.parts.toRequest "" id) raw = .ok q := read
  refine peekThrough_of_readThrough peeks rfl (fun draft id q read => ?_) through
  obtain ⟨method, named, read⟩ := ok_of_bind read
  obtain ⟨path, _, read⟩ := ok_of_bind read
  obtain ⟨body, _, read⟩ := ok_of_bind read
  cases read
  have method : draft.parts.method ≠ none := fun absent => by
    rw [absent] at named
    contradiction
  exact ⟨rfl, not_sparse (fun draft => draft.parts.method) rfl (fun _ => rfl) method⟩

end Flat

namespace Framed

theorem peeks : frameRecord.Peeks idRecord
    { Member.ofField "headers" Draft.headers (fun d v => { d with headers := some v })
      (headersRecord.read none) with optional := true } Draft.headers := by
  refine Record.peeks_ofField (fun _ _ => rfl) rfl rfl ?_
  intro o member
  rw [List.mem_singleton.mp member]
  constructor
  all_goals
    intro depth draft s draft' rest h
    obtain ⟨⟨v, after⟩, value, same⟩ := ok_of_bind h
    cases same
  · exact skippable_text _ _ _ value
  · rfl

def readContent (draft : Draft) (id : String) : Except Malformed Request := do
  let encoded ← require "httpRequest" draft.content.join
  let content ← readBase64 "httpRequest" encoded
  let parts ← (readWhole (contentRecord.read none nesting) content).mapError .json
  (parts.getD {}).toRequest "message." id

theorem peekId_of_readRequest {raw : Bytes} {q : Request} (read : readRequest raw = .ok q) :
    (Opens openObject raw ∧ peekId raw = .ok q.id) ∨
    (Opens openList raw ∧ ∃ fault, peekId raw = .error fault) := by
  have through : readThrough frameRecord Draft.headers {} requireId readContent raw = .ok q := read
  refine peekThrough_of_readThrough peeks rfl (fun draft id q read => ?_) through
  obtain ⟨encoded, carried, read⟩ := ok_of_bind read
  obtain ⟨content, _, read⟩ := ok_of_bind read
  obtain ⟨parts, _, read⟩ := ok_of_bind read
  obtain ⟨method, _, read⟩ := ok_of_bind read
  obtain ⟨path, _, read⟩ := ok_of_bind read
  obtain ⟨body, _, read⟩ := ok_of_bind read
  cases read
  have content : draft.content ≠ none := fun absent => by
    rw [absent] at carried
    contradiction
  exact ⟨rfl, not_sparse Draft.content rfl (fun _ => rfl) content⟩

end Framed

end RequestBus.Wire

namespace RequestBus.Protocol

open Json Wire

variable {p : Protocol} {raw : Bytes} {q : Request}

theorem peekId_of_readRequest (read : p.readRequest raw = .ok q) :
    (Opens openObject raw ∧ p.peekId raw = .ok q.id) ∨
    (Opens openList raw ∧ ∃ fault, p.peekId raw = .error fault) := by
  cases p with
  | amqp => exact Flat.peekId_of_readRequest read
  | mqtt => exact Framed.peekId_of_readRequest read

theorem id_of_readRequest {id : String} (peeked : p.peekId raw = .ok id)
    (read : p.readRequest raw = .ok q) : q.id = id := by
  rcases peekId_of_readRequest read with ⟨_, same⟩ | ⟨_, fault, refused⟩
  · exact Except.ok.inj (same.symm.trans peeked)
  · exact nomatch refused.symm.trans peeked

end RequestBus.Protocol
