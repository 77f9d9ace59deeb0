import RequestBus.Message.Request
import RequestBus.Proofs.Dictionary
import RequestBus.Proofs.Text.Order

namespace RequestBus

namespace Headers

/-- What headers hold under a name in whatever case: of several values the one whose key is the
least in bytes. -/
inductive Holds (headers : Headers) (name : String) : Option String → Prop
  | named {key value : String} (member : (key, value) ∈ headers.entries)
      (names : Text.sameIgnoringCase key name = true)
      (least : ∀ e ∈ headers.entries, Text.sameIgnoringCase e.1 name = true →
        Utf8.encode key ≤ Utf8.encode e.1) : headers.Holds name (some value)
  | unnamed (absent : ∀ e ∈ headers.entries, Text.sameIgnoringCase e.1 name = false) :
      headers.Holds name none

theorem holds_lookup (headers : Headers) (name : String) :
    headers.Holds name (headers.lookup name) := by
  cases found : headers.lookup name with
  | none => exact .unnamed (Dictionary.find?_eq_none found)
  | some value =>
    obtain ⟨key, member, names, least⟩ := Dictionary.find?_eq_some found
    exact .named member names fun e he same => Utf8.encode_le (least e he same)

theorem Holds.unique {headers : Headers} {name : String} {one two : Option String}
    (first : headers.Holds name one) (second : headers.Holds name two) : one = two := by
  cases first with
  | named member names least =>
    cases second with
    | named member' names' least' =>
      have keys := List.le_antisymm (least _ member' names') (least' _ member names)
      cases Utf8.encode_injective keys
      exact congrArg some (headers.ascending.value_unique member member')
    | unnamed absent => exact absurd (absent _ member) (by simp [names])
  | unnamed absent =>
    cases second with
    | named member names least => exact absurd (absent _ member) (by simp [names])
    | unnamed _ => rfl

def AsksVersion (headers : Headers) (version : Option String) : Prop :=
  ∃ accept, headers.Holds "Accept" accept ∧ version = accept.bind Version.ofAccept?

theorem asksVersion_iff {headers : Headers} {version : Option String} :
    headers.AsksVersion version ↔ version = Request.versionOf headers := by
  have held := holds_lookup headers "Accept"
  constructor
  · rintro ⟨accept, holds, rfl⟩
    rw [holds.unique held, Request.versionOf]
  · rintro rfl
    exact ⟨_, held, rfl⟩

end Headers

end RequestBus
