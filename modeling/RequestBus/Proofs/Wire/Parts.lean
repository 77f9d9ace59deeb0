import RequestBus.Proofs.Json.Gathering
import RequestBus.Wire.Flat

namespace RequestBus.Wire

open Json

abbrev nullableText : Tree → Option (Option String) := Tree.orNull Tree.text?

abbrev nullableObject : Tree → Option (Option (Dictionary Value)) := Tree.orNull Tree.dictionary?

theorem reads_nullableText {m : Member σ} (set : σ → Option String → σ)
    (stores : m.read = (Member.ofField "" (fun _ => none) set
      (fun _ => readNullable readTextValue)).read) (depth : Nat) (fits : Tree → Prop) :
    m.Reads depth (fun t => (nullableText t).map fun v draft => set draft v) fits :=
  Member.reads_field set nullableText stores fun t blanks rest _ _ =>
    readNullable_tree (readTextValue_tree t rest) blanks

/-- The values of headers are nested no deeper than this. -/
def deepest : Nat := 100

def Shallow (slot : String) (t : Tree) : Prop :=
  slot = "headers" → ∀ inner entries, t = .object inner entries →
    ∀ e ∈ entries, e.2.depth ≤ deepest

def ShallowHeaders (entries : List (Label × Tree)) : Prop :=
  ∀ e ∈ entries, text? e.1.name = some "headers" → Shallow "headers" e.2

theorem shallow_of_headers {field? : String → Option String} {entries : List (Label × Tree)}
    (shallow : ShallowHeaders entries)
    (own : ∀ name, field? name = some "headers" → name = "headers") :
    ∀ e ∈ entries, ∀ name slot, text? e.1.name = some name → field? name = some slot →
      Shallow slot e.2 := by
  intro e member name slot named into isHeaders
  subst isHeaders
  obtain rfl := own name into
  exact shallow e member named rfl

namespace Parts

def changes : Changes Parts
  | "method", t => (nullableText t).map fun v p => { p with method := some v }
  | "path", t => (nullableText t).map fun v p => { p with path := some v }
  | "headers", t => (nullableObject t).map fun v p => { p with headers := some v }
  | "body", t => (nullableText t).map fun v p => { p with body := some v }
  | _, _ => none

theorem reads {depth : Nat} (deep : deepest < depth) :
    ∀ m ∈ members, m.Reads depth (changes m.name) (Shallow m.name) := by
  intro m member
  simp only [members, List.mem_cons, List.not_mem_nil, or_false] at member
  rcases member with rfl | rfl | rfl | rfl
  · exact reads_nullableText (fun (p : Parts) v => { p with method := some v }) rfl depth _
  · exact reads_nullableText (fun (p : Parts) v => { p with path := some v }) rfl depth _
  · refine Member.reads_field (fun (p : Parts) v => { p with headers := some v }) nullableObject rfl
      fun t blanks rest shallow _ => ?_
    obtain ⟨depth, rfl⟩ := Nat.exists_eq_add_of_lt deep
    exact readNullable_tree (readObjectValue_tree (fun inner entries same e member =>
      Nat.le_trans (shallow rfl inner entries same e member) (Nat.le_add_right _ _)) rest) blanks
  · exact reads_nullableText (fun (p : Parts) v => { p with body := some v }) rfl depth _

theorem fills : ∀ m ∈ members, ∀ o ∈ members, ∀ t change p, changes m.name t = some change →
    o.filled (change p) = (o.filled p || m.name == o.name) := by
  intro m hm o ho t change p made
  simp only [members, List.mem_cons, List.not_mem_nil, or_false] at hm ho
  rcases hm with rfl | rfl | rfl | rfl <;>
    obtain ⟨v, _, rfl⟩ := Option.map_eq_some_iff.mp made <;>
    rcases ho with rfl | rfl | rfl | rfl <;>
    simp [Member.ofField]

theorem changes_cases {slot : String} {t : Tree} {change : Parts → Parts}
    (made : changes slot t = some change) :
    (slot = "method" ∧ ∃ v, nullableText t = some v ∧
      change = fun p => { p with method := some v }) ∨
    (slot = "path" ∧ ∃ v, nullableText t = some v ∧ change = fun p => { p with path := some v }) ∨
    (slot = "headers" ∧ ∃ v, nullableObject t = some v ∧
      change = fun p => { p with headers := some v }) ∨
    (slot = "body" ∧ ∃ v, nullableText t = some v ∧
      change = fun p => { p with body := some v }) := by
  unfold changes at made
  split at made
  case h_5 => contradiction
  all_goals
    obtain ⟨v, value, rfl⟩ := Option.map_eq_some_iff.mp made
    simp [value]

/-- The parts of a draft are what the values of their members stand for. -/
structure StoredBy (changes : Changes σ) (get : σ → Parts) : Prop where
  method : changes.Stores "method" (fun draft => (get draft).method) nullableText
  path : changes.Stores "path" (fun draft => (get draft).path) nullableText
  headers : changes.Stores "headers" (fun draft => (get draft).headers) nullableObject
  body : changes.Stores "body" (fun draft => (get draft).body) nullableText

theorem stored : StoredBy changes id := by
  constructor
  all_goals
    constructor
    · intro t change p made
      obtain ⟨v, value, rfl⟩ := Option.map_eq_some_iff.mp made
      simp [value]
    · intro o t change p different made
      rcases changes_cases made with ⟨rfl, v, _, rfl⟩ | ⟨rfl, v, _, rfl⟩ | ⟨rfl, v, _, rfl⟩ |
        ⟨rfl, v, _, rfl⟩
      all_goals first | rfl | contradiction

def field? : String → Option String
  | "method" => some "method"
  | "path" | "requestUri" => some "path"
  | "headers" => some "headers"
  | "body" => some "body"
  | _ => none

theorem eq_headers {name : String} (into : field? name = some "headers") : name = "headers" := by
  unfold field? at into
  split at into
  all_goals first | rfl | simp at into

/-- The parts of a request that entries tell. -/
structure ToldBy (parts : Parts) (field? : String → Option String)
    (entries : List (String × Tree)) : Prop where
  method : Tells field? entries "method" nullableText parts.method
  path : Tells field? entries "path" nullableText parts.path
  headers : Tells field? entries "headers" nullableObject parts.headers
  body : Tells field? entries "body" nullableText parts.body

theorem ToldBy.unique {one two : Parts} {field? : String → Option String}
    {entries : List (String × Tree)} (first : one.ToldBy field? entries)
    (second : two.ToldBy field? entries) : one = two := by
  have method := first.method.unique second.method
  have path := first.path.unique second.path
  have headers := first.headers.unique second.headers
  have body := first.body.unique second.body
  cases one
  cases two
  simp_all

theorem StoredBy.told {r : Record σ} {changes : Changes σ} {get : σ → Parts}
    (stored : StoredBy changes get) {entries : List (String × Tree)}
    (once : Once r.slot? entries) (legible : r.Legible changes entries) {blank : σ}
    (vacant : get blank = {}) : (get (r.gather changes blank entries)).ToldBy r.slot? entries where
  method := Record.tells_gather stored.method once legible (by simp [vacant])
  path := Record.tells_gather stored.path once legible (by simp [vacant])
  headers := Record.tells_gather stored.headers once legible (by simp [vacant])
  body := Record.tells_gather stored.body once legible (by simp [vacant])

theorem ToldBy.isSome {parts : Parts} {field? : String → Option String}
    {entries : List (String × Tree)} (told : parts.ToldBy field? entries) :
    ∀ m ∈ members, ∀ t, entryFor? field? entries m.name = some t → (changes m.name t).isSome := by
  intro m member t entry
  simp only [members, List.mem_cons, List.not_mem_nil, or_false] at member
  rcases member with rfl | rfl | rfl | rfl
  · exact Option.isSome_map.trans (told.method.isSome entry)
  · exact Option.isSome_map.trans (told.path.isSome entry)
  · exact Option.isSome_map.trans (told.headers.isSome entry)
  · exact Option.isSome_map.trans (told.body.isSome entry)

end Parts

namespace Flat

def changes : Changes Draft
  | "id", t => (nullableText t).map fun v d => { d with id := some v }
  | slot, t => (Parts.changes slot t).map fun change d => { d with parts := change d.parts }

theorem changes_part {slot : String} (other : slot ≠ "id") (t : Tree) : changes slot t =
    (Parts.changes slot t).map fun change d => { d with parts := change d.parts } := by
  unfold changes
  split
  · contradiction
  · rfl

theorem name_ne_id : ∀ m ∈ Parts.members, m.name ≠ "id" := by decide

theorem understands {depth : Nat} (deep : deepest < depth) :
    requestRecord.Understands depth changes Shallow where
  reads m member := by
    rcases List.mem_cons.mp member with rfl | member
    · exact reads_nullableText (fun (d : Draft) v => { d with id := some v }) rfl depth _
    · obtain ⟨part, inside, rfl⟩ := List.mem_map.mp member
      have lifted := Member.reads_inside (Parts.reads deep part inside) Draft.parts
        fun d p => { d with parts := p }
      have same : changes part.name = _ := funext (changes_part (name_ne_id part inside))
      intro draft t blanks rest fits ends
      exact (congrFun same t) ▸ lifted draft t blanks rest fits ends
  fills m hm o ho t change draft made := by
    rcases List.mem_cons.mp hm with rfl | hm
    · obtain ⟨v, _, rfl⟩ := Option.map_eq_some_iff.mp made
      rcases List.mem_cons.mp ho with rfl | ho
      · simp [Member.ofField]
      · obtain ⟨part, inside, rfl⟩ := List.mem_map.mp ho
        have other := (name_ne_id part inside).symm
        simp [Member.ofField, Member.inside, other]
    · obtain ⟨part, inside, rfl⟩ := List.mem_map.mp hm
      have notId := name_ne_id part inside
      rw [show (part.inside Draft.parts fun d p => { d with parts := p }).name = part.name from rfl,
        changes_part notId] at made
      obtain ⟨inner, madeInner, rfl⟩ := Option.map_eq_some_iff.mp made
      rcases List.mem_cons.mp ho with rfl | ho
      · simp [Member.ofField, Member.inside, notId]
      · obtain ⟨part', inside', rfl⟩ := List.mem_map.mp ho
        exact Parts.fills part inside part' inside' t inner draft.parts madeInner

theorem stores_id : changes.Stores "id" Draft.id nullableText where
  own t change d made := by
    obtain ⟨v, value, rfl⟩ := Option.map_eq_some_iff.mp made
    simp [value]
  other o t change d different made := by
    rw [changes_part different] at made
    obtain ⟨inner, _, rfl⟩ := Option.map_eq_some_iff.mp made
    rfl

theorem stores_part {slot : String} {get : Parts → Option τ} {what? : Tree → Option τ}
    (notId : slot ≠ "id") (stores : Parts.changes.Stores slot get what?) :
    changes.Stores slot (fun d => get d.parts) what? where
  own t change d made := by
    rw [changes_part notId] at made
    obtain ⟨inner, madeInner, rfl⟩ := Option.map_eq_some_iff.mp made
    exact stores.own t inner d.parts madeInner
  other o t change d different made := by
    by_cases same : o = "id"
    · subst same
      obtain ⟨v, _, rfl⟩ := Option.map_eq_some_iff.mp made
      rfl
    · rw [changes_part same] at made
      obtain ⟨inner, madeInner, rfl⟩ := Option.map_eq_some_iff.mp made
      exact stores.other o t inner d.parts different madeInner

theorem stored : Parts.StoredBy changes Draft.parts where
  method := stores_part (by decide) Parts.stored.method
  path := stores_part (by decide) Parts.stored.path
  headers := stores_part (by decide) Parts.stored.headers
  body := stores_part (by decide) Parts.stored.body

def field? : String → Option String
  | "id" => some "id"
  | name => Parts.field? name

theorem eq_headers {name : String} (into : field? name = some "headers") : name = "headers" := by
  unfold field? at into
  split at into
  · simp at into
  · exact Parts.eq_headers into

theorem slot?_requestRecord : requestRecord.slot? = field? := by
  funext name
  unfold field? Parts.field?
  split
  · rfl
  split
  all_goals try rfl
  rename_i id _ method path uri headers body
  simp [Record.slot?, requestRecord, Parts.members, Member.inside, Member.ofField, Member.answersTo,
    Ne.symm id, Ne.symm method, Ne.symm path, Ne.symm uri, Ne.symm headers, Ne.symm body]

structure Draft.ToldBy (draft : Draft) (field? : String → Option String)
    (entries : List (String × Tree)) : Prop where
  id : Tells field? entries "id" nullableText draft.id
  parts : draft.parts.ToldBy field? entries

theorem Draft.ToldBy.unique {one two : Draft} {field? : String → Option String}
    {entries : List (String × Tree)} (first : one.ToldBy field? entries)
    (second : two.ToldBy field? entries) : one = two := by
  have id := first.id.unique second.id
  have parts := first.parts.unique second.parts
  cases one
  cases two
  simp_all

theorem told_gather {entries : List (String × Tree)} (once : Once requestRecord.slot? entries)
    (legible : requestRecord.Legible changes entries) :
    (requestRecord.gather changes {} entries).ToldBy requestRecord.slot? entries :=
  ⟨Record.tells_gather stores_id once legible rfl, stored.told once legible rfl⟩

theorem Draft.ToldBy.legible {draft : Draft} {entries : List (String × Tree)}
    (told : draft.ToldBy requestRecord.slot? entries) (once : Once requestRecord.slot? entries) :
    requestRecord.Legible changes entries := by
  refine (Record.legible_iff once).mpr fun m member t entry => ?_
  rcases List.mem_cons.mp member with rfl | member
  · exact Option.isSome_map.trans (told.id.isSome entry)
  · obtain ⟨part, inside, rfl⟩ := List.mem_map.mp member
    have known := told.parts.isSome part inside t entry
    exact (congrArg Option.isSome (changes_part (name_ne_id part inside) t)).trans
      (Option.isSome_map.trans known)

theorem draft_iff {t : ObjectText} (once : ∀ es, named? t.entries = some es → Once field? es)
    (shallow : ShallowHeaders t.entries) {draft : Draft} :
    readWhole (requestRecord.read {} nesting) t.bytes = .ok draft ↔
      ∃ es, named? t.entries = some es ∧ draft.ToldBy field? es := by
  have knows := understands (show deepest < 126 by decide)
  have vacant : ∀ m ∈ requestRecord.members, m.filled {} = false := by decide
  rw [← slot?_requestRecord] at once ⊢
  refine (ObjectText.readWhole_record_iff knows once ?_ vacant).trans ?_
  · rw [slot?_requestRecord]
    exact shallow_of_headers shallow fun _ => eq_headers
  constructor
  · rintro ⟨es, names, legible, rfl, _⟩
    exact ⟨es, names, told_gather (once es names) legible⟩
  · rintro ⟨es, names, told⟩
    have legible := told.legible (once es names)
    exact ⟨es, names, legible, told.unique (told_gather (once es names) legible), rfl⟩

end Flat

end RequestBus.Wire
