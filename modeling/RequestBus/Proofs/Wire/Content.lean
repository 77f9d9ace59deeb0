import Mathlib.Data.List.TakeWhile
import RequestBus.Proofs.Json.Compact
import RequestBus.Proofs.Json.Magnitude
import RequestBus.Proofs.Wire.Parts
import RequestBus.Proofs.Wire.Request

/-! Requests are read by content. Whether a flat object is a request, and which one, follows from
what its members stand for, whatever their order, layout and spelling, and whatever else is in the
object. -/
namespace RequestBus.Json

inductive Tree.Representable : Tree → Prop
  | null : Representable .null
  | flag (b : Bool) : Representable (.flag b)
  | number {l : Literal} (finite : l.value?.isSome) : Representable (.number l)
  | text {pieces : List Piece} (unicode : (Json.text? pieces).isSome) : Representable (.text pieces)
  | list {inner : Blanks} {items : List (Padding × Tree)}
      (each : ∀ i ∈ items, Representable i.2) : Representable (.list inner items)
  | object {inner : Blanks} {entries : List (Label × Tree)}
      (names : ∀ e ∈ entries, (Json.text? e.1.name).isSome)
      (each : ∀ e ∈ entries, Representable e.2) : Representable (.object inner entries)

namespace Tree

theorem member?_isSome {e : Label × Tree} :
    (member? e).isSome ↔ (Json.text? e.1.name).isSome ∧ e.2.value?.isSome := by
  rw [member?]
  cases Json.text? e.1.name <;> cases e.2.value? <;> simp

theorem value?_isSome (t : Tree) : t.value?.isSome ↔ t.Representable := by
  induction t using Tree.induction with
  | null => exact ⟨fun _ => .null, fun _ => rfl⟩
  | flag b => exact ⟨fun _ => .flag b, fun _ => rfl⟩
  | number l =>
    rw [value?, Option.isSome_map]
    refine ⟨.number, fun h => ?_⟩
    cases h with
    | number finite => exact finite
  | text pieces =>
    rw [value?, Option.isSome_map]
    refine ⟨.text, fun h => ?_⟩
    cases h with
    | text unicode => exact unicode
  | list inner items ih =>
    rw [value?, Option.isSome_map, itemValues_eq, mapM_isSome]
    refine ⟨fun each => .list fun i member => (ih i member).mp (each i member), fun h => ?_⟩
    cases h with
    | list each => exact fun i member => (ih i member).mpr (each i member)
  | object inner entries ih =>
    rw [value?, Option.isSome_map, entryValues_eq, mapM_isSome]
    constructor
    · intro all
      exact .object (fun e member => (member?_isSome.mp (all e member)).1)
        fun e member => (ih e member).mp (member?_isSome.mp (all e member)).2
    · intro h e member
      cases h with
      | object names each =>
        exact member?_isSome.mpr ⟨names e member, (ih e member).mpr (each e member)⟩

end Tree

end RequestBus.Json

namespace RequestBus.Wire

open Json Decimal

/-! ## Headers -/

/-- The text that a header has on account of its value: a text stands as it is, a null for no
header at all, and anything else in compact form. -/
inductive HeaderText : Tree → String → Prop
  | verbatim {pieces : List Piece} {s : String} (stands : text? pieces = some s) :
      HeaderText (.text pieces) s
  | compact {t : Tree} {s : String} (notNull : t ≠ .null) (notText : ∀ pieces, t ≠ .text pieces)
      (written : t.compact? = some (Utf8.encode s)) : HeaderText t s

def LastHas (entries : List (Label × Tree)) (name : String) (t : Tree) : Prop :=
  ∃ before label after, entries = before ++ (label, t) :: after ∧ text? label.name = some name ∧
    ∀ e ∈ after, text? e.1.name ≠ some name

theorem headerText_iff {t : Tree} {v : Value} (value : t.value? = some v) (s : String) :
    headerText v = some s ↔ HeaderText t s := by
  have compact : v.compact = s ↔ t.compact? = some (Utf8.encode s) := by
    have bytes : v.bytes = Utf8.encode v.compact := by
      rw [Value.bytes, Value.compact, Utf8.encode, String.toList_ofList]
    rw [t.compact?_eq, value, Option.map_some, Option.some_inj, bytes]
    exact ⟨congrArg Utf8.encode, Utf8.encode_injective⟩
  have other (notNull : t ≠ .null) (notText : ∀ pieces, t ≠ .text pieces)
      (shown : headerText v = some v.compact) : headerText v = some s ↔ HeaderText t s := by
    rw [shown, Option.some_inj, compact]
    refine ⟨.compact notNull notText, fun h => ?_⟩
    cases h with
    | verbatim => exact absurd rfl (notText _)
    | compact _ _ written => exact written
  cases t with
  | null =>
    cases value
    refine ⟨(by intro none; cases none), fun h => ?_⟩
    cases h with
    | compact notNull => exact absurd rfl notNull
  | text pieces =>
    obtain ⟨u, stands, rfl⟩ := Option.map_eq_some_iff.mp value
    constructor
    · intro shown
      cases shown
      exact .verbatim stands
    · intro h
      cases h with
      | verbatim stands' => rw [Option.some.inj (stands.symm.trans stands')]; rfl
      | compact _ notText => exact absurd rfl (notText _)
  | flag b =>
    cases value
    exact other (by simp) (by simp) rfl
  | number l =>
    obtain ⟨n, _, rfl⟩ := Option.map_eq_some_iff.mp value
    exact other (by simp) (by simp) rfl
  | list inner items =>
    obtain ⟨vs, _, rfl⟩ := Option.map_eq_some_iff.mp value
    exact other (by simp) (by simp) rfl
  | object inner entries =>
    obtain ⟨ms, _, rfl⟩ := Option.map_eq_some_iff.mp value
    exact other (by simp) (by simp) rfl

theorem mem_dictionary {entries : List (Label × Tree)} {members : List (String × Value)}
    (read : entries.mapM Tree.member? = some members) (name : String) (v : Value) :
    (name, v) ∈ (Dictionary.ofList members).entries ↔
      ∃ t, LastHas entries name t ∧ t.value? = some v := by
  have same := mapM_eq_some.mp read
  have named : ∀ (e : Label × Tree) (m : String × Value), Tree.member? e = some m ↔
      text? e.1.name = some m.1 ∧ e.2.value? = some m.2 := by
    rintro e ⟨n, w⟩
    rw [Tree.member?]
    cases text? e.1.name <;> cases e.2.value? <;> simp
  rw [Dictionary.mem_ofList]
  constructor
  · rintro ⟨before, after, rfl, others⟩
    rw [List.map_append, List.map_cons] at same
    obtain ⟨before', rest, rfl, _, same⟩ := List.map_eq_append_iff.mp same
    obtain ⟨e, after', rfl, this, later⟩ := List.map_eq_cons_iff.mp same
    obtain ⟨here, value⟩ := (named e _).mp this
    refine ⟨e.2, ⟨before', e.1, after', rfl, here, fun f member again => ?_⟩, value⟩
    have inside : Tree.member? f ∈ after.map some := later ▸ List.mem_map_of_mem member
    obtain ⟨m, hm, entry⟩ := List.mem_map.mp inside
    have its := ((named f m).mp entry.symm).1
    exact others m hm (Option.some.inj (its.symm.trans again))
  · rintro ⟨t, ⟨before, label, after, rfl, here, others⟩, value⟩
    rw [List.map_append, List.map_cons] at same
    obtain ⟨before', rest, rfl, _, same⟩ := List.map_eq_append_iff.mp same.symm
    obtain ⟨m, after', rfl, this, later⟩ := List.map_eq_cons_iff.mp same
    obtain ⟨its, stands⟩ := (named (label, t) m).mp this.symm
    obtain rfl : m = (name, v) := Prod.ext (Option.some.inj (its.symm.trans here))
      (Option.some.inj (stands.symm.trans value))
    refine ⟨before', after', rfl, fun f member again => ?_⟩
    have inside : some f ∈ after.map Tree.member? := later ▸ List.mem_map_of_mem member
    obtain ⟨e, he, entry⟩ := List.mem_map.mp inside
    exact others e he (again ▸ ((named e f).mp entry).1)

theorem mem_readHeaders {entries : List (Label × Tree)} {members : List (String × Value)}
    (read : entries.mapM Tree.member? = some members) (name s : String) :
    (name, s) ∈ (readHeaders (Dictionary.ofList members)).entries ↔
      ∃ t, LastHas entries name t ∧ HeaderText t s := by
  rw [readHeaders, Dictionary.mem_filterMap]
  simp only [mem_dictionary read]
  constructor
  · rintro ⟨v, ⟨t, last, value⟩, shown⟩
    exact ⟨t, last, (headerText_iff value s).mp shown⟩
  · rintro ⟨t, last, shown⟩
    have inside : ∃ e ∈ entries, e.2 = t := by
      obtain ⟨before, label, after, rfl, _⟩ := last
      exact ⟨(label, t), by simp, rfl⟩
    obtain ⟨e, member, rfl⟩ := inside
    have all := mapM_isSome.mp (Option.isSome_iff_exists.mpr ⟨members, read⟩) e member
    obtain ⟨v, value⟩ := Option.isSome_iff_exists.mp (Tree.member?_isSome.mp all).2
    exact ⟨v, ⟨e.2, last, value⟩, (headerText_iff value s).mpr shown⟩

/-! ## Fields -/

theorem require_eq_ok {field s : String} {value : Option String} :
    require field value = .ok s ↔ value = some s ∧ Text.allBlank s = false := by
  cases value with
  | none => exact ⟨nofun, nofun⟩
  | some text =>
    rw [require_eq]
    cases blank : Text.allBlank text with
    | true =>
      refine ⟨nofun, ?_⟩
      rintro ⟨same, solid⟩
      cases same
      exact nomatch blank.symm.trans solid
    | false =>
      constructor
      · intro same
        cases same
        exact ⟨rfl, blank⟩
      · rintro ⟨same, _⟩
        cases same
        rfl

theorem trim_of_allBlank {s : String} (blank : Text.allBlank s = true) : Text.trim s = "" := by
  have dropped : s.toList.dropWhile Text.isBlank = [] :=
    List.dropWhile_eq_nil_iff.mpr (List.all_eq_true.mp blank)
  rw [Text.trim, Text.stripChars, dropped]
  rfl

theorem readBody_eq_ok {field s : String} {body : Bytes} :
    readBody field (some s) = .ok body ↔ Text.trim s = Base64.encode body := by
  have decoded : readBase64 field s = .ok body ↔ Text.trim s = Base64.encode body := by
    rw [← Base64.decode_eq_ok, readBase64]
    exact ⟨ok_of_mapError, fun h => by rw [h]; rfl⟩
  rw [readBody]
  split
  · rename_i blank
    rw [trim_of_allBlank blank]
    constructor
    · intro same
      cases same
      rfl
    · intro same
      have empty := Base64.decode_eq_ok.mpr same
      cases empty
      rfl
  · exact decoded

theorem toRequest_eq_ok {parts : Parts} {scope id : String} {q : Request} :
    parts.toRequest scope id = .ok q ↔ ∃ method path body,
      require (scope ++ "method") parts.method.join = .ok method ∧
      require (scope ++ "path") parts.path.join = .ok path ∧
      readBody (scope ++ "body") parts.body.join = .ok body ∧
      q =
        { id, method := Text.upper (Text.trim method), path := Text.trim path
          headers := (parts.headers.join.map readHeaders).getD Dictionary.empty, body
          version := Request.versionOf
            ((parts.headers.join.map readHeaders).getD Dictionary.empty) } := by
  constructor
  · intro made
    obtain ⟨method, named, made⟩ := ok_of_bind made
    obtain ⟨path, placed, made⟩ := ok_of_bind made
    obtain ⟨body, filled, made⟩ := ok_of_bind made
    cases made
    exact ⟨method, path, body, named, placed, filled, rfl⟩
  · rintro ⟨method, path, body, named, placed, filled, rfl⟩
    simp only [Parts.toRequest, named, placed, filled, bind, Except.bind]
    rfl

theorem join_of_tells {field? : String → Option String} {entries : List (String × Tree)}
    {field : String} {what? : Tree → Option τ} (null : what? .null = none)
    {told : Option (Option τ)} (tells : Tells field? entries field (Tree.orNull what?) told) :
    told.join = (entryFor? field? entries field).bind what? := by
  rw [Tells] at tells
  cases entry : entryFor? field? entries field with
  | none =>
    rw [entry] at tells
    rw [Option.map_eq_none_iff.mp tells.symm]
    rfl
  | some t =>
    rw [entry] at tells
    obtain ⟨v, rfl, value⟩ := Option.map_eq_some_iff.mp tells.symm
    cases t with
    | null =>
      cases value
      exact null.symm
    | _ =>
      obtain ⟨w, stands, rfl⟩ := Option.map_eq_some_iff.mp value.symm
      exact stands.symm

namespace Flat

/-! ## Requests -/

def Has (entries : List (String × Tree)) (field s : String) : Prop :=
  ∃ t, entryFor? field? entries field = some t ∧ t.text? = some s

/-- What makes an object a request. No payload is the payload of the empty text. -/
structure Acceptable (entries : List (String × Tree)) : Prop where
  id : ∃ s, Has entries "id" s ∧ Text.allBlank s = false
  method : ∃ s, Has entries "method" s ∧ Text.allBlank s = false
  path : ∃ s, Has entries "path" s ∧ Text.allBlank s = false
  headers : ∀ t, entryFor? field? entries "headers" = some t →
    t = .null ∨ (∃ inner es, t = .object inner es) ∧ t.Representable
  body : ∀ t, entryFor? field? entries "body" = some t →
    t = .null ∨ ∃ s payload, t.text? = some s ∧ Text.trim s = Base64.encode payload

/-- The request that an object stands for. -/
structure Describes (entries : List (String × Tree)) (q : Request) : Prop where
  id : Has entries "id" q.id
  method : ∃ s, Has entries "method" s ∧ q.method = Text.upper (Text.trim s)
  path : ∃ s, Has entries "path" s ∧ q.path = Text.trim s
  headers : ∀ name s, (name, s) ∈ q.headers.entries ↔
    ∃ inner es t, entryFor? field? entries "headers" = some (.object inner es) ∧
      LastHas es name t ∧ HeaderText t s
  body : (∃ s, Has entries "body" s ∧ Text.trim s = Base64.encode q.body) ∨
    (∀ s, ¬ Has entries "body" s) ∧ q.body = []
  version : q.headers.AsksVersion q.version

theorem Has.unique {entries : List (String × Tree)} {field s s' : String}
    (first : Has entries field s) (second : Has entries field s') : s = s' := by
  obtain ⟨t, entry, text⟩ := first
  obtain ⟨t', entry', text'⟩ := second
  obtain rfl := Option.some.inj (entry.symm.trans entry')
  exact Option.some.inj (text.symm.trans text')

theorem Describes.unique {entries : List (String × Tree)} {one two : Request}
    (first : Describes entries one) (second : Describes entries two) : one = two := by
  have id := first.id.unique second.id
  obtain ⟨method, hasMethod, oneMethod⟩ := first.method
  obtain ⟨method', hasMethod', twoMethod⟩ := second.method
  obtain rfl := hasMethod.unique hasMethod'
  obtain ⟨path, hasPath, onePath⟩ := first.path
  obtain ⟨path', hasPath', twoPath⟩ := second.path
  obtain rfl := hasPath.unique hasPath'
  have headers : one.headers = two.headers :=
    Dictionary.ext (one.headers.ascending.eq_of_mem two.headers.ascending fun e =>
      (first.headers e.1 e.2).trans (second.headers e.1 e.2).symm)
  have body : one.body = two.body := by
    rcases first.body with ⟨s, has, encoded⟩ | ⟨none, empty⟩ <;>
      rcases second.body with ⟨s', has', encoded'⟩ | ⟨none', empty'⟩
    · obtain rfl := has.unique has'
      exact Except.ok.inj ((Base64.decode_eq_ok.mpr encoded).symm.trans
        (Base64.decode_eq_ok.mpr encoded'))
    · exact absurd has (none' s)
    · exact absurd has' (none s')
    · exact empty.trans empty'.symm
  have version : one.version = two.version :=
    (Headers.asksVersion_iff.mp first.version).trans
      (headers ▸ (Headers.asksVersion_iff.mp second.version).symm)
  cases one
  cases two
  simp_all

/-- An object whose members are for each field at most once, with headers that are not nested too
deep. -/
structure Regular (t : ObjectText) : Prop where
  once : ∀ es, named? t.entries = some es → Once field? es
  shallow : ShallowHeaders t.entries

theorem has_iff {entries : List (String × Tree)} {field s : String} :
    Has entries field s ↔ (entryFor? field? entries field).bind Tree.text? = some s :=
  Option.bind_eq_some_iff.symm

section Told
variable {entries : List (String × Tree)} {draft : Draft}

theorem text_of_told {field : String} {told : Option (Option String)}
    (tells : Tells field? entries field nullableText told) (s : String) :
    told.join = some s ↔ Has entries field s := by
  rw [join_of_tells rfl tells, has_iff]

theorem headers_of_told (told : draft.ToldBy field? entries) (name s : String) :
    (name, s) ∈ ((draft.parts.headers.join.map readHeaders).getD Dictionary.empty).entries ↔
      ∃ inner es t, entryFor? field? entries "headers" = some (.object inner es) ∧
        LastHas es name t ∧ HeaderText t s := by
  have join := join_of_tells rfl told.parts.headers
  rw [join]
  cases entry : entryFor? field? entries "headers" with
  | none => exact ⟨nofun, fun ⟨_, _, _, same, _⟩ => nomatch same⟩
  | some t =>
    have known := told.parts.headers.isSome entry
    cases t with
    | null => exact ⟨nofun, fun ⟨_, _, _, same, _⟩ => nomatch same⟩
    | object inner es =>
      obtain ⟨members, read, same⟩ := Option.map_eq_some_iff.mp
        (Option.isSome_iff_exists.mp (Option.isSome_map.symm.trans known)).choose_spec
      rw [Tree.entryValues_eq] at read
      have dictionary : (Tree.object inner es).dictionary? = some (Dictionary.ofList members) := by
        rw [Tree.dictionary?, Tree.entryValues_eq, read]
        rfl
      rw [Option.bind_some, dictionary, Option.map_some, Option.getD_some, mem_readHeaders read]
      constructor
      · rintro ⟨t, last, shown⟩
        exact ⟨inner, es, t, rfl, last, shown⟩
      · rintro ⟨_, _, t, same, last, shown⟩
        cases same
        exact ⟨t, last, shown⟩
    | _ => contradiction

theorem describes_of_ok (told : draft.ToldBy field? entries) {id : String} {q : Request}
    (given : require "id" draft.id.join = .ok id) (made : draft.parts.toRequest "" id = .ok q) :
    Describes entries q := by
  obtain ⟨method, path, body, named, placed, filled, rfl⟩ := toRequest_eq_ok.mp made
  refine ⟨(text_of_told told.id _).mp (require_eq_ok.mp given).1,
    ⟨method, (text_of_told told.parts.method _).mp (require_eq_ok.mp named).1, rfl⟩,
    ⟨path, (text_of_told told.parts.path _).mp (require_eq_ok.mp placed).1, rfl⟩,
    headers_of_told told, ?_, Headers.asksVersion_iff.mpr rfl⟩
  cases text : draft.parts.body.join with
  | none =>
    rw [text] at filled
    cases filled
    refine .inr ⟨fun s has => ?_, rfl⟩
    exact nomatch text.symm.trans ((text_of_told told.parts.body s).mpr has)
  | some s =>
    rw [text] at filled
    exact .inl ⟨s, (text_of_told told.parts.body s).mp text, readBody_eq_ok.mp filled⟩

theorem nullable_isSome {what? : Tree → Option τ} {t : Tree} :
    (t.orNull what?).isSome ↔ t = .null ∨ t ≠ .null ∧ (what? t).isSome := by
  cases t with
  | null => simp [Tree.orNull]
  | _ => simp [Tree.orNull]

theorem nullableText_isSome {t : Tree} :
    (nullableText t).isSome ↔ t = .null ∨ ∃ s, t.text? = some s := by
  rw [nullable_isSome, Option.isSome_iff_exists]
  refine or_congr_right ⟨And.right, fun ⟨s, text⟩ => ⟨?_, s, text⟩⟩
  rintro rfl
  exact nomatch text

theorem nullableObject_isSome {t : Tree} : (nullableObject t).isSome ↔
    t = .null ∨ (∃ inner es, t = .object inner es) ∧ t.Representable := by
  rw [nullable_isSome, ← t.value?_isSome]
  refine or_congr_right ?_
  cases t with
  | object inner es => simp [Tree.dictionary?, Tree.value?]
  | _ => simp [Tree.dictionary?]

theorem acceptable_of_ok (told : draft.ToldBy field? entries) {id : String} {q : Request}
    (given : require "id" draft.id.join = .ok id) (made : draft.parts.toRequest "" id = .ok q) :
    Acceptable entries := by
  obtain ⟨method, path, body, named, placed, filled, _⟩ := toRequest_eq_ok.mp made
  obtain ⟨hasId, idSolid⟩ := require_eq_ok.mp given
  obtain ⟨hasMethod, methodSolid⟩ := require_eq_ok.mp named
  obtain ⟨hasPath, pathSolid⟩ := require_eq_ok.mp placed
  refine ⟨⟨_, (text_of_told told.id _).mp hasId, idSolid⟩,
    ⟨_, (text_of_told told.parts.method _).mp hasMethod, methodSolid⟩,
    ⟨_, (text_of_told told.parts.path _).mp hasPath, pathSolid⟩,
    fun t entry => nullableObject_isSome.mp (told.parts.headers.isSome entry), fun t entry => ?_⟩
  refine (nullableText_isSome.mp (told.parts.body.isSome entry)).imp_right ?_
  rintro ⟨s, text⟩
  rw [(text_of_told told.parts.body s).mpr ⟨t, entry, text⟩] at filled
  exact ⟨s, body, text, readBody_eq_ok.mp filled⟩

theorem tells_of_isSome {field : String} {what? : Tree → Option τ}
    (known : ∀ t, entryFor? field? entries field = some t → (what? t).isSome) :
    Tells field? entries field what? ((entryFor? field? entries field).bind what?) := by
  rw [Tells]
  cases entry : entryFor? field? entries field with
  | none => rfl
  | some t =>
    obtain ⟨v, value⟩ := Option.isSome_iff_exists.mp (known t entry)
    simp [value]

theorem nullableText_of_has {field s : String} (has : Has entries field s) :
    ∀ t, entryFor? field? entries field = some t → (nullableText t).isSome := by
  obtain ⟨t, entry, text⟩ := has
  intro t' entry'
  obtain rfl := Option.some.inj (entry.symm.trans entry')
  exact nullableText_isSome.mpr (.inr ⟨s, text⟩)

theorem ok_of_acceptable (acceptable : Acceptable entries) :
    ∃ draft id q, Draft.ToldBy draft field? entries ∧ require "id" draft.id.join = .ok id ∧
      draft.parts.toRequest "" id = .ok q := by
  obtain ⟨⟨id, hasId, idSolid⟩, ⟨method, hasMethod, methodSolid⟩, ⟨path, hasPath, pathSolid⟩,
    headers, body⟩ := acceptable
  have tellsId := tells_of_isSome (nullableText_of_has hasId)
  have tellsMethod := tells_of_isSome (nullableText_of_has hasMethod)
  have tellsPath := tells_of_isSome (nullableText_of_has hasPath)
  have tellsHeaders := tells_of_isSome fun t entry => nullableObject_isSome.mpr (headers t entry)
  have tellsBody := tells_of_isSome fun t entry => nullableText_isSome.mpr
    ((body t entry).imp_right fun ⟨s, _, text, _⟩ => ⟨s, text⟩)
  have filled : ∃ payload, readBody "body"
      ((entryFor? field? entries "body").bind nullableText).join = .ok payload := by
    cases text : ((entryFor? field? entries "body").bind nullableText).join with
    | none => exact ⟨[], rfl⟩
    | some s =>
      obtain ⟨t, entry, its⟩ := (text_of_told tellsBody s).mp text
      rcases body t entry with rfl | ⟨s', payload, its', encoded⟩
      · exact nomatch its
      · obtain rfl := Option.some.inj (its.symm.trans its')
        exact ⟨payload, readBody_eq_ok.mpr encoded⟩
  obtain ⟨payload, filled⟩ := filled
  refine ⟨⟨_, _, _, _, _⟩, id, _, ⟨tellsId, tellsMethod, tellsPath, tellsHeaders, tellsBody⟩,
    require_eq_ok.mpr ⟨(text_of_told tellsId id).mpr hasId, idSolid⟩,
    toRequest_eq_ok.mpr ⟨method, path, payload,
      require_eq_ok.mpr ⟨(text_of_told tellsMethod _).mpr hasMethod, methodSolid⟩,
      require_eq_ok.mpr ⟨(text_of_told tellsPath _).mpr hasPath, pathSolid⟩, filled, rfl⟩⟩

end Told

theorem readRequest_eq_ok {raw : Bytes} {q : Request} : readRequest raw = .ok q ↔
    ∃ draft id, readWhole (requestRecord.read {} nesting) raw = .ok draft ∧
      require "id" draft.id.join = .ok id ∧ draft.parts.toRequest "" id = .ok q := by
  constructor
  · intro read
    obtain ⟨draft, whole, read⟩ := ok_of_bind read
    obtain ⟨id, given, made⟩ := ok_of_bind read
    exact ⟨draft, id, ok_of_mapError whole, given, made⟩
  · rintro ⟨draft, id, whole, given, made⟩
    simp only [readRequest, whole, mapError_ok, bind, Except.bind, given, made]

/-- An object is read as a request just if it is acceptable, and then as the one request that it
describes: order, layout, spelling and unknown members do not matter. Of the numbers in its headers
those well inside the range of floating-point numbers are acceptable, and those well outside are
not. -/
theorem request_read_by_content {t : ObjectText} (regular : Regular t) :
    ((∃ q, readRequest t.bytes = .ok q) ↔ ∃ es, named? t.entries = some es ∧ Acceptable es) ∧
    (∀ q, readRequest t.bytes = .ok q ↔
      ∃ es, named? t.entries = some es ∧ Acceptable es ∧ Describes es q) ∧
    ∀ l : Literal, l.bytes.length < Literal.longest →
      (l.magnitude ≤ Binary64.wellInside → (Tree.number l).Representable) ∧
      (Binary64.wellOutside ≤ l.magnitude → ¬ (Tree.number l).Representable) := by
  have sound : ∀ q, readRequest t.bytes = .ok q →
      ∃ es, named? t.entries = some es ∧ Acceptable es ∧ Describes es q := by
    intro q read
    obtain ⟨draft, id, whole, given, made⟩ := readRequest_eq_ok.mp read
    obtain ⟨es, names, told⟩ := (draft_iff regular.once regular.shallow).mp whole
    exact ⟨es, names, acceptable_of_ok told given made, describes_of_ok told given made⟩
  have complete : ∀ es, named? t.entries = some es → Acceptable es →
      ∃ q, readRequest t.bytes = .ok q := by
    intro es names acceptable
    obtain ⟨draft, id, q, told, given, made⟩ := ok_of_acceptable acceptable
    have whole := (draft_iff regular.once regular.shallow).mpr ⟨es, names, told⟩
    exact ⟨q, readRequest_eq_ok.mpr ⟨draft, id, whole, given, made⟩⟩
  refine ⟨⟨?_, ?_⟩, fun q => ⟨sound q, ?_⟩, fun l short => ⟨fun inside => ?_, fun outside => ?_⟩⟩
  · rintro ⟨q, read⟩
    obtain ⟨es, names, acceptable, _⟩ := sound q read
    exact ⟨es, names, acceptable⟩
  · rintro ⟨es, names, acceptable⟩
    exact complete es names acceptable
  · rintro ⟨es, names, acceptable, describes⟩
    obtain ⟨q', read⟩ := complete es names acceptable
    obtain ⟨es', names', _, describes'⟩ := sound q' read
    obtain rfl := Option.some.inj (names.symm.trans names')
    rw [read, describes'.unique describes]
  · exact .number (Literal.isSome_of_inside short inside)
  · rintro (_ | _ | finite)
    rw [Literal.eq_none_of_outside short outside] at finite
    contradiction

/-- An object with much in it that does not count: blanks, a member that is not known and stands for
nothing, an escaped letter, the other name of the path, and names given twice in the headers.
```
 { "u":["\ud800",-1e+999 ],"requestUri"	: "/a ","id":"\u0041",
   "headers":{"N":true,"N":[ -12],"Z":"x","Z":null},"method":"get"}
``` -/
def crowded : ObjectText where
  before := [.newline]
  inner := [.space]
  entries :=
    [ (.tight (plainly (Utf8.encode "u")),
        .list []
          [ (⟨[], []⟩, .text [.hex ⟨0x64, 13, rfl⟩ ⟨0x38, 8, rfl⟩ ⟨0x30, 0, rfl⟩ ⟨0x30, 0, rfl⟩]),
            (⟨[], [.space]⟩, .number
              { negative := true, whole := ⟨0x31, [], rfl, nofun⟩, leading := nofun
                fraction := none
                exponent := some ⟨false, .plus, ⟨0x39, [0x39, 0x39], rfl, by decide +kernel⟩⟩ }) ]),
      (⟨[], plainly (Utf8.encode "requestUri"), [.tab], [.space], []⟩,
        .text (plainly (Utf8.encode "/a "))),
      (.tight (plainly (Utf8.encode "id")),
        .text [.hex ⟨0x30, 0, rfl⟩ ⟨0x30, 0, rfl⟩ ⟨0x34, 4, rfl⟩ ⟨0x31, 1, rfl⟩]),
      (.tight (plainly (Utf8.encode "headers")),
        .object []
          [ (.tight (plainly (Utf8.encode "N")), .flag true),
            (.tight (plainly (Utf8.encode "N")), .list []
              [(⟨[.space], []⟩, .number
                { negative := true, whole := ⟨0x31, [0x32], rfl, by decide +kernel⟩
                  leading := nofun, fraction := none, exponent := none })]),
            (.tight (plainly (Utf8.encode "Z")), .text (plainly (Utf8.encode "x"))),
            (.tight (plainly (Utf8.encode "Z")), .null) ]),
      (.tight (plainly (Utf8.encode "method")), .text (plainly (Utf8.encode "get"))) ]
  after := [.carriageReturn]

theorem regular_crowded : Regular crowded where
  once es names := by
    obtain rfl := Option.some.inj (names.symm.trans (rfl : named? crowded.entries = some _))
    unfold Once
    decide
  shallow e member named _ inner es same h inside := by
    simp only [crowded, List.mem_cons, List.not_mem_nil, or_false] at member
    rcases member with rfl | rfl | rfl | rfl | rfl <;> cases same
    simp only [List.mem_cons, List.not_mem_nil, or_false] at inside
    rcases inside with rfl | rfl | rfl | rfl <;> decide

theorem crowded_read : Regular crowded ∧ ∃ es, named? crowded.entries = some es ∧ Acceptable es ∧
    Describes es
      { id := "A", method := "GET", path := "/a", headers := Dictionary.empty.insert "N" "[-12]"
        body := [], version := none } :=
  ⟨regular_crowded,
    ((request_read_by_content regular_crowded).2.1 _).mp (ok_of_toOption (by decide +kernel))⟩

def withNumber (l : Literal) : ObjectText where
  before := []
  inner := []
  entries :=
    [ (.tight (plainly (Utf8.encode "id")), .text (plainly (Utf8.encode "r"))),
      (.tight (plainly (Utf8.encode "method")), .text (plainly (Utf8.encode "GET"))),
      (.tight (plainly (Utf8.encode "path")), .text (plainly (Utf8.encode "/"))),
      (.tight (plainly (Utf8.encode "headers")),
        .object [] [(.tight (plainly (Utf8.encode "X")), .number l)]) ]
  after := []

def scaledUp (head : UInt8) (fraction : Digits) (digit : isDigit head = true) : Literal where
  negative := false
  whole := ⟨head, [], digit, nofun⟩
  leading _ := rfl
  fraction := some fraction
  exponent := some ⟨false, .none, ⟨0x33, [0x30, 0x38], rfl, by decide +kernel⟩⟩

/-- A number at the upper end of the range, in as many digits as it has. -/
def brief : Literal :=
  scaledUp 0x31 ⟨0x37, Utf8.encode "976931348623157", rfl, by decide +kernel⟩ rfl

def lengthy : Literal :=
  scaledUp 0x31 ⟨0x37, Utf8.encode "97693134862315700", rfl, by decide +kernel⟩ rfl

theorem magnitude_brief : brief.magnitude = 17976931348623157 * 10 ^ (292 : ℤ) := by
  have number : digitsNumber 0 (brief.whole.bytes ++ brief.fractionDigits) = 17976931348623157 := by
    decide
  have power : brief.power - brief.fractionDigits.length = 292 := by decide
  rw [Literal.magnitude, number, power]
  norm_num

theorem magnitude_lengthy : lengthy.magnitude = brief.magnitude := by
  have number : digitsNumber 0 (lengthy.whole.bytes ++ lengthy.fractionDigits) =
      1797693134862315700 := by decide
  have power : lengthy.power - lengthy.fractionDigits.length = 290 := by decide
  rw [magnitude_brief, Literal.magnitude, number, power,
    show (292 : ℤ) = 290 + 2 by norm_num, zpow_add₀ (by norm_num : (10 : ℚ) ≠ 0)]
  generalize (10 : ℚ) ^ (290 : ℤ) = scale
  norm_num
  ring

theorem magnitude_brief_le : brief.magnitude ≤ Binary64.greatest := by
  have limit : 17976931348623157 * 10 ^ 292 ≤ Binary64.greatest := by decide +kernel
  rw [magnitude_brief, show (292 : ℤ) = (292 : ℕ) from rfl, zpow_natCast]
  generalize 292 = places at limit ⊢
  generalize Binary64.greatest = bound at limit ⊢
  exact_mod_cast limit

/-- Whether a number near the end of the range is read does not depend on how large it is but on how
it is spelled; and the name of a member is read as text even if the member is not known. -/
theorem spelling_decides :
    (withNumber lengthy).bytes = Utf8.encode
      ("\x7b\"id\":\"r\",\"method\":\"GET\",\"path\":\"/\"," ++
        "\"headers\":\x7b\"X\":1.797693134862315700e308\x7d\x7d") ∧
    lengthy.magnitude = brief.magnitude ∧ brief.magnitude ≤ Binary64.greatest ∧
    (readRequest (withNumber brief).bytes).toOption.isSome ∧
    (readRequest (withNumber lengthy).bytes).toOption = none ∧
    (readRequest (Utf8.encode
      ("\x7b\"id\":\"r\",\"method\":\"GET\",\"path\":\"/\",\"\\ud800\":0\x7d"))).toOption = none :=
  ⟨by decide +kernel, magnitude_lengthy, magnitude_brief_le, by decide +kernel, by decide +kernel,
    by decide +kernel⟩

end Flat

end RequestBus.Wire
