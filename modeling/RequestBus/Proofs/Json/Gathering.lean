import RequestBus.Json.Record
import RequestBus.Proofs.Json.Reading

namespace RequestBus.Json

def named? (entries : List (Label × Tree)) : Option (List (String × Tree)) :=
  entries.mapM fun e => (text? e.1.name).map (·, e.2)

theorem mem_of_named? {entries : List (Label × Tree)} {es : List (String × Tree)}
    (names : named? entries = some es) {e : Label × Tree} (member : e ∈ entries) {name : String}
    (named : text? e.1.name = some name) : (name, e.2) ∈ es := by
  have inside := @List.mem_map_of_mem _ _ _ _ (fun e => (text? e.1.name).map (·, e.2)) member
  rw [mapM_eq_some.mp names, named] at inside
  obtain ⟨_, here, same⟩ := List.mem_map.mp inside
  obtain rfl := Option.some.inj same
  exact here

section Fields
variable {field? : String → Option String} {entries : List (String × Tree)} {field : String}

def Once (field? : String → Option String) (entries : List (String × Tree)) : Prop :=
  entries.Pairwise fun a b => field? a.1 = none ∨ field? a.1 ≠ field? b.1

def entryFor? (field? : String → Option String) (entries : List (String × Tree)) (field : String) :
    Option Tree :=
  (entries.find? fun e => field? e.1 == some field).map (·.2)

theorem entryFor?_cons (e : String × Tree) : entryFor? field? (e :: entries) field =
    if field? e.1 = some field then some e.2 else entryFor? field? entries field := by
  rw [entryFor?, List.find?_cons]
  by_cases into : field? e.1 = some field
  · simp [into]
  · rw [beq_eq_false_iff_ne.mpr into, if_neg into]
    rfl

theorem mem_of_entryFor? {t : Tree} (h : entryFor? field? entries field = some t) :
    ∃ name, (name, t) ∈ entries ∧ field? name = some field := by
  obtain ⟨e, found, rfl⟩ := Option.map_eq_some_iff.mp h
  have into := List.find?_some found
  exact ⟨e.1, List.mem_of_find?_eq_some found, beq_iff_eq.mp into⟩

theorem entryFor?_of_mem (once : Once field? entries) {e : String × Tree} (member : e ∈ entries)
    (into : field? e.1 = some field) : entryFor? field? entries field = some e.2 := by
  induction entries with
  | nil => contradiction
  | cons f entries ih =>
    obtain ⟨apart, once⟩ := List.pairwise_cons.mp once
    rw [entryFor?_cons]
    rcases List.mem_cons.mp member with rfl | member
    · rw [if_pos into]
    · have other : field? f.1 ≠ some field := by
        rcases apart e member with none | different
        · rw [none]
          exact nofun
        · rwa [into] at different
      rw [if_neg other]
      exact ih once member

/-- What entries say of a field: nothing if none of them is for it, or else what the value of the
first one stands for. -/
def Tells (field? : String → Option String) (entries : List (String × Tree)) (field : String)
    (what? : Tree → Option τ) (said : Option τ) : Prop :=
  (entryFor? field? entries field).map what? = said.map some

theorem Tells.unique {what? : Tree → Option τ} {one two : Option τ}
    (first : Tells field? entries field what? one) (second : Tells field? entries field what? two) :
    one = two :=
  Option.map_injective (fun _ _ => Option.some.inj) (first.symm.trans second)

theorem Tells.isSome {what? : Tree → Option τ} {said : Option τ} {t : Tree}
    (tells : Tells field? entries field what? said)
    (entry : entryFor? field? entries field = some t) : (what? t).isSome := by
  rw [Tells, entry, Option.map_some] at tells
  obtain ⟨v, _, same⟩ := Option.map_eq_some_iff.mp tells.symm
  rw [← same]
  rfl

end Fields

abbrev Changes (σ : Type) := String → Tree → Option (σ → σ)

/-- A field of the draft is what the value of its own member stands for, and no other member changes
it. -/
structure Changes.Stores (changes : Changes σ) (slot : String) (get : σ → Option τ)
    (what? : Tree → Option τ) : Prop where
  own : ∀ t change draft, changes slot t = some change →
    (what? t).isSome ∧ get (change draft) = what? t
  other : ∀ o t change draft, o ≠ slot → changes o t = some change →
    get (change draft) = get draft

def Record.slot? (r : Record σ) (name : String) : Option String :=
  (r.members.find? (·.answersTo name)).map (·.name)

def Member.Reads (m : Member σ) (depth : Nat) (change? : Tree → Option (σ → σ))
    (fits : Tree → Prop) : Prop :=
  ∀ (draft : σ) (t : Tree) (blanks : Blanks) (rest : Bytes), fits t → EndsNumber rest →
    (m.read depth draft (blanks.bytes ++ (t.bytes ++ rest))).toOption =
      (change? t).map fun change => (change draft, rest)

theorem Member.reads_field {m : Member σ} {depth : Nat} {fits : Tree → Prop}
    {read : Nat → Bytes → Except Fault (Front τ)} (set : σ → τ → σ) (what? : Tree → Option τ)
    (stores : m.read = (Member.ofField "" (fun _ => none) set read).read)
    (reads : ∀ (t : Tree) (blanks : Blanks) (rest : Bytes), fits t → EndsNumber rest →
      (read depth (blanks.bytes ++ (t.bytes ++ rest))).toOption = (what? t).map (·, rest)) :
    m.Reads depth (fun t => (what? t).map fun v draft => set draft v) fits := by
  intro draft t blanks rest suits ends
  have value := reads t blanks rest suits ends
  simp only [stores, Member.ofField, toOption_bind, value]
  cases what? t <;> rfl

theorem Member.reads_inside {m : Member τ} {depth : Nat} {change? : Tree → Option (τ → τ)}
    {fits : Tree → Prop} (reads : m.Reads depth change? fits) (get : σ → τ) (set : σ → τ → σ) :
    (m.inside get set).Reads depth
      (fun t => (change? t).map fun change draft => set draft (change (get draft))) fits := by
  intro draft t blanks rest suits ends
  have value := reads (get draft) t blanks rest suits ends
  simp only [Member.inside, toOption_bind, value]
  cases change? t <;> rfl

/-- Each member of a record reads trees as changes of the draft, and fills itself and no other by
it. -/
structure Record.Understands (r : Record σ) (depth : Nat) (changes : Changes σ)
    (fits : String → Tree → Prop) : Prop where
  reads : ∀ m ∈ r.members, m.Reads depth (changes m.name) (fits m.name)
  fills : ∀ m ∈ r.members, ∀ o ∈ r.members, ∀ t change draft, changes m.name t = some change →
    o.filled (change draft) = (o.filled draft || m.name == o.name)

namespace Record

variable {r : Record σ} {depth : Nat} {changes : Changes σ} {fits : String → Tree → Prop}

def take (r : Record σ) (changes : Changes σ) (draft : σ) (entry : String × Tree) : Option σ :=
  match r.members.find? (·.answersTo entry.1) with
  | some m => if m.filled draft then none else (changes m.name entry.2).map (· draft)
  | none => some draft

theorem readMember_tree (h : r.Understands depth changes fits) {draft : σ} {name : String}
    {label : Label} {t : Tree} (suits : ∀ slot, r.slot? name = some slot → fits slot t)
    {rest : Bytes} (ends : EndsNumber rest) :
    (r.readMember depth draft name (label.colon (t.bytes ++ rest))).toOption =
      (r.take changes draft (name, t)).map (·, rest) := by
  rw [readMember, take]
  cases found : r.members.find? (·.answersTo name) with
  | none =>
    have skipped : skipValue (label.ahead.bytes ++ (t.bytes ++ rest)) = .ok rest :=
      skipValue_of_passes (passes_of_front (t.skipBlanks_bytes label.ahead rest) (t.passes ends))
    simp only [readColon_label, bind, Except.bind, skipped]
    rfl
  | some m =>
    have read := h.reads m (List.mem_of_find?_eq_some found) draft t label.ahead rest
      (suits m.name (by rw [slot?, found]; rfl)) ends
    dsimp only
    split
    · rfl
    · simp only [readColon_label, bind, Except.bind, read]
      cases changes m.name t <;> rfl

def gather (r : Record σ) (changes : Changes σ) (draft : σ) (entries : List (String × Tree)) : σ :=
  entries.foldl (fun draft e => (((r.slot? e.1).bind (changes · e.2)).map (· draft)).getD draft)
    draft

def Legible (r : Record σ) (changes : Changes σ) (entries : List (String × Tree)) : Prop :=
  ∀ e ∈ entries, ∀ slot, r.slot? e.1 = some slot → (changes slot e.2).isSome

theorem slot?_eq_some {name slot : String} (h : r.slot? name = some slot) :
    ∃ m, r.members.find? (·.answersTo name) = some m ∧ m.name = slot :=
  Option.map_eq_some_iff.mp h

theorem take_unknown {entry : String × Tree} (h : r.slot? entry.1 = none) (draft : σ) :
    r.take changes draft entry = some draft := by
  rw [take, Option.map_eq_none_iff.mp h]

theorem foldlM_take (h : r.Understands depth changes fits) {entries : List (String × Tree)}
    (once : Once r.slot? entries) (legible : r.Legible changes entries) {draft : σ}
    (vacant : ∀ e ∈ entries, ∀ m ∈ r.members, r.slot? e.1 = some m.name → m.filled draft = false) :
    entries.foldlM (r.take changes) draft = some (r.gather changes draft entries) := by
  induction entries generalizing draft with
  | nil => rfl
  | cons e entries ih =>
    obtain ⟨apart, once⟩ := List.pairwise_cons.mp once
    have later : r.Legible changes entries := fun f hf => legible f (List.mem_cons_of_mem _ hf)
    rw [List.foldlM_cons, gather, List.foldl_cons, ← gather]
    cases known : r.slot? e.1 with
    | none =>
      rw [take_unknown known]
      exact ih once later fun f hf => vacant f (List.mem_cons_of_mem _ hf)
    | some slot =>
      obtain ⟨m, found, rfl⟩ := slot?_eq_some known
      have member := List.mem_of_find?_eq_some found
      have absent := vacant e List.mem_cons_self m member known
      obtain ⟨change, made⟩ := Option.isSome_iff_exists.mp
        (legible e List.mem_cons_self m.name known)
      have taken : r.take changes draft e = some (change draft) := by
        simp only [take, found, absent, Bool.false_eq_true, if_false, made, Option.map_some]
      rw [taken, Option.bind_some, made]
      refine ih once later fun f hf o inside into => ?_
      have different : m.name ≠ o.name := by
        rcases apart f hf with none | different
        · exact nomatch none.symm.trans known
        · intro same
          exact different (known.trans (same ▸ into.symm))
      have still := vacant f (List.mem_cons_of_mem _ hf) o inside into
      rw [h.fills m member o inside _ _ _ made, still]
      simpa using different

theorem legible_of_foldlM {entries : List (String × Tree)} {draft draft' : σ}
    (h : entries.foldlM (r.take changes) draft = some draft') : r.Legible changes entries := by
  induction entries generalizing draft with
  | nil => exact fun e member => nomatch member
  | cons e entries ih =>
    rw [List.foldlM_cons] at h
    obtain ⟨next, taken, h⟩ := Option.bind_eq_some_iff.mp h
    intro f member
    rcases List.mem_cons.mp member with rfl | member
    · intro slot known
      obtain ⟨m, found, rfl⟩ := slot?_eq_some known
      rw [take, found] at taken
      dsimp only at taken
      split at taken
      · contradiction
      · obtain ⟨change, made, _⟩ := Option.map_eq_some_iff.mp taken
        rw [made]
        rfl
    · exact ih h f member

theorem legible_iff {entries : List (String × Tree)} (once : Once r.slot? entries) :
    r.Legible changes entries ↔
      ∀ m ∈ r.members, ∀ t, entryFor? r.slot? entries m.name = some t →
        (changes m.name t).isSome := by
  constructor
  · intro legible m _ t entry
    obtain ⟨name, member, into⟩ := mem_of_entryFor? entry
    exact legible (name, t) member m.name into
  · intro legible e member slot into
    obtain ⟨m, found, rfl⟩ := slot?_eq_some into
    exact legible m (List.mem_of_find?_eq_some found) e.2 (entryFor?_of_mem once member into)

section Stored
variable {get : σ → Option τ} {slot : String} {what? : Tree → Option τ}
  {entries : List (String × Tree)}

theorem get_gather (stores : changes.Stores slot get what?) (once : Once r.slot? entries)
    (legible : r.Legible changes entries) (draft : σ) : get (r.gather changes draft entries) =
      ((entryFor? r.slot? entries slot).map what?).getD (get draft) := by
  induction entries generalizing draft with
  | nil => rfl
  | cons e entries ih =>
    obtain ⟨apart, once⟩ := List.pairwise_cons.mp once
    have later := ih once fun f hf => legible f (List.mem_cons_of_mem _ hf)
    rw [gather, List.foldl_cons, ← gather, later, entryFor?_cons]
    cases known : r.slot? e.1 with
    | none => simp
    | some o =>
      obtain ⟨change, made⟩ := Option.isSome_iff_exists.mp (legible e List.mem_cons_self o known)
      by_cases same : o = slot
      · subst same
        have alone : entryFor? r.slot? entries o = none := by
          rw [entryFor?, Option.map_eq_none_iff, List.find?_eq_none]
          intro f member
          rcases apart f member with none | different
          · exact nomatch none.symm.trans known
          · simpa [known] using Ne.symm different
        simp [alone, made, (stores.own _ _ _ made).2]
      · simp [made, same, stores.other _ _ _ _ same made]

theorem tells_gather (stores : changes.Stores slot get what?) (once : Once r.slot? entries)
    (legible : r.Legible changes entries) {blank : σ} (vacant : get blank = none) :
    Tells r.slot? entries slot what? (get (r.gather changes blank entries)) := by
  rw [Tells, get_gather stores once legible blank, vacant]
  cases entry : entryFor? r.slot? entries slot with
  | none => rfl
  | some t =>
    obtain ⟨name, member, into⟩ := mem_of_entryFor? entry
    obtain ⟨change, made⟩ := Option.isSome_iff_exists.mp (legible _ member _ into)
    obtain ⟨v, known⟩ := Option.isSome_iff_exists.mp (stores.own t change blank made).1
    simp [known]

end Stored

theorem foldlM_take_iff (h : r.Understands depth changes fits) {entries : List (String × Tree)}
    (once : Once r.slot? entries) {blank draft : σ}
    (vacant : ∀ m ∈ r.members, m.filled blank = false) :
    entries.foldlM (r.take changes) blank = some draft ↔
      r.Legible changes entries ∧ draft = r.gather changes blank entries := by
  have all : r.Legible changes entries → entries.foldlM (r.take changes) blank =
      some (r.gather changes blank entries) := fun legible =>
    foldlM_take h once legible fun _ _ m member _ => vacant m member
  constructor
  · intro taken
    have legible := legible_of_foldlM taken
    exact ⟨legible, Option.some.inj (taken.symm.trans (all legible))⟩
  · rintro ⟨legible, rfl⟩
    exact all legible

theorem readObject_trees (h : r.Understands depth changes fits) {entries : List (Label × Tree)}
    (suits : ∀ e ∈ entries, ∀ name slot, text? e.1.name = some name →
      r.slot? name = some slot → fits slot e.2) (inner : Blanks) (draft : σ) (rest : Bytes) :
    (r.readObject depth draft (inner.bytes ++ (separated true (Tree.entryBytes entries) ++
      Frame.close .object :: rest))).toOption =
      (((named? entries).bind fun es => es.foldlM (r.take changes) draft).filter
        fun draft => (r.missing? draft).isNone).map (·, rest) := by
  have each : ∀ e ∈ entries, ∀ draft name rest, text? e.1.name = some name → EndsNumber rest →
      (r.readMember depth draft name (e.1.colon (e.2.bytes ++ rest))).toOption =
        (r.take changes draft (name, e.2)).map (·, rest) := by
    intro e member draft name rest named ends
    exact readMember_tree h (fun slot into => suits e member name slot named into) ends
  have named : (fun draft (e : Label × Tree) =>
      (text? e.1.name).bind fun name => r.take changes draft (name, e.2)) =
        fun draft e => ((text? e.1.name).map (·, e.2)).bind (r.take changes draft) := by
    funext draft e
    rw [Option.bind_map]
    rfl
  rw [readObject, toOption_bind, foldMembers_trees each (entries_lt_length entries inner rest),
    named, foldlM_bind, ← named?]
  cases (named? entries).bind fun es => es.foldlM (r.take changes) draft with
  | none => rfl
  | some last =>
    simp only [Option.map_some, Option.bind_some, Option.filter_some]
    cases r.missing? last <;> rfl

def ofTree? (r : Record σ) (changes : Changes σ) (blank : σ) : Tree → Option σ
  | .object _ entries => ((named? entries).bind fun es => es.foldlM (r.take changes) blank).filter
      fun draft => (r.missing? draft).isNone
  | _ => none

theorem read_tree (h : r.Understands depth changes fits) (inner : Blanks)
    {entries : List (Label × Tree)} (suits : ∀ e ∈ entries, ∀ name slot,
      text? e.1.name = some name → r.slot? name = some slot → fits slot e.2) (blank : σ)
    (blanks : Blanks) (rest : Bytes) :
    (r.read blank (depth + 1) (blanks.bytes ++ ((Tree.object inner entries).bytes ++ rest))).toOption
      = (r.ofTree? changes blank (.object inner entries)).map (·, rest) := by
  have form : (Tree.object inner entries).bytes ++ rest = openObject :: (inner.bytes ++
      (separated true (Tree.entryBytes entries) ++ Frame.close .object :: rest)) := by
    simp [Tree.bytes]
  have object := readObject_trees h suits inner blank rest
  rw [read, skipBlanks_blanks, form, skipBlanks_cons (show isBlank openObject = false by decide)]
  simp only [or_true, if_true, show openObject ≠ openList by decide, if_false, object]
  rfl

/-- A record is read of an object just if its entries can be taken and leave nothing missing. -/
theorem ofTree?_eq_some (h : r.Understands depth changes fits) (inner : Blanks)
    {entries : List (Label × Tree)} (once : ∀ es, named? entries = some es → Once r.slot? es)
    {blank draft : σ} (vacant : ∀ m ∈ r.members, m.filled blank = false) :
    r.ofTree? changes blank (.object inner entries) = some draft ↔
      ∃ es, named? entries = some es ∧ r.Legible changes es ∧
        draft = r.gather changes blank es ∧ r.missing? draft = none := by
  rw [ofTree?, Option.filter_eq_some_iff, Option.bind_eq_some_iff, Option.isNone_iff_eq_none]
  constructor
  · rintro ⟨⟨es, names, taken⟩, complete⟩
    obtain ⟨legible, same⟩ := (foldlM_take_iff h (once es names) vacant).mp taken
    exact ⟨es, names, legible, same, complete⟩
  · rintro ⟨es, names, legible, same, complete⟩
    exact ⟨⟨es, names, (foldlM_take_iff h (once es names) vacant).mpr ⟨legible, same⟩⟩, complete⟩

structure Single (r : Record (Option τ)) (field : String) (changes : Changes (Option τ))
    (what? : Tree → Option τ) : Prop where
  member : ∃ m, r.members = [m] ∧ m.name = field ∧ ∀ draft, m.filled draft = draft.isSome
  own : ∀ t, changes field t = (what? t).map fun v _ => some v
  other : ∀ o t, o ≠ field → changes o t = none

namespace Single

variable {r : Record (Option τ)} {field : String} {changes : Changes (Option τ)}
  {what? : Tree → Option τ}

theorem of_mem (h : r.Single field changes what?) {m : Member (Option τ)} (member : m ∈ r.members) :
    m.name = field ∧ ∀ draft, m.filled draft = draft.isSome := by
  obtain ⟨o, members, rest⟩ := h.member
  rw [members] at member
  exact List.mem_singleton.mp member ▸ rest

theorem vacant (h : r.Single field changes what?) : ∀ m ∈ r.members, m.filled none = false :=
  fun _ member => (h.of_mem member).2 none

theorem understands (h : r.Single field changes what?) {depth : Nat} {fits : String → Tree → Prop}
    (reads : ∀ m ∈ r.members,
      m.Reads depth (fun t => (what? t).map fun v _ => some v) (fits field)) :
    r.Understands depth changes fits where
  reads m member := by
    rw [(h.of_mem member).1, funext h.own]
    exact reads m member
  fills m hm o ho t change draft made := by
    rw [(h.of_mem hm).1, h.own] at made
    obtain ⟨v, _, rfl⟩ := Option.map_eq_some_iff.mp made
    simp [(h.of_mem ho).2, (h.of_mem hm).1, (h.of_mem ho).1]

theorem stores (h : r.Single field changes what?) : changes.Stores field id what? where
  own t change draft made := by
    rw [h.own] at made
    obtain ⟨v, value, rfl⟩ := Option.map_eq_some_iff.mp made
    simp [value]
  other o t change draft different made := by
    rw [h.other o t different] at made
    contradiction

theorem told (h : r.Single field changes what?) {entries : List (String × Tree)}
    (once : Once r.slot? entries) {said : Option τ} (tells : Tells r.slot? entries field what? said) :
    r.Legible changes entries ∧ said = r.gather changes none entries := by
  have legible : r.Legible changes entries := by
    refine (legible_iff once).mpr fun m member t entry => ?_
    rw [(h.of_mem member).1] at entry ⊢
    rw [h.own, Option.isSome_map]
    exact tells.isSome entry
  exact ⟨legible, tells.unique (tells_gather h.stores once legible rfl)⟩

end Single

end Record

/-- A text that is one object. The inner blanks are those behind its brace. -/
structure ObjectText where
  before : Blanks
  inner : Blanks
  entries : List (Label × Tree)
  after : Blanks

namespace ObjectText

def tree (t : ObjectText) : Tree := .object t.inner t.entries

def bytes (t : ObjectText) : Bytes := t.before.bytes ++ (t.tree.bytes ++ t.after.bytes)

theorem skipBlanks_after (blanks : Blanks) : skipBlanks blanks.bytes = [] := by
  have skipped := skipBlanks_blanks blanks []
  rwa [List.append_nil] at skipped

theorem readWhole_record {r : Record σ} {depth : Nat} {changes : Changes σ}
    {fits : String → Tree → Prop} (h : r.Understands depth changes fits) {t : ObjectText}
    (suits : ∀ e ∈ t.entries, ∀ name slot, text? e.1.name = some name →
      r.slot? name = some slot → fits slot e.2) (blank : σ) :
    (readWhole (r.read blank (depth + 1)) t.bytes).toOption = r.ofTree? changes blank t.tree := by
  have value := Record.read_tree h t.inner suits blank t.before t.after.bytes
  rw [readWhole, bytes]
  cases read : r.read blank (depth + 1) (t.before.bytes ++ (t.tree.bytes ++ t.after.bytes)) with
  | error fault =>
    rw [← tree, read] at value
    have none := Option.map_eq_none_iff.mp value.symm
    rw [none]
    rfl
  | ok found =>
    obtain ⟨draft, rest⟩ := found
    rw [← tree, read] at value
    obtain ⟨made, taken, same⟩ := Option.map_eq_some_iff.mp value.symm
    obtain ⟨rfl, rfl⟩ := Prod.mk.inj same
    rw [taken]
    simp [skipBlanks_after]

theorem readWhole_record_iff {r : Record σ} {depth : Nat} {changes : Changes σ}
    {fits : String → Tree → Prop} (h : r.Understands depth changes fits) {t : ObjectText}
    (once : ∀ es, named? t.entries = some es → Once r.slot? es)
    (suits : ∀ e ∈ t.entries, ∀ name slot, text? e.1.name = some name →
      r.slot? name = some slot → fits slot e.2) {blank draft : σ}
    (vacant : ∀ m ∈ r.members, m.filled blank = false) :
    readWhole (r.read blank (depth + 1)) t.bytes = .ok draft ↔
      ∃ es, named? t.entries = some es ∧ r.Legible changes es ∧
        draft = r.gather changes blank es ∧ r.missing? draft = none := by
  have read := readWhole_record h suits blank
  rw [← r.ofTree?_eq_some h t.inner once vacant, ← tree, ← read]
  exact ⟨congrArg Except.toOption, ok_of_toOption⟩

end ObjectText

end RequestBus.Json
