import Mathlib.Data.List.Nodup
import RequestBus.Proofs.Toml.Document
import RequestBus.Settings.Store

/-! Settings that are written are read back. Each field of a section says how it is read and how it
is written; where the fields keep what they are given, leave each other alone and together are the
whole section, the section reads back, in whatever order its members stand. -/
namespace RequestBus.Settings

/-! ## Members in any order -/

theorem readMembers_agree {onMember : σ → String → Datum → Option (Except Mismatch σ)}
    {agrees : String → σ → Prop} {members : List (String × Datum)}
    (reads : ∀ draft name d, (name, d) ∈ members → ∃ next, onMember draft name d = some (.ok next) ∧
      agrees name next ∧ ∀ other, agrees other draft → agrees other next) (draft : σ) :
    ∃ last, readMembers onMember draft members = .ok last ∧
      (∀ name d, (name, d) ∈ members → agrees name last) ∧
      ∀ name, agrees name draft → agrees name last := by
  induction members generalizing draft with
  | nil => exact ⟨draft, rfl, nofun, fun _ agree => agree⟩
  | cons m members ih =>
    obtain ⟨first, d⟩ := m
    obtain ⟨next, read, agree, kept⟩ := reads draft first d List.mem_cons_self
    obtain ⟨last, reading, later, keeps⟩ := ih (fun draft name d member =>
      reads draft name d (List.mem_cons_of_mem _ member)) next
    refine ⟨last, ?_, fun name e member => ?_, fun name before => keeps name (kept name before)⟩
    · simp only [readMembers, read]
      exact reading
    · rcases List.mem_cons.mp member with same | member
      · cases same
        exact keeps first agree
      · exact later name e member

/-! ## Fields -/

section Fields
variable {σ : Type} {f : Field σ} {s t draft next : σ} {d : Datum}

def Slot.Kept : Slot σ → Prop
  | .required get set => ∀ s v, get (set s v) = v
  | .text get set => ∀ s v, get (set s v) = v
  | .nullable get set => ∀ s v, get (set s v) = v
  | .flag get set => ∀ s v, get (set s v) = v
  | .number word get set =>
    (∀ s, get s < Nat.pow 2 word.bits) ∧ ∀ s n, n < Nat.pow 2 word.bits → get (set s n) = n

def Slot.Sets : Slot σ → σ → σ → Prop
  | .required _ set, draft, next => ∃ v, next = set draft v
  | .text _ set, draft, next => ∃ v, next = set draft v
  | .nullable _ set, draft, next => ∃ v, next = set draft v
  | .flag _ set, draft, next => ∃ v, next = set draft v
  | .number _ _ set, draft, next => ∃ v, next = set draft v

def Slot.Same : Slot σ → σ → σ → Prop
  | .required get _, s, t => get s = get t
  | .text get _, s, t => get s = get t
  | .nullable get _, s, t => get s = get t
  | .flag get _, s, t => get s = get t
  | .number _ get _, s, t => get s = get t

theorem Field.same_of_write (same : f.write s = f.write t) : f.slot.Same s t := by
  obtain ⟨name, slot, about⟩ := f
  cases slot with
  | required get set | text get set => exact Datum.text.inj (Option.some.inj same)
  | nullable get set => exact Option.map_injective (fun _ _ => Datum.text.inj) same
  | flag get set => exact Datum.flag.inj (Option.some.inj same)
  | number word get set => exact Int.ofNat.inj (Datum.whole.inj (Option.some.inj same))

theorem Field.plain_of_write (writes : f.write s = some d) : Toml.Plain d := by
  unfold Field.write at writes
  split at writes
  · cases writes
    exact .text _
  · cases writes
    exact .text _
  · obtain ⟨v, _, rfl⟩ := Option.map_eq_some_iff.mp writes
    exact .text v
  · cases writes
    exact .flag _
  · cases writes
    exact .natural _

theorem Field.isSome_write (required : f.isRequired = true) (s : σ) :
    (f.write s).isSome = true := by
  unfold Field.isRequired at required
  unfold Field.write
  split at required
  · rename_i slot
    rw [slot]
    rfl
  · contradiction

theorem readNumber_natural {word : Word} {n : Nat} (fits : n < Nat.pow 2 word.bits) :
    readNumber word (.whole n) = .ok n := by
  refine if_pos ?_ |>.trans rfl
  exact ⟨Int.natCast_nonneg n, Int.ofNat_lt.mpr fits⟩

theorem Field.read_write (kept : f.slot.Kept) (writes : f.write s = some d) (draft : σ) :
    ∃ next, f.read draft d = .ok next ∧ f.write next = some d ∧ f.slot.Sets draft next := by
  obtain ⟨name, slot, about⟩ := f
  cases slot with
  | required get set =>
    cases writes
    exact ⟨set draft (get s), rfl, congrArg (fun v => some (Datum.text v)) (kept draft _), _, rfl⟩
  | text get set =>
    cases writes
    exact ⟨set draft (get s), rfl, congrArg (fun v => some (Datum.text v)) (kept draft _), _, rfl⟩
  | nullable get set =>
    obtain ⟨v, _, rfl⟩ := Option.map_eq_some_iff.mp writes
    exact ⟨set draft (some v), rfl, congrArg (Option.map Datum.text) (kept draft (some v)), _, rfl⟩
  | flag get set =>
    cases writes
    exact ⟨set draft (get s), rfl, congrArg (fun v => some (Datum.flag v)) (kept draft _), _, rfl⟩
  | number word get set =>
    cases writes
    obtain ⟨fits, holds⟩ := kept
    refine ⟨set draft (get s), ?_, ?_, _, rfl⟩
    · simp only [Field.read, readNumber_natural (fits s)]
      rfl
    · simp only [Field.write, holds draft _ (fits s)]

end Fields

/-! ## Sections -/

section Outlines
variable {σ : Type} {o : Outline σ} {f : Field σ} {s : σ}

/-- A section whose fields can be told apart in a file and in the settings, and are all there is to
the settings. A field that may be absent is absent before anything is read. -/
structure Outline.Lawful (o : Outline σ) : Prop where
  title : Toml.BareName o.name
  names : (o.fields.map Field.name).Nodup
  bare : ∀ f ∈ o.fields, Toml.BareName f.name
  kept : ∀ f ∈ o.fields, f.slot.Kept
  apart : ∀ f ∈ o.fields, ∀ g ∈ o.fields, f.name ≠ g.name → ∀ draft next,
    f.slot.Sets draft next → g.write next = g.write draft
  absent : ∀ f ∈ o.fields, ∀ s, f.write s = none → f.write o.blank = none
  whole : ∀ s t, (∀ f ∈ o.fields, f.slot.Same s t) → s = t

theorem mem_write {e : String × Datum} :
    e ∈ o.write s ↔ ∃ f ∈ o.fields, f.name = e.1 ∧ f.write s = some e.2 := by
  obtain ⟨name, d⟩ := e
  rw [Outline.write, List.mem_filterMap]
  refine exists_congr fun f => and_congr_right fun _ => ?_
  rw [Option.map_eq_some_iff]
  constructor
  · rintro ⟨_, writes, same⟩
    cases same
    exact ⟨rfl, writes⟩
  · rintro ⟨rfl, writes⟩
    exact ⟨d, writes, rfl⟩

theorem Outline.Lawful.eq_of_name (lawful : o.Lawful) {g : Field σ} (member : f ∈ o.fields)
    (other : g ∈ o.fields) (same : f.name = g.name) : f = g :=
  List.inj_on_of_nodup_map lawful.names member other same

theorem Outline.Lawful.find? (lawful : o.Lawful) (member : f ∈ o.fields) :
    o.fields.find? (·.name == f.name) = some f := by
  cases found : o.fields.find? (·.name == f.name) with
  | none => exact absurd (beq_self_eq_true f.name) (List.find?_eq_none.mp found f member)
  | some g =>
    have same : g.name = f.name := eq_of_beq (@List.find?_some _ _ g _ found)
    rw [lawful.eq_of_name (List.mem_of_find?_eq_some found) member same]

theorem names_write_sublist (o : Outline σ) (s : σ) :
    ((o.write s).map Prod.fst).Sublist (o.fields.map Field.name) := by
  unfold Outline.write
  induction o.fields with
  | nil => exact .refl _
  | cons f fields ih =>
    rw [List.filterMap_cons]
    cases f.write s with
    | none => exact ih.cons _
    | some d => exact ih.cons_cons _

theorem Outline.Lawful.writable (lawful : o.Lawful) (s : σ) : Toml.Writable (o.write s) where
  names := lawful.names.sublist (names_write_sublist o s)
  bare e member := by
    obtain ⟨f, there, named, _⟩ := mem_write.mp member
    exact named ▸ lawful.bare f there
  plain e member := by
    obtain ⟨f, _, _, writes⟩ := mem_write.mp member
    exact f.plain_of_write writes

def Outline.Agrees (o : Outline σ) (s : σ) (name : String) (draft : σ) : Prop :=
  ∀ f ∈ o.fields, f.name = name → f.write draft = f.write s

theorem Outline.Lawful.read_member (lawful : o.Lawful) (member : f ∈ o.fields) {d : Datum}
    (writes : f.write s = some d) (draft : σ) :
    ∃ next, (o.fields.find? (·.name == f.name)).map (fun f => f.read draft d) = some (.ok next) ∧
      o.Agrees s f.name next ∧ ∀ name, o.Agrees s name draft → o.Agrees s name next := by
  obtain ⟨next, read, written, sets⟩ := f.read_write (lawful.kept f member) writes draft
  refine ⟨next, by rw [lawful.find? member, Option.map_some, read], ?_, ?_⟩
  · intro g other same
    rw [lawful.eq_of_name other member same, written, writes]
  · intro name before g other same
    by_cases alike : f.name = g.name
    · rw [← lawful.eq_of_name member other alike, written, writes]
    · rw [lawful.apart f member g other alike draft next sets, before g other same]

/-- A section reads back what it has written, in whatever order the fields come. -/
theorem Outline.Lawful.read_write (lawful : o.Lawful) (exact : Bool) (s : σ) :
    o.read exact (Toml.ordered (o.write s)) = .ok s := by
  have members {name : String} {d : Datum} : (name, d) ∈ (Dictionary.ofList (o.write s)).entries ↔
      ∃ f ∈ o.fields, f.name = name ∧ f.write s = some d :=
    (Dictionary.mem_ofList_of_nodup (lawful.writable s).names).trans mem_write
  have reads (draft : σ) (name : String) (d : Datum)
      (member : (name, d) ∈ (Dictionary.ofList (o.write s)).entries) :
      ∃ next, (o.fields.find? (·.name == name)).map (fun f => f.read draft d) = some (.ok next) ∧
        o.Agrees s name next ∧ ∀ other, o.Agrees s other draft → o.Agrees s other next := by
    obtain ⟨f, there, rfl, writes⟩ := members.mp member
    exact lawful.read_member there writes draft
  obtain ⟨last, reading, read, kept⟩ := readMembers_agree reads o.blank
  have all : ∀ f ∈ o.fields, f.write last = f.write s := by
    intro f there
    cases writes : f.write s with
    | none =>
      have blank : o.Agrees s f.name o.blank := fun g other same => by
        rw [lawful.eq_of_name other there same, lawful.absent f there s writes, writes]
      rw [kept f.name blank f there rfl, writes]
    | some d => rw [read f.name d (members.mpr ⟨f, there, rfl, writes⟩) f there rfl, writes]
  have complete : (o.fields.find? fun f => f.isRequired &&
      !(Dictionary.ofList (o.write s)).entries.any fun m => m.1 == f.name) = none := by
    refine List.find?_eq_none.mpr fun f there missing => ?_
    obtain ⟨required, absent⟩ := Bool.and_eq_true_iff.mp missing
    obtain ⟨d, writes⟩ := Option.isSome_iff_exists.mp (f.isSome_write required s)
    have present : ((Dictionary.ofList (o.write s)).entries.any fun m => m.1 == f.name) = true :=
      List.any_eq_true.mpr ⟨_, members.mpr ⟨f, there, rfl, writes⟩, beq_self_eq_true _⟩
    rw [present] at absent
    contradiction
  have same : last = s := lawful.whole last s fun f there => f.same_of_write (all f there)
  unfold Outline.read Toml.ordered
  simp only [reading, complete]
  exact congrArg _ same

end Outlines

/-! ## The sections of the settings -/

theorem bare_of_all {o : Outline σ}
    (looks : o.fields.all fun f => f.name.toList ≠ [] && f.name.toList.all Toml.isBareKeyChar) :
    ∀ f ∈ o.fields, Toml.BareName f.name :=
  fun f member => Toml.bareName_of_all (List.all_eq_true.mp looks f member)

theorem dispatchOutline_lawful : dispatchOutline.Lawful where
  title := Toml.bareName_of_all rfl
  names := by decide
  bare := bare_of_all rfl
  kept := by
    simp only [dispatchOutline, List.forall_mem_cons]
    refine ⟨?size, ?registry, fun _ _ => rfl, ?flush, nofun⟩
    all_goals exact And.intro (fun _ => UInt64.toNat_lt _) fun _ _ => UInt64.toNat_ofNat_of_lt'
  apart f first g second different draft next sets := by
    simp only [dispatchOutline, List.mem_cons, List.not_mem_nil, or_false] at first second
    rcases first with rfl | rfl | rfl | rfl <;> rcases second with rfl | rfl | rfl | rfl
    -- Either it is one field twice, or what is set is not what the other field looks at.
    all_goals first | exact absurd rfl different | (obtain ⟨_, rfl⟩ := sets; rfl)
  absent := by
    simp only [dispatchOutline, List.forall_mem_cons]
    exact ⟨nofun, nofun, nofun, nofun, nofun⟩
  whole := by
    simp only [dispatchOutline, List.forall_mem_cons]
    rintro ⟨⟩ ⟨⟩ ⟨size, registry, rfl, flush, -⟩
    obtain rfl := UInt64.toNat_inj.mp size
    obtain rfl := UInt64.toNat_inj.mp registry
    obtain rfl := UInt64.toNat_inj.mp flush
    rfl

theorem reliabilityOutline_lawful : reliabilityOutline.Lawful where
  title := Toml.bareName_of_all rfl
  names := by decide
  bare := bare_of_all rfl
  kept := by
    simp only [reliabilityOutline, List.forall_mem_cons]
    refine ⟨?initial, ?longest, ?delay, nofun⟩
    all_goals exact And.intro (fun _ => UInt64.toNat_lt _) fun _ _ => UInt64.toNat_ofNat_of_lt'
  apart f first g second different draft next sets := by
    simp only [reliabilityOutline, List.mem_cons, List.not_mem_nil, or_false] at first second
    rcases first with rfl | rfl | rfl <;> rcases second with rfl | rfl | rfl
    all_goals first | exact absurd rfl different | (obtain ⟨_, rfl⟩ := sets; rfl)
  absent := by
    simp only [reliabilityOutline, List.forall_mem_cons]
    exact ⟨nofun, nofun, nofun, nofun⟩
  whole := by
    simp only [reliabilityOutline, List.forall_mem_cons]
    rintro ⟨⟩ ⟨⟩ ⟨initial, longest, delay, -⟩
    obtain rfl := UInt64.toNat_inj.mp initial
    obtain rfl := UInt64.toNat_inj.mp longest
    obtain rfl := UInt64.toNat_inj.mp delay
    rfl

theorem amqpOutline_lawful : amqpOutline.Lawful where
  title := Toml.bareName_of_all rfl
  names := by decide
  bare := bare_of_all rfl
  kept := by
    simp only [amqpOutline, List.forall_mem_cons]
    refine ⟨fun _ _ => rfl, ?port, fun _ _ => rfl, fun _ _ => rfl, fun _ _ => rfl, fun _ _ => rfl,
      fun _ _ => rfl, fun _ _ => rfl, fun _ _ => rfl, ?consumers, nofun⟩
    case port =>
      exact And.intro (fun _ => UInt16.toNat_lt _) fun _ _ => UInt16.toNat_ofNat_of_lt'
    case consumers =>
      exact And.intro (fun _ => UInt64.toNat_lt _) fun _ _ => UInt64.toNat_ofNat_of_lt'
  apart f first g second different draft next sets := by
    simp only [amqpOutline, List.mem_cons, List.not_mem_nil, or_false] at first second
    rcases first with rfl | rfl | rfl | rfl | rfl | rfl | rfl | rfl | rfl | rfl <;>
      rcases second with rfl | rfl | rfl | rfl | rfl | rfl | rfl | rfl | rfl | rfl
    all_goals first | exact absurd rfl different | (obtain ⟨_, rfl⟩ := sets; rfl)
  absent := by
    simp only [amqpOutline, List.forall_mem_cons]
    exact ⟨nofun, nofun, nofun, nofun, nofun, nofun, nofun, fun _ _ => rfl, nofun, nofun, nofun⟩
  whole := by
    simp only [amqpOutline, List.forall_mem_cons]
    rintro ⟨⟩ ⟨⟩ ⟨rfl, port, rfl, rfl, rfl, rfl, rfl, rfl, rfl, consumers, -⟩
    obtain rfl := UInt16.toNat_inj.mp port
    obtain rfl := UInt64.toNat_inj.mp consumers
    rfl

theorem mqttOutline_lawful : mqttOutline.Lawful where
  title := Toml.bareName_of_all rfl
  names := by decide
  bare := bare_of_all rfl
  kept := by
    simp only [mqttOutline, List.forall_mem_cons]
    refine ⟨fun _ _ => rfl, ?port, fun _ _ => rfl, fun _ _ => rfl, fun _ _ => rfl, fun _ _ => rfl,
      fun _ _ => rfl, fun _ _ => rfl, fun _ _ => rfl, ?alive, nofun⟩
    case port =>
      exact And.intro (fun _ => UInt16.toNat_lt _) fun _ _ => UInt16.toNat_ofNat_of_lt'
    case alive =>
      exact And.intro (fun _ => UInt64.toNat_lt _) fun _ _ => UInt64.toNat_ofNat_of_lt'
  apart f first g second different draft next sets := by
    simp only [mqttOutline, List.mem_cons, List.not_mem_nil, or_false] at first second
    rcases first with rfl | rfl | rfl | rfl | rfl | rfl | rfl | rfl | rfl | rfl <;>
      rcases second with rfl | rfl | rfl | rfl | rfl | rfl | rfl | rfl | rfl | rfl
    all_goals first | exact absurd rfl different | (obtain ⟨_, rfl⟩ := sets; rfl)
  absent := by
    simp only [mqttOutline, List.forall_mem_cons]
    exact ⟨nofun, nofun, nofun, nofun, nofun, nofun, nofun, nofun, fun _ _ => rfl, nofun, nofun⟩
  whole := by
    simp only [mqttOutline, List.forall_mem_cons]
    rintro ⟨⟩ ⟨⟩ ⟨rfl, port, rfl, rfl, rfl, rfl, rfl, rfl, rfl, alive, -⟩
    obtain rfl := UInt16.toNat_inj.mp port
    obtain rfl := UInt64.toNat_inj.mp alive
    rfl

/-! ## The whole -/

theorem mem_toSections {s : Settings} {t : String × List (String × Datum)} :
    t ∈ toSections s ↔ t = (dispatchOutline.name, dispatchOutline.write s.dispatch) ∨
      t = (reliabilityOutline.name, reliabilityOutline.write s.reliability) ∨
      (∃ a, s.amqp = some a ∧ t = (amqpOutline.name, amqpOutline.write a)) ∨
      ∃ m, s.mqtt = some m ∧ t = (mqttOutline.name, mqttOutline.write m) := by
  simp only [toSections, List.mem_append, List.mem_cons, List.not_mem_nil, or_false,
    Option.mem_toList, Option.map_eq_some_iff, or_assoc, @eq_comm _ t]

theorem writable_toSections (s : Settings) : Toml.WritableTables (toSections s) where
  names := by
    unfold toSections
    cases s.amqp <;> cases s.mqtt <;> exact of_decide_eq_true rfl
  bare t member := by
    rcases mem_toSections.mp member with rfl | rfl | ⟨_, _, rfl⟩ | ⟨_, _, rfl⟩
    · exact dispatchOutline_lawful.title
    · exact reliabilityOutline_lawful.title
    · exact amqpOutline_lawful.title
    · exact mqttOutline_lawful.title
  entries t member := by
    rcases mem_toSections.mp member with rfl | rfl | ⟨a, _, rfl⟩ | ⟨m, _, rfl⟩
    · exact dispatchOutline_lawful.writable _
    · exact reliabilityOutline_lawful.writable _
    · exact amqpOutline_lawful.writable _
    · exact mqttOutline_lawful.writable _

/-- Settings hold the same section under a name. The path, which no file has, has no name. -/
structure Agree (s : Settings) (name : String) (draft : Settings) : Prop where
  path : name = "" → draft.path = s.path
  dispatch : name = dispatchOutline.name → draft.dispatch = s.dispatch
  reliability : name = reliabilityOutline.name → draft.reliability = s.reliability
  amqp : name = amqpOutline.name → draft.amqp = s.amqp
  mqtt : name = mqttOutline.name → draft.mqtt = s.mqtt

section Whole
variable {s draft : Settings} {exact : Bool}

theorem read_section {name : String} {entries : List (String × Datum)}
    (member : (name, entries) ∈ toSections s) (draft : Settings) :
    ∃ next, ((sectionReads exact).find? (·.1 == name)).map (fun r =>
        r.2 draft (Toml.ordered entries)) = some (.ok next) ∧
      Agree s name next ∧ ∀ other, Agree s other draft → Agree s other next := by
  rcases mem_toSections.mp member with same | same | ⟨a, here, same⟩ | ⟨m, here, same⟩ <;>
    cases same
  · have read := dispatchOutline_lawful.read_write exact s.dispatch
    refine ⟨{ draft with dispatch := s.dispatch }, ?_, ?_, fun _ before => ?_⟩
    · exact congrArg (fun r => some (r.map fun v => { draft with dispatch := v })) read
    · constructor <;> intro same <;> first | rfl | exact absurd same (by decide)
    · exact ⟨before.path, fun _ => rfl, before.reliability, before.amqp, before.mqtt⟩
  · have read := reliabilityOutline_lawful.read_write exact s.reliability
    refine ⟨{ draft with reliability := s.reliability }, ?_, ?_, fun _ before => ?_⟩
    · exact congrArg (fun r => some (r.map fun v => { draft with reliability := v })) read
    · constructor <;> intro same <;> first | rfl | exact absurd same (by decide)
    · exact ⟨before.path, before.dispatch, fun _ => rfl, before.amqp, before.mqtt⟩
  · have read := amqpOutline_lawful.read_write exact a
    refine ⟨{ draft with amqp := s.amqp }, ?_, ?_, fun _ before => ?_⟩
    · rw [here]
      exact congrArg (fun r => some ((r.map some).map fun v => { draft with amqp := v })) read
    · constructor <;> intro same <;> first | rfl | exact absurd same (by decide)
    · exact ⟨before.path, before.dispatch, before.reliability, fun _ => rfl, before.mqtt⟩
  · have read := mqttOutline_lawful.read_write exact m
    refine ⟨{ draft with mqtt := s.mqtt }, ?_, ?_, fun _ before => ?_⟩
    · rw [here]
      exact congrArg (fun r => some ((r.map some).map fun v => { draft with mqtt := v })) read
    · constructor <;> intro same <;> first | rfl | exact absurd same (by decide)
    · exact ⟨before.path, before.dispatch, before.reliability, before.amqp, fun _ => rfl⟩

theorem Agree.blank (s : Settings) {name : String} (absent : ∀ t ∈ toSections s, t.1 ≠ name) :
    Agree { s with path := "" } name {} := by
  constructor
  · exact fun _ => rfl
  · rintro rfl
    exact absurd rfl (absent _ (mem_toSections.mpr (.inl rfl)))
  · rintro rfl
    exact absurd rfl (absent _ (mem_toSections.mpr (.inr (.inl rfl))))
  · rintro rfl
    cases here : s.amqp with
    | none => rfl
    | some a => exact absurd rfl (absent _ (mem_toSections.mpr (.inr (.inr (.inl ⟨a, here, rfl⟩)))))
  · rintro rfl
    cases here : s.mqtt with
    | none => rfl
    | some m => exact absurd rfl (absent _ (mem_toSections.mpr (.inr (.inr (.inr ⟨m, here, rfl⟩)))))

def sectionMembers (s : Settings) : List (String × Datum) :=
  (toSections s).map fun t => (t.1, Toml.ordered t.2)

theorem mem_sectionMembers {m : String × Datum} :
    m ∈ (Dictionary.ofList s.sectionMembers).entries ↔
      ∃ t ∈ toSections s, (t.1, Toml.ordered t.2) = m := by
  rw [Dictionary.mem_ofList_of_nodup, sectionMembers, List.mem_map]
  rw [sectionMembers, List.map_map]
  exact (writable_toSections s).names

theorem Agree.eq (agree : ∀ name, Agree s name draft) : draft = s := by
  cases s
  cases draft
  obtain rfl := (agree "").path rfl
  obtain rfl := (agree _).dispatch rfl
  obtain rfl := (agree _).reliability rfl
  obtain rfl := (agree _).amqp rfl
  obtain rfl := (agree _).mqtt rfl
  rfl

theorem ofDatum_sectionMembers (exact : Bool) (s : Settings) :
    ofDatum exact (Toml.ordered s.sectionMembers) = .ok { s with path := "" } := by
  have reads (draft : Settings) (name : String) (d : Datum)
      (member : (name, d) ∈ (Dictionary.ofList s.sectionMembers).entries) :
      ∃ next, ((sectionReads exact).find? (·.1 == name)).map (fun r => r.2 draft d) =
          some (.ok next) ∧ Agree { s with path := "" } name next ∧
        ∀ other, Agree { s with path := "" } other draft →
          Agree { s with path := "" } other next := by
    obtain ⟨t, there, same⟩ := mem_sectionMembers.mp member
    cases same
    exact read_section (s := { s with path := "" }) there draft
  obtain ⟨last, reading, read, kept⟩ := readMembers_agree reads {}
  have agree (name : String) : Agree { s with path := "" } name last := by
    by_cases present : ∃ t ∈ toSections s, t.1 = name
    · obtain ⟨t, there, rfl⟩ := present
      exact read t.1 (Toml.ordered t.2) (mem_sectionMembers.mpr ⟨t, there, rfl⟩)
    · exact kept name (.blank s fun t there same => present ⟨t, there, same⟩)
  exact reading.trans (congrArg _ (Agree.eq agree))

/-- What is rendered is parsed again, whatever its texts and numbers are. -/
theorem parse_render (s : Settings) : parse (render s) = .ok { s with path := "" } := by
  have read : Toml.read? (render s) = some (Toml.ordered s.sectionMembers) :=
    Toml.read?_writeTables (writable_toSections s)
  rw [parse, read]
  exact congrArg (Except.mapError StoreError.mismatch) (ofDatum_sectionMembers false s)

end Whole

end RequestBus.Settings
