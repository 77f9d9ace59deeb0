import Mathlib.Data.List.Induction
import Mathlib.Data.List.Perm.Basic
import RequestBus.Dictionary

namespace RequestBus

theorem mem_insertEntry_iff {key : String} {value : α} {entries : List (String × α)}
    (h : Ascending entries) {e : String × α} :
    e ∈ insertEntry key value entries ↔ e = (key, value) ∨ (e ∈ entries ∧ e.1 ≠ key) := by
  induction entries with
  | nil => simp [insertEntry]
  | cons head rest ih =>
    obtain ⟨k, v⟩ := head
    obtain ⟨first, tail⟩ := List.pairwise_cons.mp h
    simp only [insertEntry]
    split
    · rename_i below
      have other : ∀ f ∈ (k, v) :: rest, f.1 ≠ key := by
        rintro f hf rfl
        rcases List.mem_cons.mp hf with rfl | hf
        · exact String.lt_irrefl _ below
        · exact String.lt_irrefl _ (String.lt_trans below (first f hf))
      rw [List.mem_cons]
      exact or_congr_right ⟨fun he => ⟨he, other e he⟩, And.left⟩
    · split
      · rename_i same
        subst same
        have other : ∀ f ∈ rest, f.1 ≠ key := fun f hf same =>
          String.lt_irrefl _ (same ▸ first f hf)
        rw [List.mem_cons, List.mem_cons]
        refine or_congr_right ⟨fun he => ⟨.inr he, other e he⟩, ?_⟩
        rintro ⟨rfl | he, different⟩
        · exact absurd rfl different
        · exact he
      · rename_i different
        rw [List.mem_cons, List.mem_cons, ih tail]
        constructor
        · rintro (rfl | inserted | ⟨he, other⟩)
          · exact .inr ⟨.inl rfl, Ne.symm different⟩
          · exact .inl inserted
          · exact .inr ⟨.inr he, other⟩
        · rintro (inserted | ⟨rfl | he, other⟩)
          · exact .inr (.inl inserted)
          · exact .inl rfl
          · exact .inr (.inr ⟨he, other⟩)

theorem Ascending.nodup {entries : List (String × α)} (h : Ascending entries) : entries.Nodup := by
  refine List.Pairwise.imp ?_ h
  rintro a b below rfl
  exact String.lt_irrefl _ below

theorem Ascending.eq_of_mem {one two : List (String × α)} (first : Ascending one)
    (second : Ascending two) (same : ∀ e, e ∈ one ↔ e ∈ two) : one = two := by
  have perm := (List.perm_ext_iff_of_nodup first.nodup second.nodup).mpr same
  refine perm.eq_of_pairwise (fun a b _ _ below above => ?_) first second
  exact absurd (String.lt_trans below above) (String.lt_irrefl _)

theorem Ascending.value_unique {entries : List (String × α)} (h : Ascending entries) {key : String}
    {one two : α} (first : (key, one) ∈ entries) (second : (key, two) ∈ entries) : one = two := by
  induction entries with
  | nil => contradiction
  | cons head rest ih =>
    obtain ⟨below, tail⟩ := List.pairwise_cons.mp h
    rcases List.mem_cons.mp first with rfl | first <;>
      rcases List.mem_cons.mp second with same | second
    · exact (Prod.mk.inj same).2.symm
    · exact absurd (below _ second) (String.lt_irrefl _)
    · exact absurd (same ▸ below _ first) (String.lt_irrefl _)
    · exact ih tail first second

namespace Dictionary

variable {d : Dictionary α}

theorem mem_insert {key : String} {value : α} {e : String × α} :
    e ∈ (d.insert key value).entries ↔ e = (key, value) ∨ (e ∈ d.entries ∧ e.1 ≠ key) :=
  mem_insertEntry_iff d.ascending

theorem mem_filterMap {f : α → Option β} {key : String} {value : β} :
    (key, value) ∈ (d.filterMap f).entries ↔ ∃ v, (key, v) ∈ d.entries ∧ f v = some value := by
  rw [filterMap, List.mem_filterMap]
  constructor
  · rintro ⟨⟨k, v⟩, member, kept⟩
    obtain ⟨_, becomes, same⟩ := Option.map_eq_some_iff.mp kept
    cases same
    exact ⟨v, member, becomes⟩
  · rintro ⟨v, member, becomes⟩
    exact ⟨(key, v), member, by simp [becomes]⟩

theorem mem_filter {test : String × α → Bool} {e : String × α} :
    e ∈ (d.filter test).entries ↔ e ∈ d.entries ∧ test e = true :=
  List.mem_filter

theorem find?_eq_some {test : String → Bool} {value : α} (h : d.find? test = some value) :
    ∃ key, (key, value) ∈ d.entries ∧ test key = true ∧
      ∀ e ∈ d.entries, test e.1 = true → key ≤ e.1 := by
  obtain ⟨⟨key, v⟩, found, rfl⟩ := Option.map_eq_some_iff.mp h
  obtain ⟨passes, before, after, split, fails⟩ := List.find?_eq_some_iff_append.mp found
  have ascending := d.ascending
  rw [split] at ascending ⊢
  refine ⟨key, List.mem_append_right _ List.mem_cons_self, passes, ?_⟩
  intro e member satisfies
  rcases List.mem_append.mp member with early | late
  · have fail := fails e early
    simp [satisfies] at fail
  · rcases List.mem_cons.mp late with rfl | late
    · exact String.le_refl _
    · have behind := (List.pairwise_append.mp ascending).2.1
      exact String.not_lt.mp (String.lt_asymm ((List.pairwise_cons.mp behind).1 e late))

theorem find?_eq_none {test : String → Bool} (h : d.find? test = none) :
    ∀ e ∈ d.entries, test e.1 = false := by
  intro e member
  simpa using List.find?_eq_none.mp (Option.map_eq_none_iff.mp h) e member

theorem get?_eq_some_iff {key : String} {value : α} :
    d.get? key = some value ↔ (key, value) ∈ d.entries := by
  constructor
  · intro found
    obtain ⟨k, member, same, _⟩ := find?_eq_some found
    rwa [← eq_of_beq same]
  · intro member
    cases found : d.get? key with
    | none => simpa using find?_eq_none found _ member
    | some other =>
      obtain ⟨k, there, same, _⟩ := find?_eq_some found
      obtain rfl : k = key := eq_of_beq same
      rw [d.ascending.value_unique there member]

theorem ext_get? {one two : Dictionary α} (same : ∀ key, one.get? key = two.get? key) :
    one = two := by
  refine ext (Ascending.eq_of_mem one.ascending two.ascending fun (key, value) => ?_)
  rw [← get?_eq_some_iff, ← get?_eq_some_iff, same]

theorem get?_insert (d : Dictionary α) (key other : String) (value : α) :
    (d.insert key value).get? other = if other = key then some value else d.get? other := by
  refine Option.ext fun v => ?_
  rw [get?_eq_some_iff, mem_insert]
  split
  · rename_i same
    simp [same, eq_comm]
  · rename_i different
    simp [different, get?_eq_some_iff]

theorem insertEntry_map (f : α → β) (key : String) (value : α) (entries : List (String × α)) :
    insertEntry key (f value) (entries.map fun e => (e.1, f e.2)) =
      (insertEntry key value entries).map fun e => (e.1, f e.2) := by
  induction entries with
  | nil => rfl
  | cons head rest ih =>
    simp only [List.map_cons, insertEntry, ih]
    split
    · rfl
    · split <;> rfl

theorem entries_ofList_map (f : α → β) (entries : List (String × α)) :
    (ofList (entries.map fun e => (e.1, f e.2))).entries =
      (ofList entries).entries.map fun e => (e.1, f e.2) := by
  have onward : ∀ (d : Dictionary α) (d' : Dictionary β),
      d'.entries = d.entries.map (fun e => (e.1, f e.2)) →
      ((entries.map fun e => (e.1, f e.2)).foldl (fun d e => d.insert e.1 e.2) d').entries =
        (entries.foldl (fun d e => d.insert e.1 e.2) d).entries.map fun e => (e.1, f e.2) := by
    induction entries with
    | nil => exact fun _ _ same => same
    | cons e entries ih =>
      intro d d' same
      refine ih _ _ ?_
      simp only [insert, same]
      exact insertEntry_map f e.1 e.2 d.entries
  exact onward empty empty rfl

theorem mem_ofList {entries : List (String × α)} {key : String} {value : α} :
    (key, value) ∈ (ofList entries).entries ↔
      ∃ before after, entries = before ++ (key, value) :: after ∧ ∀ e ∈ after, e.1 ≠ key := by
  induction entries using List.reverseRecOn with
  | nil => simp [ofList, empty]
  | append_singleton entries e ih =>
    have last : ofList (entries ++ [e]) = (ofList entries).insert e.1 e.2 := by
      simp [ofList]
    rw [last, mem_insert, ih]
    constructor
    · rintro (same | ⟨⟨before, after, rfl, others⟩, different⟩)
      · exact ⟨entries, [], same ▸ rfl, nofun⟩
      · refine ⟨before, after ++ [e], by simp, fun f member => ?_⟩
        rcases List.mem_append.mp member with member | member
        · exact others f member
        · exact List.mem_singleton.mp member ▸ Ne.symm different
    · rintro ⟨before, after, same, others⟩
      rcases List.eq_nil_or_concat after with rfl | ⟨front, f, rfl⟩
      · obtain ⟨rfl, single⟩ := List.append_inj' same rfl
        exact .inl (List.singleton_inj.mp single).symm
      · rw [List.concat_eq_append, ← List.cons_append, ← List.append_assoc] at same
        obtain ⟨rfl, single⟩ := List.append_inj' same rfl
        obtain rfl := List.singleton_inj.mp single
        refine .inr ⟨⟨before, front, rfl, fun g member => others g (by simp [member])⟩, ?_⟩
        exact Ne.symm (others e (by simp))

theorem mem_ofList_of_nodup {entries : List (String × α)} (distinct : (entries.map Prod.fst).Nodup)
    {e : String × α} : e ∈ (ofList entries).entries ↔ e ∈ entries := by
  obtain ⟨key, value⟩ := e
  rw [mem_ofList]
  constructor
  · rintro ⟨before, after, rfl, _⟩
    exact List.mem_append_right _ List.mem_cons_self
  · intro member
    obtain ⟨before, after, rfl⟩ := List.append_of_mem member
    rw [List.map_append, List.map_cons] at distinct
    have apart := (List.nodup_cons.mp (List.nodup_append.mp distinct).2.1).1
    refine ⟨before, after, rfl, fun e behind same => apart ?_⟩
    exact List.mem_map.mpr ⟨e, behind, same⟩

theorem ofList_reverse {entries : List (String × α)} (distinct : (entries.map Prod.fst).Nodup) :
    ofList entries.reverse = ofList entries := by
  refine ext (Ascending.eq_of_mem (ofList _).ascending (ofList _).ascending fun e => ?_)
  have backwards : (entries.reverse.map Prod.fst).Nodup := by
    rw [List.map_reverse]
    exact (List.reverse_perm _).nodup_iff.mpr distinct
  rw [mem_ofList_of_nodup backwards, mem_ofList_of_nodup distinct, List.mem_reverse]

theorem find?_of_filter (test : String → Bool) {key : String} {value : α}
    (h : d.entries.filter (fun e => test e.1) = [(key, value)]) : d.find? test = some value := by
  rw [find?, ← List.head?_filter, h]
  rfl

end Dictionary

end RequestBus
