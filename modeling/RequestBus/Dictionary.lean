/-! Dictionaries keyed by text. The entries stand in ascending order of their keys, each key
once, so two dictionaries with the same entries are equal. Text is ordered by code points,
which is also the order of the encoded bytes. -/
namespace RequestBus

/-- Puts an entry into an ascending list of entries, in place of one with the same key. -/
def insertEntry (key : String) (value : α) : List (String × α) → List (String × α)
  | [] => [(key, value)]
  | (k, v) :: rest =>
    if key < k then (key, value) :: (k, v) :: rest
    else if key = k then (key, value) :: rest
    else (k, v) :: insertEntry key value rest

def Ascending (entries : List (String × α)) : Prop :=
  entries.Pairwise fun a b => a.1 < b.1

theorem key_lt_or_eq_or_gt (a b : String) : a < b ∨ a = b ∨ b < a := by
  by_cases h : a < b
  · exact .inl h
  · by_cases e : b < a
    · exact .inr (.inr e)
    · exact .inr (.inl (String.le_antisymm (String.not_lt.mp e) (String.not_lt.mp h)))

theorem mem_insertEntry (key : String) (value : α) (entries : List (String × α))
    (e : String × α) (h : e ∈ insertEntry key value entries) :
    e = (key, value) ∨ e ∈ entries := by
  induction entries with
  | nil => simpa [insertEntry] using h
  | cons head rest ih =>
    obtain ⟨k, v⟩ := head
    simp only [insertEntry] at h
    split at h
    · simpa using h
    · split at h
      · rcases List.mem_cons.mp h with h | h
        · exact .inl h
        · exact .inr (List.mem_cons_of_mem _ h)
      · rcases List.mem_cons.mp h with h | h
        · exact .inr (h ▸ List.mem_cons_self)
        · exact (ih h).imp id fun h => List.mem_cons_of_mem _ h

theorem ascending_insertEntry (key : String) (value : α) (entries : List (String × α))
    (h : Ascending entries) : Ascending (insertEntry key value entries) := by
  induction entries with
  | nil => simp [insertEntry, Ascending]
  | cons head rest ih =>
    obtain ⟨k, v⟩ := head
    obtain ⟨first, tail⟩ := List.pairwise_cons.mp h
    simp only [insertEntry]
    split
    · rename_i below
      refine List.pairwise_cons.mpr ⟨?_, h⟩
      intro e he
      rcases List.mem_cons.mp he with he | he
      · exact he ▸ below
      · exact String.lt_trans below (first e he)
    · split
      · rename_i same
        subst same
        exact List.pairwise_cons.mpr ⟨first, tail⟩
      · rename_i notBelow different
        refine List.pairwise_cons.mpr ⟨?_, ih tail⟩
        intro e he
        rcases mem_insertEntry key value rest e he with he | he
        · subst he
          rcases key_lt_or_eq_or_gt key k with h | h | h
          · exact absurd h notBelow
          · exact absurd h different
          · exact h
        · exact first e he

structure Dictionary (α : Type) where
  entries : List (String × α)
  ascending : Ascending entries

namespace Dictionary

theorem ext {d e : Dictionary α} (h : d.entries = e.entries) : d = e := by
  cases d; cases e; cases h; rfl

instance [DecidableEq α] : DecidableEq (Dictionary α) := fun d e =>
  if h : d.entries = e.entries then .isTrue (ext h) else .isFalse fun same => h (same ▸ rfl)

def empty : Dictionary α := ⟨[], List.Pairwise.nil⟩

instance : Inhabited (Dictionary α) := ⟨empty⟩

def insert (d : Dictionary α) (key : String) (value : α) : Dictionary α :=
  ⟨insertEntry key value d.entries, ascending_insertEntry key value d.entries d.ascending⟩

/-- The dictionary of some entries; of two with the same key the later one counts. -/
def ofList (entries : List (String × α)) : Dictionary α :=
  entries.foldl (fun d e => d.insert e.1 e.2) empty

def find? (d : Dictionary α) (test : String → Bool) : Option α :=
  (d.entries.find? fun e => test e.1).map (·.2)

def get? (d : Dictionary α) (key : String) : Option α := d.find? (· == key)

def filter (d : Dictionary α) (test : String × α → Bool) : Dictionary α :=
  ⟨d.entries.filter test, d.ascending.sublist List.filter_sublist⟩

theorem ascending_filterMap (f : α → Option β) (entries : List (String × α))
    (h : Ascending entries) :
    Ascending (entries.filterMap fun e => (f e.2).map fun v => (e.1, v)) := by
  refine h.filterMap _ ?_
  intro a b hab c hc e he
  obtain ⟨_, _, rfl⟩ := Option.map_eq_some_iff.mp hc
  obtain ⟨_, _, rfl⟩ := Option.map_eq_some_iff.mp he
  exact hab

def filterMap (d : Dictionary α) (f : α → Option β) : Dictionary β :=
  ⟨d.entries.filterMap fun e => (f e.2).map fun v => (e.1, v),
    ascending_filterMap f d.entries d.ascending⟩

end Dictionary

end RequestBus
