import Mathlib.Data.List.Nodup
import RequestBus.Dispatch.Registry

namespace RequestBus

theorem mem_of_oldest? {entries : List InFlight} {e : InFlight}
    (h : InFlight.oldest? entries = some e) : e ∈ entries := by
  induction entries generalizing e with
  | nil => contradiction
  | cons head rest ih =>
    unfold InFlight.oldest? at h
    split at h
    · rename_i m hm
      split at h
      · cases h
        exact List.mem_cons_of_mem _ (ih hm)
      · cases h
        exact List.mem_cons_self
    · cases h
      exact List.mem_cons_self

namespace Registry

def ids (r : Registry) : List String := r.entries.map InFlight.id

theorem contains_iff (r : Registry) (id : String) : r.contains id = true ↔ id ∈ r.ids := by
  simp [contains, ids]

theorem contains_eq_false_iff (r : Registry) (id : String) :
    r.contains id = false ↔ id ∉ r.ids := by
  rw [← contains_iff, Bool.not_eq_true]

theorem size_eq_length_ids (r : Registry) : r.size = r.ids.length := by
  simp [size, ids]

@[simp] theorem ids_release (r : Registry) (id : String) :
    (r.release id).ids = r.ids.filter fun other => other != id := by
  simp [release, ids, List.filter_map, Function.comp_def]

@[simp] theorem capacity_release (r : Registry) (id : String) :
    (r.release id).capacity = r.capacity := rfl

theorem ids_accept_again {r : Registry} {id : String} (h : r.contains id = true) :
    (r.accept id).2.ids = r.ids := by
  simp only [accept, h, if_true, ids, List.map_map]
  refine List.map_congr_left fun e _ => ?_
  simp only [Function.comp_apply]
  split <;> rfl

theorem ids_accept_new {r : Registry} {id : String} (h : r.contains id = false) :
    (r.accept id).2.ids = (r.makeRoom id).ids ++ [id] := by
  simp [accept, h, ids]

theorem accept_fst (r : Registry) (id : String) : (r.accept id).1 = !r.contains id := by
  unfold accept
  cases r.contains id <;> rfl

@[simp] theorem capacity_makeRoom (r : Registry) (id : String) :
    (r.makeRoom id).capacity = r.capacity := by
  unfold makeRoom
  split <;> rfl

@[simp] theorem capacity_accept (r : Registry) (id : String) :
    (r.accept id).2.capacity = r.capacity := by
  unfold accept
  split
  · rfl
  · exact capacity_makeRoom r id

theorem ids_makeRoom (r : Registry) (id : String) :
    (r.makeRoom id).ids = r.ids.filter fun other => r.evicted? id ≠ some other := by
  unfold makeRoom
  cases r.evicted? id with
  | none => simp
  | some victim =>
    rw [ids_release]
    refine List.filter_congr fun other _ => ?_
    by_cases same : other = victim
    · simp [same]
    · simp [same, Ne.symm same]

theorem evicted?_of_room {r : Registry} (id : String) (h : r.size < r.capacity) :
    r.evicted? id = none := by
  simp [evicted?, h]

theorem evicted?_of_full {r : Registry} {id : String} (absent : r.contains id = false)
    (full : r.capacity ≤ r.size) :
    r.evicted? id = (InFlight.oldest? r.entries).map InFlight.id := by
  simp [evicted?, absent, Nat.not_lt.mpr full]

theorem nodup_accept {r : Registry} (h : r.ids.Nodup) (id : String) :
    (r.accept id).2.ids.Nodup := by
  cases seen : r.contains id with
  | true => rwa [ids_accept_again seen]
  | false =>
    rw [ids_accept_new seen, ids_makeRoom]
    refine List.nodup_append.mpr ⟨h.filter _, List.nodup_singleton id, ?_⟩
    intro other hother new hnew same
    rw [List.mem_singleton.mp hnew] at same
    subst same
    exact (contains_eq_false_iff r other).mp seen (List.mem_filter.mp hother).1

end Registry

end RequestBus
