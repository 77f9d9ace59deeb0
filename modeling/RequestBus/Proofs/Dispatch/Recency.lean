import Mathlib.Algebra.Group.Nat.Defs
import RequestBus.Proofs.Dispatch.InFlight
import RequestBus.Proofs.Dispatch.Slots

namespace RequestBus

/-- Ids, the one that has gone unseen for longest first. -/
structure Recency where
  capacity : Nat
  ids : List String := []

inductive Registry.Call where
  | accept (id : String)
  | release (id : String)
  | drop (guard : Guard)

def Registry.Call.accepts : Registry.Call → Bool
  | .accept _ => true
  | _ => false

namespace Recency

def accept (l : Recency) (id : String) : Bool × Recency :=
  if id ∈ l.ids then (false, { l with ids := l.ids.erase id ++ [id] })
  else
    let kept := if l.ids.length = l.capacity then l.ids.tail else l.ids
    (true, { l with ids := kept ++ [id] })

def release (l : Recency) (id : String) : Recency := { l with ids := l.ids.erase id }

def serve (l : Recency) : Registry.Call → List Bool × Recency
  | .accept id => ([(l.accept id).1], (l.accept id).2)
  | .release id => ([], l.release id)
  | .drop guard => ([], l.release guard.id)

def serveAll (l : Recency) : List Registry.Call → List Bool × Recency
  | [] => ([], l)
  | c :: calls =>
    let (answers, l) := l.serve c
    let (more, l) := l.serveAll calls
    (answers ++ more, l)

end Recency

namespace Registry

def serve (r : Registry) : Call → List Bool × Registry
  | .accept id => ([(r.accept id).1], (r.accept id).2)
  | .release id => ([], r.release id)
  | .drop guard => ([], guard.drop r)

/-- What a registry can answer to some calls, and what it can become. Its entries may stand in
another order whenever they are looked at. -/
inductive Serves : Registry → List Call → List Bool → Registry → Prop
  | done (r : Registry) : Serves r [] [] r
  | shuffle {r after : Registry} {calls : List Call} {answers : List Bool} (es : List InFlight)
      (order : es.Perm r.entries) (rest : Serves { r with entries := es } calls answers after) :
      Serves r calls answers after
  | call {r after : Registry} {calls : List Call} {answers : List Bool} (c : Call)
      (rest : Serves (r.serve c).2 calls answers after) :
      Serves r (c :: calls) ((r.serve c).1 ++ answers) after

theorem serves_total (r : Registry) (calls : List Call) :
    ∃ answers after, r.Serves calls answers after := by
  induction calls generalizing r with
  | nil => exact ⟨[], r, .done r⟩
  | cons c calls ih =>
    obtain ⟨answers, after, rest⟩ := ih (r.serve c).2
    exact ⟨_, after, .call c rest⟩

end Registry

theorem oldest?_le {entries : List InFlight} {e : InFlight}
    (h : InFlight.oldest? entries = some e) : ∀ f ∈ entries, e.stamp ≤ f.stamp := by
  induction entries generalizing e with
  | nil => contradiction
  | cons head rest ih =>
    unfold InFlight.oldest? at h
    split at h
    · rename_i m hm
      have least := ih hm
      split at h
      · rename_i earlier
        cases h
        exact List.forall_mem_cons.mpr ⟨UInt64.le_of_lt earlier, least⟩
      · rename_i later
        cases h
        refine List.forall_mem_cons.mpr ⟨UInt64.le_refl _, fun f hf => ?_⟩
        exact UInt64.le_trans (UInt64.not_lt.mp later) (least f hf)
    · rename_i none
      cases h
      cases rest with
      | nil => simp
      | cons next rest =>
        unfold InFlight.oldest? at none
        split at none
        · split at none <;> contradiction
        · contradiction

theorem exists_oldest? {entries : List InFlight} (h : entries ≠ []) :
    ∃ e, InFlight.oldest? entries = some e := by
  cases entries with
  | nil => contradiction
  | cons head rest =>
    unfold InFlight.oldest?
    split
    · split
      · exact ⟨_, rfl⟩
      · exact ⟨_, rfl⟩
    · exact ⟨_, rfl⟩

theorem oldest?_eq_of_lt {entries rest : List InFlight} {e : InFlight}
    (order : (e :: rest).Perm entries) (least : ∀ f ∈ rest, e.stamp < f.stamp) :
    InFlight.oldest? entries = some e := by
  have filled : entries ≠ [] := by
    rintro rfl
    exact List.not_perm_cons_nil order
  obtain ⟨m, hm⟩ := exists_oldest? filled
  have early : m.stamp ≤ e.stamp := oldest?_le hm e (order.mem_iff.mp List.mem_cons_self)
  rcases List.mem_cons.mp (order.mem_iff.mpr (mem_of_oldest? hm)) with rfl | later
  · exact hm
  · exact absurd early (UInt64.not_le.mpr (least m later))

theorem toNat_tick {clock : UInt64} (h : clock.toNat + 1 < 2 ^ 64) :
    (clock + 1).toNat = clock.toNat + 1 := by
  rw [UInt64.toNat_add, UInt64.toNat_one, Nat.mod_eq_of_lt h]

theorem refresh_perm {es : List InFlight} {e : InFlight} (distinct : (es.map InFlight.id).Nodup)
    (member : e ∈ es) (now : UInt64) :
    ((es.filter fun f => f.id != e.id) ++ [InFlight.mk e.id now]).Perm
      (es.map fun f : InFlight => if f.id = e.id then { f with stamp := now } else f) := by
  have others : (es.filter fun f => f.id != e.id).map
      (fun f : InFlight => if f.id = e.id then { f with stamp := now } else f) =
        es.filter fun f => f.id != e.id := by
    refine (List.map_congr_left fun f hf => ?_).trans (List.map_id _)
    exact if_neg (bne_iff_ne.mp (List.mem_filter.mp hf).2)
  apply List.Perm.trans _ ((perm_cons_filter InFlight.id es e distinct member).symm.map _)
  rw [List.map_cons, others, if_pos rfl]
  exact List.perm_append_comm

/-- In the order of their stamps, the entries of a registry are those of a list. -/
structure Ranks (l : Recency) (r : Registry) : Prop where
  capacity : r.capacity = l.capacity
  room : 0 < l.capacity
  bounded : l.ids.length ≤ l.capacity
  nodup : l.ids.Nodup
  ranked : ∃ es : List InFlight, es.Perm r.entries ∧ es.map InFlight.id = l.ids ∧
    es.Pairwise fun e f => e.stamp < f.stamp
  past : ∀ e ∈ r.entries, e.stamp ≤ r.clock

namespace Ranks

variable {l : Recency} {r : Registry}

theorem ofCapacity (n : Nat) : Ranks { capacity := max n 1 } (.ofCapacity n) := by
  constructor
  case room => exact Nat.le_max_right n 1
  case ranked => exact ⟨[], .nil, rfl, .nil⟩
  all_goals simp [Registry.ofCapacity]

theorem shuffle (h : Ranks l r) {es : List InFlight} (order : es.Perm r.entries) :
    Ranks l { r with entries := es } := by
  obtain ⟨ranks, perm, ids, increasing⟩ := h.ranked
  constructor
  case ranked => exact ⟨ranks, perm.trans order.symm, ids, increasing⟩
  case past => exact fun e he => h.past e (order.mem_iff.mp he)
  case capacity => exact h.capacity
  case room => exact h.room
  case bounded => exact h.bounded
  case nodup => exact h.nodup

theorem ids_perm (h : Ranks l r) : l.ids.Perm r.ids := by
  obtain ⟨es, perm, ids, _⟩ := h.ranked
  exact ids ▸ perm.map InFlight.id

theorem contains_iff (h : Ranks l r) (id : String) : r.contains id = true ↔ id ∈ l.ids := by
  rw [Registry.contains_iff, h.ids_perm.mem_iff]

theorem size (h : Ranks l r) : r.size = l.ids.length := by
  rw [Registry.size_eq_length_ids, h.ids_perm.length_eq]

theorem ids_ne_nil (h : Ranks l r) (full : l.ids.length = l.capacity) : l.ids ≠ [] := by
  intro none
  have room := h.room
  rw [← full, none] at room
  contradiction

theorem nodup_stamps (h : Ranks l r) : (r.entries.map InFlight.stamp).Nodup := by
  obtain ⟨es, perm, _, increasing⟩ := h.ranked
  apply (perm.map InFlight.stamp).nodup_iff.mp
  apply List.pairwise_map.mpr
  apply increasing.imp
  intro e f earlier same
  exact UInt64.lt_irrefl _ (same ▸ earlier)

theorem evicted?_eq (h : Ranks l r) (id : String) : r.evicted? id =
    if id ∉ l.ids ∧ l.ids.length = l.capacity then l.ids.head? else none := by
  have bounded := h.bounded
  simp only [Registry.evicted?, h.contains_iff, h.size, h.capacity]
  by_cases full : id ∉ l.ids ∧ l.ids.length = l.capacity
  · have crowded : ¬ (id ∈ l.ids ∨ l.ids.length < l.capacity) := by
      rintro (seen | short)
      · exact full.1 seen
      · omega
    rw [if_pos full, if_neg crowded]
    obtain ⟨es, perm, ids, increasing⟩ := h.ranked
    cases es with
    | nil => exact absurd ids.symm (h.ids_ne_nil full.2)
    | cons e rest =>
      rw [oldest?_eq_of_lt perm (List.pairwise_cons.mp increasing).1, ← ids]
      rfl
  · have vacant : id ∈ l.ids ∨ l.ids.length < l.capacity := by
      by_contra crowded
      rw [not_or] at crowded
      exact full ⟨crowded.1, by omega⟩
    rw [if_neg full, if_pos vacant]

theorem release (h : Ranks l r) (id : String) : Ranks (l.release id) (r.release id) := by
  obtain ⟨es, perm, ids, increasing⟩ := h.ranked
  constructor
  case capacity => exact h.capacity
  case room => exact h.room
  case bounded => exact Nat.le_trans List.length_erase_le h.bounded
  case nodup => exact h.nodup.erase id
  case past => exact fun e he => h.past e (List.mem_filter.mp he).1
  case ranked =>
    refine ⟨es.filter fun e => e.id != id, perm.filter _, ?_, increasing.filter _⟩
    rw [Recency.release, h.nodup.erase_eq_filter, ← ids, List.filter_map]
    rfl

theorem append (h : Ranks l r) (few : r.clock.toNat + 1 < 2 ^ 64) {es kept : List InFlight}
    (perm : es.Perm r.entries) (increasing : es.Pairwise fun e f => e.stamp < f.stamp)
    (part : kept.Sublist es) (short : kept.length < l.capacity) {id : String}
    (fresh : id ∉ kept.map InFlight.id) {after : Registry} (capacity : after.capacity = r.capacity)
    (clock : after.clock = r.clock + 1)
    (order : (kept ++ [InFlight.mk id (r.clock + 1)]).Perm after.entries) :
    Ranks { l with ids := kept.map InFlight.id ++ [id] } after := by
  have past : ∀ e ∈ kept, e.stamp < r.clock + 1 := by
    intro e he
    have early := UInt64.le_iff_toNat_le.mp (h.past e (perm.mem_iff.mp (part.subset he)))
    rw [UInt64.lt_iff_toNat_lt, toNat_tick few]
    omega
  have nodup : (kept.map InFlight.id).Nodup := by
    apply List.Nodup.sublist (part.map InFlight.id)
    exact (perm.map InFlight.id).nodup_iff.mpr (h.ids_perm.nodup_iff.mp h.nodup)
  constructor
  case capacity => exact capacity.trans h.capacity
  case room => exact h.room
  case bounded =>
    simp only [List.length_append, List.length_map, List.length_singleton]
    omega
  case nodup =>
    apply nodup.append (List.nodup_singleton id)
    rw [List.disjoint_singleton]
    exact fresh
  case ranked =>
    refine ⟨_, order, by simp, List.pairwise_append.mpr ⟨increasing.sublist part, ?_, ?_⟩⟩
    · exact List.pairwise_singleton _ _
    · intro e he f hf
      rw [List.mem_singleton.mp hf]
      exact past e he
  case past =>
    intro e he
    rw [clock]
    rcases List.mem_append.mp (order.mem_iff.mpr he) with he | he
    · exact UInt64.le_of_lt (past e he)
    · rw [List.mem_singleton.mp he]
      exact UInt64.le_refl _

theorem accept_again (h : Ranks l r) (few : r.clock.toNat + 1 < 2 ^ 64) {id : String}
    (seen : id ∈ l.ids) : Ranks (l.accept id).2 (r.accept id).2 := by
  obtain ⟨es, perm, ids, increasing⟩ := h.ranked
  obtain ⟨e, member, rfl⟩ : ∃ e ∈ es, e.id = id := List.mem_map.mp (ids ▸ seen)
  have distinct : (es.map InFlight.id).Nodup := ids ▸ h.nodup
  have left : (es.filter fun f => f.id != e.id).map InFlight.id = l.ids.erase e.id := by
    rw [h.nodup.erase_eq_filter, ← ids, List.filter_map]
    rfl
  have accepted : (r.accept e.id).2 = { r with
      clock := r.clock + 1
      entries := r.entries.map fun f : InFlight =>
        if f.id = e.id then { f with stamp := r.clock + 1 } else f } := by
    simp [Registry.accept, (h.contains_iff e.id).mpr seen]
  rw [Recency.accept, if_pos seen, ← left, accepted]
  refine h.append few perm increasing List.filter_sublist ?_ ?_ rfl rfl
    ((refresh_perm distinct member _).trans (perm.map _))
  · have all := (perm_cons_filter InFlight.id es e distinct member).length_eq
    have bounded := h.bounded
    rw [← ids, List.length_map] at bounded
    simp only [List.length_cons] at all
    omega
  · simp

theorem makeRoom_perm (h : Ranks l r) {id : String} (absent : id ∉ l.ids) {es : List InFlight}
    (perm : es.Perm r.entries) (ids : es.map InFlight.id = l.ids)
    (increasing : es.Pairwise fun e f => e.stamp < f.stamp) :
    (if l.ids.length = l.capacity then es.tail else es).Perm (r.makeRoom id).entries := by
  unfold Registry.makeRoom
  rw [h.evicted?_eq]
  split
  · rename_i full
    rw [if_pos ⟨absent, full⟩]
    cases es with
    | nil => exact absurd ids.symm (h.ids_ne_nil full)
    | cons e rest =>
      have distinct : ((e :: rest).map InFlight.id).Nodup := ids ▸ h.nodup
      have others : rest = (e :: rest).filter fun f => f.id != e.id := by
        rw [List.filter_cons, if_neg (by simp)]
        refine (List.filter_eq_self.mpr fun f hf => bne_iff_ne.mpr fun same => ?_).symm
        exact (List.nodup_cons.mp distinct).1 (same ▸ List.mem_map_of_mem hf)
      rw [← ids]
      show rest.Perm _
      rw [others]
      exact perm.filter _
  · rename_i short
    rw [if_neg fun full => short full.2]
    exact perm

theorem accept_new (h : Ranks l r) (few : r.clock.toNat + 1 < 2 ^ 64) {id : String}
    (absent : id ∉ l.ids) : Ranks (l.accept id).2 (r.accept id).2 := by
  obtain ⟨es, perm, ids, increasing⟩ := h.ranked
  have bounded := h.bounded
  have room := h.room
  let kept := if l.ids.length = l.capacity then es.tail else es
  have part : kept.Sublist es := by
    unfold kept
    split
    · exact List.tail_sublist es
    · exact List.Sublist.refl es
  have left : kept.map InFlight.id =
      if l.ids.length = l.capacity then l.ids.tail else l.ids := by
    unfold kept
    split
    · rw [List.map_tail, ids]
    · exact ids
  have unseen : r.contains id = false :=
    Bool.eq_false_iff.mpr fun seen => absent ((h.contains_iff id).mp seen)
  have accepted : (r.accept id).2 = { r.makeRoom id with
      clock := r.clock + 1
      entries := (r.makeRoom id).entries ++ [⟨id, r.clock + 1⟩] } := by
    simp [Registry.accept, unseen]
  rw [Recency.accept, if_neg absent, accepted]
  show Ranks { l with ids := (if l.ids.length = l.capacity then l.ids.tail else l.ids) ++ [id] } _
  rw [← left]
  refine h.append few perm increasing part ?_ ?_ (Registry.capacity_makeRoom r id) rfl
    ((h.makeRoom_perm absent perm ids increasing).append_right _)
  · rw [← List.length_map (f := InFlight.id), left]
    split
    · rw [List.length_tail]
      omega
    · omega
  · intro member
    apply absent
    rw [← ids]
    exact (part.map InFlight.id).subset member

theorem accept_fst (h : Ranks l r) (id : String) : (r.accept id).1 = (l.accept id).1 := by
  rw [Registry.accept_fst, Recency.accept]
  split
  · rename_i seen
    rw [(h.contains_iff id).mpr seen]
    rfl
  · rename_i absent
    rw [Bool.eq_false_iff.mpr fun seen => absent ((h.contains_iff id).mp seen)]
    rfl

theorem clock_accept (few : r.clock.toNat + 1 < 2 ^ 64) (id : String) :
    (r.accept id).2.clock.toNat = r.clock.toNat + 1 := by
  rw [← toNat_tick few, Registry.accept]
  split <;> rfl

theorem serve (h : Ranks l r) (c : Registry.Call)
    (few : r.clock.toNat + (if c.accepts then 1 else 0) < 2 ^ 64) :
    (r.serve c).1 = (l.serve c).1 ∧ Ranks (l.serve c).2 (r.serve c).2 ∧
      (r.serve c).2.clock.toNat = r.clock.toNat + if c.accepts then 1 else 0 := by
  cases c with
  | accept id =>
    refine ⟨by simp only [Registry.serve, Recency.serve, h.accept_fst], ?_, clock_accept few id⟩
    by_cases seen : id ∈ l.ids
    · exact h.accept_again few seen
    · exact h.accept_new few seen
  | release id => exact ⟨rfl, h.release id, rfl⟩
  | drop guard => exact ⟨rfl, h.release guard.id, rfl⟩

theorem serves {calls : List Registry.Call} {answers : List Bool} {after : Registry}
    (run : r.Serves calls answers after) (h : Ranks l r)
    (few : r.clock.toNat + calls.countP Registry.Call.accepts < 2 ^ 64) :
    answers = (l.serveAll calls).1 ∧ Ranks (l.serveAll calls).2 after := by
  induction run generalizing l with
  | done r => exact ⟨rfl, h⟩
  | shuffle es order rest ih => exact ih (h.shuffle order) few
  | call c rest ih =>
    -- the clock counts the acceptances so far, so it wraps at none of those to come
    rw [List.countP_cons] at few
    obtain ⟨answer, ranks, clock⟩ := h.serve c (by omega)
    obtain ⟨more, last⟩ := ih ranks (by omega)
    exact ⟨by rw [answer, more]; rfl, last⟩

end Ranks

/-- All that can be asked of a registry is answered as by a list. Which entry makes room does not
depend on the order in which they are looked at. -/
structure Registry.ActsAs (r : Registry) (l : Recency) : Prop where
  nodup : l.ids.Nodup
  capacity : r.capacity = l.capacity
  bounded : r.size ≤ r.capacity
  contains : ∀ id, r.contains id = decide (id ∈ l.ids)
  entry : ∀ id, InFlight.id <$> r.entry? id = if id ∈ l.ids then some id else none
  size : r.size = l.ids.length
  isEmpty : r.isEmpty = l.ids.isEmpty
  stamps : (r.entries.map InFlight.stamp).Nodup
  victim : ∀ (es : List InFlight) (id : String), es.Perm r.entries →
    { r with entries := es }.evicted? id =
      if id ∉ l.ids ∧ l.ids.length = l.capacity then l.ids.head? else none

theorem Registry.entry?_id (r : Registry) (id : String) :
    InFlight.id <$> r.entry? id = if r.contains id then some id else none := by
  cases found : r.entry? id with
  | none =>
    have absent : r.contains id = false := by
      simpa [contains, entry?] using found
    rw [absent]
    rfl
  | some e =>
    have same : e.id = id := by simpa using List.find?_some found
    have seen : r.contains id = true :=
      List.any_eq_true.mpr ⟨e, List.mem_of_find?_eq_some found, by simp [same]⟩
    rw [seen, Option.map_eq_map, Option.map_some, same]
    rfl

theorem Ranks.actsAs {l : Recency} {r : Registry} (h : Ranks l r) : r.ActsAs l := by
  have contains (id : String) : r.contains id = decide (id ∈ l.ids) := by
    rw [Bool.eq_iff_iff, h.contains_iff, decide_eq_true_iff]
  constructor
  case nodup => exact h.nodup
  case capacity => exact h.capacity
  case bounded => rw [h.size, h.capacity]; exact h.bounded
  case contains => exact contains
  case entry =>
    intro id
    rw [Registry.entry?_id, contains]
    simp
  case size => exact h.size
  case isEmpty =>
    rw [Bool.eq_iff_iff, Registry.isEmpty, List.isEmpty_iff_length_eq_zero,
      List.isEmpty_iff_length_eq_zero, ← h.size, Registry.size]
  case stamps => exact h.nodup_stamps
  case victim => exact fun es id order => (h.shuffle order).evicted?_eq id

namespace Registry

/-- A registry that is asked to accept an id fewer than 2 ^ 64 times behaves like a list of ids in
the order of their last sighting, whatever the order in which it keeps its entries. -/
theorem behaves_as_recency (n : Nat) (calls : List Call)
    (few : calls.countP Call.accepts < 2 ^ 64) :
    (∃ answers r, (ofCapacity n).Serves calls answers r) ∧
    ∀ answers r, (ofCapacity n).Serves calls answers r →
      answers = (Recency.serveAll { capacity := max n 1 } calls).1 ∧
      r.ActsAs (Recency.serveAll { capacity := max n 1 } calls).2 := by
  refine ⟨serves_total _ calls, ?_⟩
  intro answers r run
  have start : (ofCapacity n).clock.toNat = 0 := rfl
  obtain ⟨same, ranks⟩ := Ranks.serves run (Ranks.ofCapacity n) (by omega)
  exact ⟨same, ranks.actsAs⟩

/-- An id that is seen again stays, and the one that came after it makes room. -/
theorem behaves_as_recency_of_two :
    let calls : List Call := [.accept "a", .accept "b", .accept "a", .accept "c", .drop ⟨"a"⟩]
    calls.countP Call.accepts < 2 ^ 64 ∧
    ∀ answers r, (ofCapacity 2).Serves calls answers r →
      answers = [true, true, false, true] ∧ r.contains "b" = false ∧ r.contains "c" = true ∧
        r.size = 1 := by
  intro calls
  have few : calls.countP Call.accepts < 2 ^ 64 := by decide
  refine ⟨few, ?_⟩
  intro answers r run
  obtain ⟨same, acts⟩ := (behaves_as_recency 2 calls few).2 answers r run
  exact ⟨same, acts.contains "b", acts.contains "c", acts.size⟩

end Registry

end RequestBus
