import Mathlib.Data.List.Induction
import RequestBus.Connection.Panel
import RequestBus.Proofs.Supervisor.Restarts

namespace RequestBus

def latest (told : α → Option β) (items : List α) : Option β := (items.filterMap told).getLast?

theorem latest_concat (told : α → Option β) (items : List α) (x : α) :
    latest told (items ++ [x]) = (told x).or (latest told items) := by
  unfold latest
  cases last : told x <;> simp [last]

theorem isSome_latest {told : α → Option β} {items : List α} :
    (latest told items).isSome ↔ ∃ x ∈ items, (told x).isSome := by
  rw [latest, List.getLast?_isSome, Ne, List.filterMap_eq_nil_iff]
  simp [Option.isSome_iff_ne_none]

namespace Mark

def status? : Mark → Option String
  | .ok => some "ok"
  | .error _ => some "error"
  | .status text => some text
  | .restart | .detail _ => none

def isOk : Mark → Bool
  | .ok => true
  | _ => false

def error? : Mark → Option String
  | .error text => some text
  | _ => none

def detail? : Mark → Option Json.Value
  | .detail value => some value
  | _ => none

end Mark

namespace Component

/-- An entry says all that there is to say about some marks, each of which has its moment. -/
structure Reflects (c : Component) (marks : List (String × Mark)) : Prop where
  updatedAt : ∀ last ∈ marks.getLast?, c.updatedAt = last.1
  status : c.status = (latest (fun r => r.2.status?) marks).getD "starting"
  lastOk : c.lastOk = latest (fun r => if r.2.isOk then some r.1 else none) marks
  lastError : c.lastError = latest (fun r => r.2.error?) marks
  restarts : c.restarts.toNat = min (marks.countP fun r => r.2.isRestart) (UInt64.size - 1)
  detail : c.detail = (latest (fun r => r.2.detail?) marks).getD .null

theorem reflects_new (now : String) : Reflects { updatedAt := now } [] where
  updatedAt := nofun
  status := rfl
  lastOk := rfl
  lastError := rfl
  restarts := rfl
  detail := rfl

theorem Reflects.mark {c : Component} {marks : List (String × Mark)} (reflects : c.Reflects marks)
    (now : String) (m : Mark) : (c.mark now m).Reflects (marks ++ [(now, m)]) where
  updatedAt := by
    intro last final
    rw [List.getLast?_concat, Option.mem_some_iff] at final
    subst final
    cases m <;> rfl
  status := by
    rw [latest_concat]
    cases m <;> simp [Component.mark, Mark.status?, reflects.status]
  lastOk := by
    rw [latest_concat]
    cases m <;> simp [Component.mark, Mark.isOk, reflects.lastOk]
  lastError := by
    rw [latest_concat]
    cases m <;> simp [Component.mark, Mark.error?, reflects.lastError]
  restarts := by
    rw [Health.toNat_restarts_mark, reflects.restarts, List.countP_append, List.countP_singleton]
    dsimp only
    omega
  detail := by
    rw [latest_concat]
    cases m <;> simp [Component.mark, Mark.detail?, reflects.detail]

end Component

/-- What is on record about a component that was given some marks. -/
inductive Records : Option Component → List (String × Mark) → Prop
  | nothing : Records none []
  | entry {c : Component} {marks : List (String × Mark)} (given : marks ≠ [])
      (reflects : c.Reflects marks) : Records (some c) marks

namespace Records

variable {entry : Option Component} {marks : List (String × Mark)}

theorem mark (records : Records entry marks) (now : String) (m : Mark) :
    Records (some ((entry.getD { updatedAt := now }).mark now m)) (marks ++ [(now, m)]) := by
  refine .entry (by simp) ?_
  cases records with
  | nothing => exact (Component.reflects_new now).mark now m
  | entry _ reflects => exact reflects.mark now m

theorem isSome_iff (records : Records entry marks) : entry.isSome ↔ marks ≠ [] := by
  cases records with
  | nothing => simp
  | entry given _ => simp [given]

theorem reflects {c : Component} (records : Records (some c) marks) : c.Reflects marks := by
  cases records with
  | entry _ reflects => exact reflects

end Records

namespace Panel

namespace Operation

def now : Operation → String
  | .mark now _ _ => now
  | .set now _ _ => now

def name : Operation → String
  | .mark _ name _ => name
  | .set _ cell _ => cell.name

/-- What an operation reports while the cells are in some states. Setting a cell to the state that
it is in is no news. -/
def report? (states : StateCell → ConnectionState) : Operation → Option Mark
  | .mark _ _ m => some m
  | .set _ cell next => if states cell = next then none else some (.status next.name)

def setting? (cell : StateCell) : Operation → Option ConnectionState
  | .mark .. => none
  | .set _ other next => if cell = other then some next else none

end Operation

open Operation

variable {p q : Panel} {op : Operation} {name : String}

theorem states_step (p : Panel) (op : Operation) (cell : StateCell) :
    (p.step op).states cell = (op.setting? cell).getD (p.states cell) := by
  cases op with
  | mark now name m => rfl
  | set now other next =>
    simp only [step, setting?]
    split <;> rfl

theorem health_step (p : Panel) (op : Operation) :
    (p.step op).health =
      (op.report? p.states).elim p.health fun m => p.health.mark op.now op.name m := by
  cases op with
  | mark now name m => rfl
  | set now cell next =>
    simp only [step, report?, Mark.ofChange]
    split <;> rfl

theorem get?_health_step (p : Panel) (op : Operation) (name : String) :
    (p.step op).health.get? name =
      if name = op.name then
        (op.report? p.states).elim (p.health.get? name) fun m =>
          some (((p.health.get? name).getD { updatedAt := op.now }).mark op.now m)
      else p.health.get? name := by
  rw [health_step]
  cases op.report? p.states with
  | none => simp
  | some m =>
    rw [Option.elim_some, Option.elim_some, Health.mark, Dictionary.get?_insert]
    split
    · rename_i same
      rw [same]
    · rfl

theorem setting?_of_ne {cell : StateCell} (other : cell.name ≠ op.name) :
    op.setting? cell = none := by
  cases op with
  | mark now name m => rfl
  | set now changed next => exact if_neg fun same => other (congrArg StateCell.name same)

structure SameUnder (name : String) (p q : Panel) : Prop where
  entry : p.health.get? name = q.health.get? name
  states : ∀ cell : StateCell, cell.name = name → p.states cell = q.states cell

namespace SameUnder

theorem symm (same : SameUnder name p q) : SameUnder name q p :=
  ⟨same.entry.symm, fun cell under => (same.states cell under).symm⟩

theorem trans {r : Panel} (first : SameUnder name p q) (second : SameUnder name q r) :
    SameUnder name p r :=
  ⟨first.entry.trans second.entry,
    fun cell under => (first.states cell under).trans (second.states cell under)⟩

theorem eq (same : ∀ name, SameUnder name p q) : p = q :=
  Panel.ext (funext fun cell => (same cell.name).states cell rfl)
    (Dictionary.ext_get? fun name => (same name).entry)

theorem step_other (p : Panel) (other : name ≠ op.name) : SameUnder name (p.step op) p where
  entry := by rw [get?_health_step, if_neg other]
  states := by
    rintro cell rfl
    rw [states_step, setting?_of_ne other, Option.getD_none]

theorem report?_eq (same : SameUnder op.name p q) : op.report? p.states = op.report? q.states := by
  cases op with
  | mark now name m => rfl
  | set now cell next => rw [report?, report?, same.states cell rfl]

theorem step (same : SameUnder name p q) (op : Operation) :
    SameUnder name (p.step op) (q.step op) where
  entry := by
    rw [get?_health_step, get?_health_step, same.entry]
    split
    · rename_i own
      subst own
      rw [same.report?_eq]
    · rfl
  states := by
    intro cell under
    rw [states_step, states_step, same.states cell under]

theorem run (same : SameUnder name p q) (ops : List Operation) :
    SameUnder name (p.run ops) (q.run ops) := by
  induction ops generalizing p q with
  | nil => exact same
  | cons op ops ih => exact ih (same.step op)

theorem run_filter (p : Panel) (ops : List Operation) (name : String) :
    SameUnder name (p.run ops) (p.run (ops.filter fun op => op.name == name)) := by
  induction ops generalizing p with
  | nil => exact ⟨rfl, fun _ _ => rfl⟩
  | cons op ops ih =>
    by_cases own : op.name = name
    · rw [List.filter_cons_of_pos (by simpa using own)]
      exact ih (p.step op)
    · rw [List.filter_cons_of_neg (by simpa using own)]
      exact ((step_other p (Ne.symm own)).run ops).trans (ih p)

end SameUnder

theorem step_comm (p : Panel) {a b : Operation} (apart : a.name ≠ b.name) :
    (p.step a).step b = (p.step b).step a := by
  refine SameUnder.eq fun name => ?_
  by_cases first : name = a.name
  · have other : name ≠ b.name := fun second => apart (first.symm.trans second)
    exact (SameUnder.step_other _ other).trans ((SameUnder.step_other p other).symm.step a)
  · exact ((SameUnder.step_other p first).step b).trans (SameUnder.step_other _ first).symm

def statesAfter (ops : List Operation) (cell : StateCell) : ConnectionState :=
  (latest (setting? cell) ops).getD .disconnected

/-- What an operation reports under a name, after others. -/
def Operation.markUnder? (name : String) (before : List Operation) (op : Operation) :
    Option (String × Mark) :=
  if op.name = name then (op.report? (statesAfter before)).map fun m => (op.now, m) else none

def marksUnder (name : String) (ops : List Operation) : List (String × Mark) :=
  ops.zipIdx.filterMap fun e => e.1.markUnder? name (ops.take e.2)

theorem marksUnder_concat (name : String) (ops : List Operation) (op : Operation) :
    marksUnder name (ops ++ [op]) = marksUnder name ops ++ (op.markUnder? name ops).toList := by
  have earlier : (ops.zipIdx.filterMap fun e => e.1.markUnder? name ((ops ++ [op]).take e.2)) =
      marksUnder name ops := by
    refine List.filterMap_congr fun e member => ?_
    have below := List.snd_lt_of_mem_zipIdx member
    rw [List.take_append_of_le_length (by omega)]
  have last : (([op].zipIdx (0 + ops.length)).filterMap fun e =>
      e.1.markUnder? name ((ops ++ [op]).take e.2)) = (op.markUnder? name ops).toList := by
    rw [Nat.zero_add, List.zipIdx_singleton]
    cases told : op.markUnder? name ops <;> simp [told]
  rw [marksUnder, List.zipIdx_append, List.filterMap_append, earlier, last]

theorem isSome_markUnder? {before : List Operation} :
    (op.markUnder? name before).isSome ↔
      op.name = name ∧ (op.report? (statesAfter before)).isSome := by
  unfold markUnder?
  split
  · rename_i own
    simp [own]
  · rename_i other
    simp [other]

theorem marksUnder_ne_nil {ops : List Operation} :
    marksUnder name ops ≠ [] ↔ ∃ before op after, ops = before ++ op :: after ∧ op.name = name ∧
      (op.report? (statesAfter before)).isSome := by
  constructor
  · intro given
    obtain ⟨e, there, told⟩ : ∃ e ∈ ops.zipIdx, e.1.markUnder? name (ops.take e.2) ≠ none := by
      simpa [marksUnder] using given
    obtain ⟨below, here⟩ := List.getElem?_eq_some_iff.mp (List.mem_zipIdx_iff_getElem?.mp there)
    refine ⟨ops.take e.2, e.1, ops.drop (e.2 + 1), ?_, ?_⟩
    · rw [← here, List.getElem_cons_drop, List.take_append_drop]
    · exact isSome_markUnder?.mp (Option.isSome_iff_ne_none.mpr told)
  · rintro ⟨before, op, after, rfl, writes⟩ empty
    have there : (op, before.length) ∈ (before ++ op :: after).zipIdx :=
      List.mem_zipIdx_iff_getElem?.mpr (by simp)
    have silent := List.filterMap_eq_nil_iff.mp empty _ there
    rw [List.take_left] at silent
    exact Option.isSome_iff_ne_none.mp (isSome_markUnder?.mpr writes) silent

theorem marksUnder_prefix (name : String) (ops more : List Operation) :
    marksUnder name ops <+: marksUnder name (ops ++ more) := by
  induction more using List.reverseRecOn with
  | nil => rw [List.append_nil]
  | append_singleton more op ih =>
    rw [← List.append_assoc, marksUnder_concat]
    exact ih.trans (List.prefix_append _ _)

theorem run_concat (p : Panel) (ops : List Operation) (op : Operation) :
    p.run (ops ++ [op]) = (p.run ops).step op := List.foldl_concat ..

theorem states_run (ops : List Operation) : (fresh.run ops).states = statesAfter ops := by
  induction ops using List.reverseRecOn with
  | nil => rfl
  | append_singleton ops op ih =>
    funext cell
    rw [run_concat, states_step, ih, statesAfter, statesAfter, latest_concat]
    cases op.setting? cell <;> rfl

theorem records_run (ops : List Operation) (name : String) :
    Records ((fresh.run ops).health.get? name) (marksUnder name ops) := by
  induction ops using List.reverseRecOn with
  | nil => exact .nothing
  | append_singleton ops op ih =>
    -- What setting a cell reports depends on its state, which the operations before it tell.
    rw [run_concat, get?_health_step, marksUnder_concat, markUnder?, states_run]
    by_cases own : op.name = name
    · rw [if_pos own.symm, if_pos own]
      cases op.report? (statesAfter ops) with
      | none => simpa using ih
      | some m => exact ih.mark op.now m
    · rw [if_neg (Ne.symm own), if_neg own]
      simpa using ih

theorem error_stays {ops more : List Operation} {c : Component}
    (before : (fresh.run ops).health.get? name = some c) :
    ∃ later, (fresh.run (ops ++ more)).health.get? name = some later ∧
      (c.lastError.isSome → later.lastError.isSome) := by
  have first := records_run ops name
  have second := records_run (ops ++ more) name
  have kept := marksUnder_prefix name ops more
  rw [before] at first
  have given := first.isSome_iff.mp rfl
  obtain ⟨later, found⟩ := Option.isSome_iff_exists.mp
    (second.isSome_iff.mpr fun empty => given (List.prefix_nil.mp (empty ▸ kept)))
  rw [found] at second
  refine ⟨later, found, fun error => ?_⟩
  rw [first.reflects.lastError, isSome_latest] at error
  rw [second.reflects.lastError, isSome_latest]
  obtain ⟨r, there, told⟩ := error
  exact ⟨r, kept.subset there, told⟩

/-- The health of the program after any operations. A component has an entry exactly if something
was reported under its name. The entry says what was reported there, whatever was done under other
names and wherever in between. -/
theorem entries_reflect_history (ops : List Operation) (name : String) :
    let entry (ops : List Operation) := (fresh.run ops).health.get? name
    ((entry ops).isSome ↔ ∃ before op after, ops = before ++ op :: after ∧ op.name = name ∧
      (op.report? (statesAfter before)).isSome) ∧
    (∀ c, entry ops = some c → c.Reflects (marksUnder name ops)) ∧
    (∀ others : List Operation, (others.filter fun op => op.name == name) =
      (ops.filter fun op => op.name == name) → entry others = entry ops) ∧
    (∀ (p : Panel) (a b : Operation), a.name ≠ b.name → (p.step a).step b = (p.step b).step a) ∧
    ∀ more c, entry ops = some c → ∃ later, entry (ops ++ more) = some later ∧
      (c.lastError.isSome → later.lastError.isSome) := by
  intro entry
  have records := records_run ops name
  refine ⟨records.isSome_iff.trans marksUnder_ne_nil, fun c found => ?_, fun others same => ?_,
    fun p a b apart => step_comm p apart, fun more c found => error_stays found⟩
  · exact (found ▸ records : Records (some c) _).reflects
  · have own := (SameUnder.run_filter fresh ops name).entry
    have other := (SameUnder.run_filter fresh others name).entry
    exact other.trans (same ▸ own.symm)

/-- Two cells of one name, each of which is once set to the state that it is in. -/
theorem entries_reflect_history_of_pair :
    let ops : List Operation :=
      [.set "1" ⟨"amqp", 0⟩ .connecting, .mark "2" "amqp" (.error "refused"), .mark "3" "mqtt" .ok,
        .set "4" ⟨"amqp", 0⟩ .connecting, .mark "5" "amqp" .restart, .mark "6" "mqtt" .restart,
        .set "7" ⟨"amqp", 1⟩ .disconnected, .set "8" ⟨"amqp", 1⟩ .subscribed,
        .mark "9" "amqp" (.detail (.flag true))]
    let marks : List (String × Mark) :=
      [("1", .status "connecting"), ("2", .error "refused"), ("5", .restart),
        ("8", .status "subscribed"), ("9", .detail (.flag true))]
    let c : Component :=
      { status := "subscribed", updatedAt := "9", lastError := some "refused", restarts := 1,
        detail := .flag true }
    let others := ops.filter fun op => op.name == "amqp"
    let a : Operation := .set "10" ⟨"amqp", 0⟩ .subscribed
    let b : Operation := .mark "11" "mqtt" (.error "lost")
    (fresh.run ops).health.get? "amqp" = some c ∧ marksUnder "amqp" ops = marks ∧
    c.Reflects marks ∧ (others.filter fun op => op.name == "amqp") = others ∧
    (fresh.run others).health.get? "amqp" = some c ∧ a.name ≠ b.name ∧
    ((fresh.run ops).step a).step b = ((fresh.run ops).step b).step a ∧
    ∃ later, (fresh.run (ops ++ [.mark "12" "amqp" .ok])).health.get? "amqp" = some later ∧
      later.lastError.isSome := by
  intro ops marks c others a b
  have found : (fresh.run ops).health.get? "amqp" = some c := rfl
  obtain ⟨_, reflects, own, swap, stays⟩ := entries_reflect_history ops "amqp"
  obtain ⟨later, there, error⟩ := stays [.mark "12" "amqp" .ok] c found
  exact ⟨found, rfl, reflects c found, rfl, own others rfl, by decide, swap _ a b (by decide),
    later, there, error rfl⟩

end Panel

end RequestBus
