import RequestBus.Proofs.Dispatch.Changes

namespace RequestBus

structure Post where
  name : String
  route : ReplyRoute
  workers : Nat

namespace World

/-- Dispatchers to which nothing has happened yet, and the registry that they share. -/
def start (registry : Registry) (posts : List Post) : World :=
  .ofDispatchers registry (posts.map fun p => Dispatcher.new p.name p.route p.workers)

/-- Every handler of a run gives back a reply that `fits` its request. -/
def AllAnswer (fits : Request → Response → Prop) : World → List Event → Prop
  | _, [] => True
  | w, e :: events => w.Answers fits e ∧ (w.step e).AllAnswer fits events

variable {fits : Request → Response → Prop} {w : World}

instance decidableAnswers [∀ request reply, Decidable (fits request reply)] (w : World) :
    ∀ e, Decidable (w.Answers fits e)
  | .finish i ticket (some reply) =>
    decidable_of_iff (∀ request ∈ w.dispatchers[i]?.bind fun d =>
        (d.pool.task? ticket).bind fun t => t.job.request.toOption, fits request reply) (by
      constructor
      · intro all d t here found request readable
        exact all request (by simp [here, found, readable, Except.toOption])
      · intro all request member
        obtain ⟨d, here, member⟩ := Option.bind_eq_some_iff.mp member
        obtain ⟨t, found, member⟩ := Option.bind_eq_some_iff.mp member
        refine all d t here found request ?_
        cases readable : t.job.request with
        | ok same =>
          rw [readable] at member
          exact congrArg Except.ok (Option.some.inj member)
        | error _ =>
          rw [readable] at member
          contradiction)
  | .finish _ _ none | .receive _ _ | .resume _ _ | .advance _ _ | .send _ _ | .setState _ _
  | .attach _ _ | .detach _ | .shutDown _ => isTrue trivial

instance decidableAllAnswer [∀ request reply, Decidable (fits request reply)] :
    ∀ (w : World) (events : List Event), Decidable (w.AllAnswer fits events)
  | _, [] => isTrue trivial
  | w, e :: events =>
    have := decidableAllAnswer (w.step e) events
    inferInstanceAs (Decidable (w.Answers fits e ∧ (w.step e).AllAnswer fits events))

theorem allAnswer_of_forall (any : ∀ request reply, fits request reply) (events : List Event) :
    w.AllAnswer fits events := by
  induction events generalizing w with
  | nil => trivial
  | cons e events ih =>
    refine ⟨?_, ih⟩
    unfold Answers
    split
    · intro _ _ _ _ request _
      exact any request _
    · trivial

theorem allAnswer_append {first second : List Event} : w.AllAnswer fits (first ++ second) ↔
    w.AllAnswer fits first ∧ (w.run first).AllAnswer fits second := by
  induction first generalizing w with
  | nil => exact ⟨fun answer => ⟨trivial, answer⟩, And.right⟩
  | cons e first ih => exact (and_congr_right fun _ => ih).trans and_assoc.symm

theorem dispatcher_start {registry : Registry} {posts : List Post} {i : Nat} {d : Dispatcher}
    (here : (start registry posts).dispatchers[i]? = some d) :
    ∃ p ∈ posts, d = Dispatcher.new p.name p.route p.workers := by
  obtain ⟨p, hp, same⟩ := List.mem_map.mp (List.mem_of_getElem? here)
  exact ⟨p, hp, same.symm⟩

theorem tidy_start (registry : Registry) (posts : List Post) :
    (start registry posts).Tidy fits where
  fresh := fun _ _ => rfl
  placed := by
    intro i d here t s placed
    obtain ⟨p, _, rfl⟩ := dispatcher_start here
    contradiction
  distinct := by
    intro i d here
    obtain ⟨p, _, rfl⟩ := dispatcher_start here
    exact List.nodup_nil
  prompt := by
    intro i d here
    obtain ⟨p, _, rfl⟩ := dispatcher_start here
    exact Pool.prompt_ofCapacity _ _
  located := fun _ early => absurd early (Nat.not_lt_zero _)

theorem run_induction (Inv : World → Prop)
    (keeps : ∀ w after, w.Tidy fits → Inv w → Change fits w after → Inv after)
    (tidy : w.Tidy fits) (inv : Inv w) (events : List Event) (answer : w.AllAnswer fits events) :
    (w.run events).Tidy fits ∧ Inv (w.run events) := by
  induction events generalizing w with
  | nil => exact ⟨tidy, inv⟩
  | cons e events ih =>
    have change := change_step tidy e answer.1
    exact ih (tidy_change tidy change) (keeps w _ tidy inv change) answer.2

theorem tidy_run (tidy : w.Tidy fits) (events : List Event) (answer : w.AllAnswer fits events) :
    (w.run events).Tidy fits :=
  (run_induction (fun _ => True) (fun _ _ _ _ _ => trivial) tidy trivial events answer).1

theorem Tidy.received_of_mem {t : Nat} {r : Record} (tidy : Tidy fits w) (happened : r ∈ w.trail t) :
    ∃ i m d s, .received t i m ∈ w.history ∧ w.dispatchers[i]? = some d ∧
      (s = .finished ∨ (t, s) ∈ d.sites) ∧
      Course fits (d.pool.isShutDown = true) d.route i t m s (w.trail t) := by
  obtain ⟨i, d, s, m, here, placed, course⟩ := tidy.located t (tidy.lt_issued_of_mem happened)
  have first := List.mem_of_getLast? course.getLast?
  exact ⟨i, m, d, s, (mem_trail.mp first).1, here, placed, course⟩

theorem Tidy.received_unique {i j t : Nat} {m n : Message} (tidy : Tidy fits w)
    (one : .received t i m ∈ w.history) (other : .received t j n ∈ w.history) :
    i = j ∧ m = n := by
  have first : .received t i m ∈ w.trail t := mem_trail.mpr ⟨one, rfl⟩
  obtain ⟨_, _, _, _, _, _, _, course⟩ := tidy.received_of_mem first
  obtain ⟨rfl, rfl⟩ := course.received_unique first
  exact course.received_unique (mem_trail.mpr ⟨other, rfl⟩)

theorem Tidy.site_of_received {i t : Nat} {m : Message} {d : Dispatcher} (tidy : Tidy fits w)
    (received : .received t i m ∈ w.history) (here : w.dispatchers[i]? = some d) :
    ∃ s, (s = .finished ∨ (t, s) ∈ d.sites) ∧
      Course fits (d.pool.isShutDown = true) d.route i t m s (w.trail t) := by
  have there : .received t i m ∈ w.trail t := mem_trail.mpr ⟨received, rfl⟩
  obtain ⟨j, n, e, s, _, here', placed, course⟩ := tidy.received_of_mem there
  obtain ⟨rfl, rfl⟩ := course.received_unique there
  cases here.symm.trans here'
  exact ⟨s, placed, course⟩

theorem Tidy.course_of_received {i t : Nat} {m : Message} {d : Dispatcher} (tidy : Tidy fits w)
    (received : .received t i m ∈ w.history) (here : w.dispatchers[i]? = some d) :
    ∃ s, Course fits (d.pool.isShutDown = true) d.route i t m s (w.trail t) :=
  (tidy.site_of_received received here).imp fun _ => And.right

end World

end RequestBus
