import Mathlib.Data.List.DropRight
import RequestBus.Text.Blank

namespace RequestBus.Text

variable {drop : Char → Bool}

/-- The text begins and ends, if it is not empty, with characters that stay. -/
def Tight (drop : Char → Bool) (cs : List Char) : Prop :=
  (∀ c ∈ cs.head?, drop c = false) ∧ ∀ c ∈ cs.getLast?, drop c = false

theorem Tight.of_imp {keep : Char → Bool} {cs : List Char} (h : Tight drop cs)
    (fewer : ∀ c, keep c = true → drop c = true) : Tight keep cs := by
  have stays (c : Char) (kept : drop c = false) : keep c = false := by
    rw [← Bool.not_eq_true] at kept ⊢
    exact fun goes => kept (fewer c goes)
  exact ⟨fun c first => stays c (h.1 c first), fun c last => stays c (h.2 c last)⟩

theorem dropWhile_of_head {cs : List Char} (first : ∀ c ∈ cs.head?, drop c = false) :
    cs.dropWhile drop = cs := by
  cases cs with
  | nil => rfl
  | cons c cs => simp [first c rfl]

theorem dropWhile_append {kept : List Char} (cs : List Char)
    (first : ∀ c ∈ kept.head?, drop c = false) :
    (cs ++ kept).dropWhile drop = cs.dropWhile drop ++ kept := by
  induction cs with
  | nil => exact dropWhile_of_head first
  | cons c cs ih =>
    rw [List.cons_append, List.dropWhile_cons, List.dropWhile_cons, ih]
    split <;> rfl

theorem rdropWhile_append {kept : List Char} (last : ∀ c ∈ kept.getLast?, drop c = false)
    (cs : List Char) : (kept ++ cs).rdropWhile drop = kept ++ cs.rdropWhile drop := by
  induction cs using List.reverseRecOn with
  | nil =>
    rw [List.rdropWhile_nil, List.append_nil, List.rdropWhile_eq_self_iff]
    intro some
    simp [last _ (List.getLast?_eq_some_getLast some)]
  | append_singleton cs c ih =>
    rw [← List.append_assoc, List.rdropWhile_concat, List.rdropWhile_concat, ih]
    split <;> simp

theorem stripChars_eq (drop : Char → Bool) (cs : List Char) :
    stripChars drop cs = (cs.dropWhile drop).rdropWhile drop := rfl

theorem stripChars_around {before kept after : List Char} (left : ∀ c ∈ before, drop c = true)
    (tight : Tight drop kept) (right : ∀ c ∈ after, drop c = true) :
    stripChars drop (before ++ kept ++ after) = kept := by
  rw [stripChars_eq, List.append_assoc, List.dropWhile_append_of_pos left]
  cases kept with
  | nil =>
    rw [List.nil_append, List.dropWhile_eq_nil_iff.mpr right]
    rfl
  | cons c kept =>
    have first : ∀ d ∈ (c :: kept ++ after).head?, drop d = false := tight.1
    rw [dropWhile_of_head first, rdropWhile_append tight.2,
      List.rdropWhile_eq_nil_iff.mpr right, List.append_nil]

theorem exists_around (drop : Char → Bool) (cs : List Char) :
    ∃ before after, cs = before ++ stripChars drop cs ++ after ∧
      (∀ c ∈ before, drop c = true) ∧ ∀ c ∈ after, drop c = true := by
  refine ⟨cs.takeWhile drop, (cs.dropWhile drop).rtakeWhile drop, ?_, ?_, ?_⟩
  · rw [stripChars_eq, List.append_assoc, List.rdropWhile_append_rtakeWhile,
      List.takeWhile_append_dropWhile]
  · exact fun c => List.mem_takeWhile_imp
  · exact fun c => List.mem_rtakeWhile_imp

theorem tight_stripChars (drop : Char → Bool) (cs : List Char) :
    Tight drop (stripChars drop cs) := by
  rw [stripChars_eq]
  constructor
  · intro c first
    obtain ⟨after, whole⟩ := List.rdropWhile_prefix drop (cs.dropWhile drop)
    have stays := List.head?_dropWhile_not drop cs
    rw [← whole, List.head?_append, Option.mem_def.mp first] at stays
    exact stays
  · intro c last
    obtain ⟨some, rfl⟩ := List.mem_getLast?_eq_getLast last
    exact Bool.eq_false_iff.mpr (List.rdropWhile_last_not drop _ some)

end RequestBus.Text
