import RequestBus.Text.Split

namespace RequestBus.Text

theorem pieces_ne_nil (mark : Char) (cs : List Char) : pieces mark cs ≠ [] := by
  induction cs with
  | nil => simp [pieces]
  | cons c rest ih =>
    unfold pieces
    split
    · simp
    · split <;> simp

theorem pieces_eq_splitOn (mark : Char) (cs : List Char) : pieces mark cs = cs.splitOn mark := by
  induction cs with
  | nil => rfl
  | cons c rest ih =>
    rw [pieces, ih]
    unfold List.splitOn
    rw [List.splitOnP_cons_eq_if_modifyHead]
    simp only [beq_iff_eq]
    split
    · rfl
    · obtain ⟨piece, more, found⟩ :=
        List.exists_cons_of_ne_nil (List.splitOnP_ne_nil (· == mark) rest)
      rw [found]
      rfl

theorem notMem_of_mem_pieces {mark : Char} {cs piece : List Char}
    (member : piece ∈ pieces mark cs) : mark ∉ piece := by
  induction cs generalizing piece with
  | nil => simp_all [pieces]
  | cons c rest ih =>
    unfold pieces at member
    split at member
    · rcases List.mem_cons.mp member with rfl | behind
      · exact List.not_mem_nil
      · exact ih behind
    · rename_i other
      cases found : pieces mark rest with
      | nil => exact absurd found (pieces_ne_nil mark rest)
      | cons first more =>
        rw [found] at member ih
        rcases List.mem_cons.mp member with rfl | behind
        · simp [Ne.symm other, ih List.mem_cons_self]
        · exact ih (List.mem_cons_of_mem first behind)

/-- The pieces of a text are the only pieces without the mark that make it up. -/
theorem pieces_eq_iff {mark : Char} {cs : List Char} {ps : List (List Char)} :
    pieces mark cs = ps ↔ ps ≠ [] ∧ (∀ p ∈ ps, mark ∉ p) ∧ [mark].intercalate ps = cs := by
  constructor
  · rintro rfl
    refine ⟨pieces_ne_nil mark cs, fun p => notMem_of_mem_pieces, ?_⟩
    rw [pieces_eq_splitOn, List.intercalate_splitOn]
  · rintro ⟨some, free, rfl⟩
    rw [pieces_eq_splitOn, List.splitOn_intercalate mark free some]

theorem takeWhile_append {keep : Char → Bool} {front behind : List Char}
    (kept : ∀ c ∈ front, keep c = true) (stop : ∀ c ∈ behind.head?, keep c = false) :
    (front ++ behind).takeWhile keep = front := by
  rw [List.takeWhile_append_of_pos kept]
  cases behind with
  | nil => exact List.append_nil front
  | cons c behind => simp [stop c rfl]

def cutAtText (mark : List Char) : List Char → Option (List Char × List Char)
  | [] => none
  | c :: rest =>
    if mark <+: c :: rest then some ([], (c :: rest).drop mark.length)
    else (cutAtText mark rest).map fun (before, after) => (c :: before, after)

theorem cutAtText_eq_none {mark cs : List Char} (given : mark ≠ []) :
    cutAtText mark cs = none ↔ ¬ mark <:+: cs := by
  induction cs with
  | nil => simp [cutAtText, given]
  | cons c rest ih =>
    rw [cutAtText, List.infix_cons_iff]
    split <;> simp [*]

theorem infix_append_iff {m : Char} {mark front behind : List Char} (free : m ∉ front) :
    m :: mark <:+: front ++ behind ↔ m :: mark <:+: behind := by
  induction front with
  | nil => rfl
  | cons c front ih =>
    simp only [List.mem_cons, not_or] at free
    have elsewhere : ¬ m :: mark <+: c :: (front ++ behind) := fun starts =>
      free.1 (List.cons_prefix_cons.mp starts).1
    rw [List.cons_append, List.infix_cons_iff, ih free.2]
    exact or_iff_right elsewhere

theorem prefix_of_dropLast (mark before after : List Char) :
    before ++ mark.dropLast <+: before ++ mark ++ after := by
  rw [List.append_assoc, List.prefix_append_right_inj]
  have shorter := List.dropLast_prefix mark
  exact shorter.trans (List.prefix_append mark after)

theorem eq_of_cutAtText {mark cs before after : List Char} (given : mark ≠ [])
    (cut : cutAtText mark cs = some (before, after)) :
    cs = before ++ mark ++ after ∧ ¬ mark <:+: before ++ mark.dropLast := by
  induction cs generalizing before with
  | nil => simp [cutAtText] at cut
  | cons c rest ih =>
    rw [cutAtText] at cut
    split at cut
    · rename_i front
      obtain ⟨behind, split⟩ := front
      obtain ⟨rfl, rfl⟩ := Prod.mk.inj (Option.some.inj cut)
      -- A mark without its last character is too short for the mark.
      refine ⟨by simp [← split], fun inside => ?_⟩
      have short := inside.length_le
      have long : 0 < mark.length := List.length_pos_iff.mpr given
      rw [List.nil_append, List.length_dropLast] at short
      omega
    · rename_i behind
      obtain ⟨⟨b, a⟩, found, same⟩ := Option.map_eq_some_iff.mp cut
      obtain ⟨rfl, rfl⟩ := Prod.mk.inj same
      obtain ⟨rfl, first⟩ := ih found
      refine ⟨rfl, fun inside => ?_⟩
      rcases List.infix_cons_iff.mp inside with front | inside
      · exact behind (front.trans (prefix_of_dropLast mark (c :: b) a))
      · exact first inside

theorem cutAtText_append {mark before : List Char} (given : mark ≠ [])
    (first : ¬ mark <:+: before ++ mark.dropLast) (after : List Char) :
    cutAtText mark (before ++ mark ++ after) = some (before, after) := by
  induction before with
  | nil =>
    obtain ⟨m, more, rfl⟩ := List.exists_cons_of_ne_nil given
    simp [cutAtText]
  | cons b before ih =>
    rw [List.cons_append, List.infix_cons_iff, not_or] at first
    have behind : ¬ mark <+: b :: (before ++ mark ++ after) := by
      intro front
      refine first.1 (List.prefix_of_prefix_length_le front
        (prefix_of_dropLast mark (b :: before) after) ?_)
      rw [List.length_cons, List.length_append, List.length_dropLast]
      omega
    rw [List.cons_append, List.cons_append, cutAtText, if_neg behind, ih first.2]
    rfl

end RequestBus.Text
