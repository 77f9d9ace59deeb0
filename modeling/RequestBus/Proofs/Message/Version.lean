import RequestBus.Message.Version
import RequestBus.Proofs.Text.Ascii
import RequestBus.Proofs.Text.Blank
import RequestBus.Proofs.Text.Split

namespace RequestBus.Version

open Text

/-- The key of the piece is `version`, in any case and with any blanks around it, and behind its
first equals sign stands the rest. -/
def Keyed (piece rest : List Char) : Prop :=
  ∃ key, piece = key ++ '=' :: rest ∧ '=' ∉ key ∧
    sameIgnoringCase (String.ofList (stripChars isBlank key)) "version" = true

def bare (rest : List Char) : List Char := stripChars (· == '"') (stripChars isBlank rest)

/-- Of the pieces between semicolons the first one with the key `version` has this rest. -/
def Asks (accept : String) (rest : List Char) : Prop :=
  ∃ before piece after, accept.toList = [';'].intercalate (before ++ piece :: after) ∧
    (∀ p ∈ before ++ piece :: after, ';' ∉ p) ∧ (∀ p ∈ before, ∀ r, ¬ Keyed p r) ∧
    Keyed piece rest

theorem ofPiece?_eq_some {piece w : List Char} :
    ofPiece? piece = some w ↔ ∃ rest, Keyed piece rest ∧ bare rest = w := by
  rw [ofPiece?, Option.bind_eq_some_iff]
  constructor
  · rintro ⟨⟨key, rest⟩, cut, value⟩
    obtain ⟨whole, free⟩ := eq_of_cutAt _ _ _ _ cut
    dsimp only at value
    split at value
    · rename_i named
      exact ⟨rest, ⟨key, whole, free, named⟩, Option.some.inj value⟩
    · exact nomatch value
  · rintro ⟨rest, ⟨key, rfl, free, named⟩, rfl⟩
    exact ⟨(key, rest), cutAt_append '=' key rest free, if_pos named⟩

theorem ofPiece?_eq_none {piece : List Char} :
    ofPiece? piece = none ↔ ∀ rest, ¬ Keyed piece rest := by
  rw [Option.eq_none_iff_forall_ne_some]
  constructor
  · intro none rest keyed
    exact none (bare rest) (ofPiece?_eq_some.mpr ⟨rest, keyed, rfl⟩)
  · intro none w same
    obtain ⟨rest, keyed, _⟩ := ofPiece?_eq_some.mp same
    exact none rest keyed

theorem find_asked {accept : String} {w : List Char} :
    (pieces ';' accept.toList).findSome? ofPiece? = some w ↔
      ∃ rest, Asks accept rest ∧ bare rest = w := by
  rw [List.findSome?_eq_some_iff]
  constructor
  · rintro ⟨before, piece, after, split, found, none⟩
    obtain ⟨rest, keyed, same⟩ := ofPiece?_eq_some.mp found
    obtain ⟨_, free, whole⟩ := pieces_eq_iff.mp split
    exact ⟨rest, ⟨before, piece, after, whole.symm, free,
      fun p member => ofPiece?_eq_none.mp (none p member), keyed⟩, same⟩
  · rintro ⟨rest, ⟨before, piece, after, whole, free, none, keyed⟩, same⟩
    have split : pieces ';' accept.toList = before ++ piece :: after :=
      pieces_eq_iff.mpr ⟨by simp, free, whole.symm⟩
    exact ⟨before, piece, after, split, ofPiece?_eq_some.mpr ⟨rest, keyed, same⟩,
      fun p member => ofPiece?_eq_none.mpr (none p member)⟩

theorem ofAccept?_eq_some {accept w : String} : ofAccept? accept = some w ↔
    ∃ rest, Asks accept rest ∧ bare rest = w.toList ∧ w ≠ "" := by
  rw [ofAccept?, Option.map_eq_some_iff]
  constructor
  · rintro ⟨cs, kept, rfl⟩
    obtain ⟨found, given⟩ := Option.filter_eq_some_iff.mp kept
    obtain ⟨rest, asks, same⟩ := find_asked.mp found
    refine ⟨rest, asks, same.trans String.toList_ofList.symm, fun empty => ?_⟩
    simp_all
  · rintro ⟨rest, asks, same, given⟩
    have found := find_asked.mpr ⟨rest, asks, same⟩
    refine ⟨w.toList, Option.filter_eq_some_iff.mpr ⟨found, ?_⟩, String.ofList_toList⟩
    simpa using given

theorem Asks.unique {accept : String} {one two : List Char} (first : Asks accept one)
    (second : Asks accept two) : bare one = bare two := by
  have found := find_asked.mpr ⟨one, first, rfl⟩
  rw [find_asked.mpr ⟨two, second, rfl⟩] at found
  exact (Option.some.inj found).symm

theorem ofAccept?_eq_none {accept : String} :
    ofAccept? accept = none ↔ ∀ rest, Asks accept rest → bare rest = [] := by
  rw [Option.eq_none_iff_forall_ne_some]
  constructor
  · intro none rest asks
    by_contra given
    refine none (String.ofList (bare rest)) (ofAccept?_eq_some.mpr ⟨rest, asks, ?_, ?_⟩)
    · rw [String.toList_ofList]
    · simpa using given
  · intro empty w same
    obtain ⟨rest, asks, bare, given⟩ := ofAccept?_eq_some.mp same
    rw [empty rest asks] at bare
    exact given (String.toList_eq_nil_iff.mp bare.symm)

abbrev Blanks := {cs : List Char // ∀ c ∈ cs, isBlank c = true}

theorem Blanks.free (b : Blanks) {c : Char} (solid : isBlank c = false) : c ∉ b.1 := by
  intro member
  rw [b.2 c member] at solid
  exact nomatch solid

/-- A piece that asks for a version: with the word `version` in any case, blanks around the piece,
its key and its value, and quotes around the value or none. -/
structure Parameter where
  beforeKey : Blanks
  key : List Char
  afterKey : Blanks
  beforeValue : Blanks
  value : List Char
  inQuotes : Bool
  afterValue : Blanks
  named : sameIgnoringCase (String.ofList key) "version" = true
  given : value ≠ []
  whole : ';' ∉ value
  tight : Tight (fun c => isBlank c || c == '"') value

namespace Parameter

def shown (p : Parameter) : List Char :=
  if p.inQuotes then '"' :: p.value ++ ['"'] else p.value

def rest (p : Parameter) : List Char := p.beforeValue.1 ++ p.shown ++ p.afterValue.1

def text (p : Parameter) : List Char :=
  p.beforeKey.1 ++ p.key ++ p.afterKey.1 ++ '=' :: p.rest

theorem letter_of_toLower {c : Char} (member : c.toLower ∈ "version".toList) :
    65 ≤ c.toNat ∧ c.toNat ≤ 122 := by
  have letters : ∀ d ∈ "version".toList, 97 ≤ d.toNat ∧ d.toNat ≤ 122 := by simp
  have letter := letters _ member
  rw [toNat_toLower] at letter
  split at letter <;> omega

theorem not_blank_of_letter {c : Char} (letter : 65 ≤ c.toNat ∧ c.toNat ≤ 122) :
    isBlank c = false := by
  simp only [isBlank, Bool.or_eq_false_iff, Bool.and_eq_false_iff, decide_eq_false_iff_not,
    beq_eq_false_iff_ne]
  omega

variable (p : Parameter)

theorem letter_of_mem_key {c : Char} (member : c ∈ p.key) : 65 ≤ c.toNat ∧ c.toNat ≤ 122 := by
  have small := toLower_mem_of_sameIgnoringCase p.named (c := c) (by simpa using member)
  have same : lower "version" = "version" := by decide
  rw [same] at small
  exact letter_of_toLower small

theorem free_of_not_letter {c : Char} (solid : isBlank c = false)
    (other : ¬ (65 ≤ c.toNat ∧ c.toNat ≤ 122)) : c ∉ p.beforeKey.1 ++ p.key ++ p.afterKey.1 := by
  simp only [List.mem_append, not_or]
  exact ⟨⟨p.beforeKey.free solid, fun member => other (p.letter_of_mem_key member)⟩,
    p.afterKey.free solid⟩

theorem keyed : Keyed p.text p.rest := by
  refine ⟨p.beforeKey.1 ++ p.key ++ p.afterKey.1, rfl, ?_, ?_⟩
  · exact p.free_of_not_letter (by decide) (by decide)
  · have solid : Tight isBlank p.key :=
      ⟨fun c first => not_blank_of_letter (p.letter_of_mem_key (List.mem_of_mem_head? first)),
        fun c last => not_blank_of_letter (p.letter_of_mem_key (List.mem_of_mem_getLast? last))⟩
    rw [stripChars_around p.beforeKey.2 solid p.afterKey.2]
    exact p.named

theorem solid_shown : Tight isBlank p.shown := by
  have solid : Tight isBlank p.value := p.tight.of_imp fun c blank => by simp [blank]
  unfold shown
  split
  · -- Quotes are no blanks, so trimming stops at them.
    have quote : isBlank '"' = false := by decide
    constructor
    · rintro c ⟨⟩
      exact quote
    · rw [List.getLast?_concat]
      rintro c ⟨⟩
      exact quote
  · exact solid

theorem stripChars_shown : stripChars (· == '"') p.shown = p.value := by
  have solid : Tight (· == '"') p.value :=
    p.tight.of_imp fun c quote => by simp [quote]
  unfold shown
  split
  · have quote : ∀ c ∈ ['"'], (c == '"') = true := by simp
    exact stripChars_around quote solid quote
  · have nothing : ∀ c ∈ [], (c == '"') = true := by simp
    simpa using stripChars_around nothing solid nothing

theorem bare_rest : bare p.rest = p.value := by
  rw [bare, rest, stripChars_around p.beforeValue.2 p.solid_shown p.afterValue.2,
    p.stripChars_shown]

theorem whole_text : ';' ∉ p.text := by
  have shown : ';' ∉ p.shown := by
    unfold shown
    split <;> simp [p.whole]
  have behind : ';' ∉ p.rest := by
    simp only [rest, List.mem_append, not_or]
    exact ⟨⟨p.beforeValue.free (by decide), shown⟩, p.afterValue.free (by decide)⟩
  have front := p.free_of_not_letter (c := ';') (by decide) (by decide)
  rw [text, List.mem_append, List.mem_cons]
  rintro (inside | same | inside)
  · exact front inside
  · exact absurd same (by decide)
  · exact behind inside

end Parameter

/-- The first piece with the key `version` is the one that counts, in whatever way it is written,
and where there is none, or nothing in it, no version is asked for. -/
theorem version_asked :
    (∀ (p : Parameter) (before after : List (List Char)),
      (∀ o ∈ before ++ after, ';' ∉ o) → (∀ o ∈ before, ∀ rest, ¬ Keyed o rest) →
        ofAccept? (String.ofList ([';'].intercalate (before ++ p.text :: after))) =
          some (String.ofList p.value)) ∧
    (∀ accept w, ofAccept? accept = some w →
      w ≠ "" ∧ Tight (· == '"') w.toList ∧ ∃ rest, Asks accept rest ∧ bare rest = w.toList) ∧
    (∀ accept, (∀ rest, ¬ Asks accept rest) → ofAccept? accept = none) ∧
    ∀ accept rest, Asks accept rest → bare rest = [] → ofAccept? accept = none := by
  refine ⟨fun p before after free none => ?_, fun accept w asked => ?_, fun accept none => ?_,
    fun accept rest asks empty => ?_⟩
  · have asks : Asks (String.ofList ([';'].intercalate (before ++ p.text :: after))) p.rest := by
      refine ⟨before, p.text, after, String.toList_ofList, fun o member => ?_, none, p.keyed⟩
      rcases List.mem_append.mp member with member | member
      · exact free o (List.mem_append_left after member)
      · rcases List.mem_cons.mp member with rfl | member
        · exact p.whole_text
        · exact free o (List.mem_append_right before member)
    refine ofAccept?_eq_some.mpr ⟨p.rest, asks, ?_, ?_⟩
    · rw [String.toList_ofList, p.bare_rest]
    · simpa using p.given
  · obtain ⟨rest, asks, same, given⟩ := ofAccept?_eq_some.mp asked
    refine ⟨given, ?_, rest, asks, same⟩
    rw [← same]
    exact tight_stripChars _ _
  · exact ofAccept?_eq_none.mpr fun rest asks => absurd asks (none rest)
  · exact ofAccept?_eq_none.mpr fun other others => (others.unique asks).trans empty

def spaced : Parameter where
  beforeKey := ⟨[' '], by simp; decide⟩
  key := "VerSion".toList
  afterKey := ⟨['\t'], by simp; decide⟩
  beforeValue := ⟨[' ', ' '], by simp; decide⟩
  value := "37.1=x".toList
  inQuotes := true
  afterValue := ⟨[' '], by simp; decide⟩
  named := by decide
  given := by simp
  whole := by simp
  tight := ⟨by simp; decide, by simp; decide⟩

theorem version_asked_of_spaced :
    ofAccept? "application/json;q=1; VerSion\t=  \"37.1=x\" ;version=1" = some "37.1=x" := by
  have free : ∀ o ∈ ["application/json".toList, "q=1".toList] ++ ["version=1".toList], ';' ∉ o := by
    simp
  have others : ∀ o ∈ ["application/json".toList, "q=1".toList], ∀ rest, ¬ Keyed o rest := by
    intro o member
    apply ofPiece?_eq_none.mp
    rcases List.mem_pair.mp member with rfl | rfl <;> decide
  have text : "application/json;q=1; VerSion\t=  \"37.1=x\" ;version=1" =
      String.ofList ([';'].intercalate
        (["application/json".toList, "q=1".toList] ++ spaced.text :: ["version=1".toList])) := by
    decide
  rw [text, version_asked.1 spaced _ _ free others]
  decide

end RequestBus.Version
