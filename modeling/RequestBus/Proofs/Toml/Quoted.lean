import Mathlib.Data.List.Forall2
import RequestBus.Toml.Quoted

/-! TOML text reads back as it was written, in whichever form it was written. Inside the quotes a
text is spelled piece by piece, one for each character. Between tripled quotes up to two quotes may
stand together, which the reader takes at once, and those at the end together with the closing
ones. -/
namespace RequestBus.Toml

/-! ## Pieces -/

theorem hexDigit?_capitalDigit : ∀ n < 16, hexDigit? (capitalDigit n) = some n := by decide

theorem readEscape_control {c : Char} (control : c.toNat < 0x20 ∨ c.toNat = 0x7F)
    (rest : List Char) :
    readEscape (['u', '0', '0', capitalDigit (c.toNat / 16), capitalDigit (c.toNat % 16)] ++ rest) =
      some (c, rest) := by
  have high := hexDigit?_capitalDigit (c.toNat / 16) (by omega)
  have low := hexDigit?_capitalDigit (c.toNat % 16) (by omega)
  have zero : hexDigit? '0' = some 0 := by decide
  have code : readCodePoint 4
      (['0', '0', capitalDigit (c.toNat / 16), capitalDigit (c.toNat % 16)] ++ rest) =
        some (Char.ofNat c.toNat, rest) := by
    have value : c.toNat / 16 * 16 + c.toNat % 16 = c.toNat := by omega
    simp [readCodePoint, zero, high, low, value]
    omega
  rw [Char.ofNat_toNat] at code
  simpa [readEscape] using code

/-- How one character of a text can be spelled between quotes. -/
inductive Piece (quote : Char) (acrossLines : Bool) : List Char → Char → Prop
  | plain {c : Char} (shows : isPlain c = true) (other : c ≠ quote)
      (unmarked : ¬ (c = '\\' ∧ quote = '"')) : Piece quote acrossLines [c] c
  | escape {text : List Char} {c : Char} (basic : quote = '"')
      (reads : ∀ rest, readEscape (text ++ rest) = some (c, rest))
      (onLine : ∀ rest, behindLineEnd? (text ++ rest) = none) :
      Piece quote acrossLines ('\\' :: text) c
  | lineBreak (across : acrossLines = true) (other : '\n' ≠ quote) :
      Piece quote acrossLines ['\n'] '\n'

section Pieces
variable {quote c : Char} {text sofar rest : List Char} {fuel : Nat} {acrossLines : Bool}

theorem Piece.head (piece : Piece quote acrossLines text c) :
    ∃ first more, text = first :: more ∧ first ≠ quote := by
  cases piece with
  | plain _ other _ => exact ⟨c, [], rfl, other⟩
  | escape basic _ _ => exact ⟨'\\', _, rfl, by rw [basic]; decide⟩
  | lineBreak _ other => exact ⟨'\n', [], rfl, other⟩

theorem Piece.length_pos (piece : Piece quote acrossLines text c) : 0 < text.length := by
  obtain ⟨_, _, rfl, _⟩ := piece.head
  exact Nat.succ_pos _

theorem not_break_of_plain (shows : isPlain c = true) : c ≠ '\n' ∧ c ≠ '\r' := by
  constructor <;> rintro rfl <;> exact absurd shows (by decide)

theorem Piece.not_break (piece : Piece quote acrossLines text c) (unbroken : c ≠ '\n') :
    ∃ first more, text = first :: more ∧ first ≠ '\n' ∧ first ≠ '\r' := by
  cases piece with
  | plain shows _ _ => exact ⟨c, [], rfl, not_break_of_plain shows⟩
  | escape _ _ _ => exact ⟨'\\', _, rfl, by decide⟩
  | lineBreak _ _ => exact absurd rfl unbroken

theorem Piece.readLine (piece : Piece quote false text c) :
    readLine quote (fuel + 1) sofar (text ++ rest) = readLine quote fuel (c :: sofar) rest := by
  cases piece with
  | plain shows other unmarked =>
    simp only [List.singleton_append, Toml.readLine, if_neg other, if_neg unmarked, if_pos shows]
  | escape basic reads _ =>
    subst basic
    simp [Toml.readLine, reads rest]
  | lineBreak across => contradiction

theorem Piece.readLines (piece : Piece quote true text c) :
    readLines quote (fuel + 1) sofar (text ++ rest) = readLines quote fuel (c :: sofar) rest := by
  cases piece with
  | plain shows other unmarked =>
    have unbroken := not_break_of_plain shows
    simp only [List.singleton_append, Toml.readLines, if_neg other, if_neg unmarked,
      if_neg unbroken.1, if_neg unbroken.2, if_pos shows]
  | escape basic reads onLine =>
    subst basic
    simp [Toml.readLines, onLine rest, reads rest]
  | lineBreak _ other => simp [Toml.readLines, other]

theorem readLine_pieces {texts : List (List Char)} {cs : List Char}
    (pieces : List.Forall₂ (Piece quote false) texts cs) (sofar rest : List Char) (fuel : Nat)
    (enough : texts.flatten.length < fuel) :
    readLine quote fuel sofar (texts.flatten ++ quote :: rest) =
      some (sofar.reverse ++ cs, rest) := by
  induction pieces generalizing fuel sofar with
  | nil =>
    obtain ⟨fuel, rfl⟩ := Nat.exists_eq_add_of_lt enough
    simp [readLine]
  | cons first _ ih =>
    have some := first.length_pos
    rw [List.flatten_cons, List.length_append] at enough
    obtain ⟨fuel, rfl⟩ : ∃ n, fuel = n + 1 := ⟨fuel - 1, by omega⟩
    rw [List.flatten_cons, List.append_assoc, first.readLine, ih _ fuel (by omega)]
    simp

/-- A text over several lines, of which so many quotes have been passed over. -/
inductive Lined (quote : Char) : Nat → List Char → List Char → Prop
  | done {n : Nat} (few : n ≤ 2) : Lined quote n [] []
  | quote {n : Nat} {text cs : List Char} (few : n < 2) (rest : Lined quote (n + 1) text cs) :
      Lined quote n (quote :: text) (quote :: cs)
  | piece {n : Nat} {first text cs : List Char} {c : Char} (few : n ≤ 2)
      (spells : Piece quote true first c) (rest : Lined quote 0 text cs) :
      Lined quote n (first ++ text) (c :: cs)

theorem takeWhile_quotes (n : Nat) (outside : rest.head? ≠ some quote) :
    (List.replicate n quote ++ rest).takeWhile (· == quote) = List.replicate n quote ∧
      (List.replicate n quote ++ rest).dropWhile (· == quote) = rest := by
  induction n with
  | zero =>
    cases rest with
    | nil => exact ⟨rfl, rfl⟩
    | cons c rest =>
      have other : c ≠ quote := fun same => outside (congrArg some same)
      simp [other]
  | succ n ih => simpa [List.replicate_succ] using ih

theorem readLines_quotes {n : Nat} (few : n < 2) (outside : rest.head? ≠ some quote) :
    readLines quote (fuel + 1) sofar (List.replicate (n + 1) quote ++ rest) =
      readLines quote fuel (List.replicate (n + 1) quote ++ sofar) rest := by
  obtain ⟨run, after⟩ := takeWhile_quotes n outside
  rw [List.replicate_succ, List.cons_append]
  conv_lhs => unfold readLines
  simp only [if_true, run, after, List.length_replicate, if_pos (show n + 1 < 3 by omega)]
  rfl

theorem readLines_closing {n : Nat} (few : n ≤ 2) (outside : rest.head? ≠ some quote) :
    readLines quote (fuel + 1) sofar (List.replicate (n + 3) quote ++ rest) =
      some (sofar.reverse ++ List.replicate n quote, rest) := by
  obtain ⟨run, after⟩ := takeWhile_quotes (n + 2) outside
  rw [List.replicate_succ, List.cons_append]
  conv_lhs => unfold readLines
  simp only [if_true, run, after, List.length_replicate, if_neg (show ¬ n + 2 + 1 < 3 by omega),
    if_pos (show n + 2 + 1 ≤ 5 by omega)]
  simp

theorem readLines_lined {n : Nat} {cs : List Char} (lined : Lined quote n text cs)
    (outside : rest.head? ≠ some quote) (sofar : List Char) (fuel : Nat)
    (enough : n + text.length < fuel) : readLines quote fuel sofar
        (List.replicate n quote ++ text ++ (quote :: quote :: quote :: rest)) =
      some (sofar.reverse ++ List.replicate n quote ++ cs, rest) := by
  induction lined generalizing fuel sofar with
  | @done n few =>
    obtain ⟨fuel, rfl⟩ := Nat.exists_eq_add_of_lt enough
    have run : List.replicate n quote ++ [] ++ (quote :: quote :: quote :: rest) =
        List.replicate (n + 3) quote ++ rest := by
      rw [List.replicate_add, List.append_assoc, List.append_assoc]
      rfl
    rw [run, readLines_closing few outside, List.append_nil]
  | @quote n text cs few _ ih =>
    rw [List.length_cons] at enough
    have onward := ih sofar fuel (by omega)
    simpa [List.replicate_succ'] using onward
  | @piece n first text cs c few spells _ ih =>
    have some := spells.length_pos
    rw [List.length_append] at enough
    obtain ⟨initial, more, whole, other⟩ := spells.head
    have next : (first ++ (text ++ (quote :: quote :: quote :: rest))).head? ≠ .some quote := by
      rw [whole]
      exact fun same => other (Option.some.inj same)
    rw [List.append_assoc, List.append_assoc]
    cases n with
    | zero =>
      obtain ⟨fuel, rfl⟩ : ∃ m, fuel = m + 1 := ⟨fuel - 1, by omega⟩
      have onward := ih (c :: sofar) fuel (by omega)
      rw [List.replicate_zero, List.nil_append, spells.readLines]
      simpa using onward
    | succ n =>
      obtain ⟨fuel, rfl⟩ : ∃ m, fuel = m + 1 + 1 := ⟨fuel - 2, by omega⟩
      have onward := ih (c :: (List.replicate (n + 1) quote ++ sofar)) fuel (by omega)
      rw [readLines_quotes (by omega) next, spells.readLines]
      simpa using onward

end Pieces

/-! ## What is written -/

theorem isPlain_of_clean {c : Char} (clean : needsEscape c = false) (unbroken : c ≠ '\n') :
    isPlain c = true := by
  simp only [needsEscape, Bool.or_eq_false_iff, Bool.and_eq_false_iff, decide_eq_false_iff_not,
    bne_eq_false_iff_eq, beq_eq_false_iff_ne] at clean
  simp only [isPlain, Bool.or_eq_true, Bool.and_eq_true, beq_iff_eq, decide_eq_true_eq,
    bne_iff_ne]
  rcases clean with ⟨(high | tab) | broken, other⟩
  · exact .inr ⟨by omega, other⟩
  · exact .inl tab
  · exact absurd broken unbroken

theorem piece_writeChar (acrossLines : Bool) {c : Char} (other : c ≠ '"') :
    Piece '"' acrossLines (writeChar acrossLines c) c := by
  unfold writeChar
  split
  · rename_i code
    obtain rfl : c = Char.ofNat 0x08 := by rw [← code, Char.ofNat_toNat]
    exact .escape rfl (fun _ => rfl) fun _ => rfl
  split
  · rename_i same
    subst same
    exact .escape rfl (fun _ => rfl) fun _ => rfl
  split
  · rename_i same
    subst same
    cases acrossLines with
    | true => exact .lineBreak rfl (by decide)
    | false => exact .escape rfl (fun _ => rfl) fun _ => rfl
  split
  · rename_i code
    obtain rfl : c = Char.ofNat 0x0C := by rw [← code, Char.ofNat_toNat]
    exact .escape rfl (fun _ => rfl) fun _ => rfl
  split
  · rename_i same
    subst same
    exact .escape rfl (fun _ => rfl) fun _ => rfl
  split
  · rename_i same
    subst same
    exact .escape rfl (fun _ => rfl) fun _ => rfl
  split
  · rename_i control
    exact .escape rfl (readEscape_control control) fun _ => rfl
  · rename_i unmarked printable
    refine .plain ?_ other fun marked => unmarked marked.1
    simp [isPlain]
    omega

theorem piece_quote (acrossLines : Bool) : Piece '"' acrossLines ['\\', '"'] '"' :=
  .escape rfl (fun _ => rfl) fun _ => rfl

theorem pieces_writeChars (cs : List Char) : ∃ texts, writeChars false 0 0 cs = texts.flatten ∧
    List.Forall₂ (Piece '"' false) texts cs := by
  induction cs with
  | nil => exact ⟨[], rfl, .nil⟩
  | cons c cs ih =>
    obtain ⟨texts, whole, pieces⟩ := ih
    unfold writeChars
    split
    · rename_i same
      subst same
      exact ⟨['\\', '"'] :: texts, by rw [whole]; rfl, .cons (piece_quote false) pieces⟩
    · rename_i other
      exact ⟨writeChar false c :: texts, by rw [whole]; rfl,
        .cons (piece_writeChar false other) pieces⟩

theorem lined_writeChars (cs : List Char) {room : Nat} (few : room ≤ 2) :
    Lined '"' (2 - room) (writeChars true 2 room cs) cs := by
  induction cs generalizing room with
  | nil => exact .done (Nat.sub_le 2 room)
  | cons c cs ih =>
    unfold writeChars
    split
    · rename_i same
      subst same
      cases room with
      | zero => exact .piece (Nat.le_refl 2) (piece_quote true) (ih (Nat.le_refl 2))
      | succ room =>
        have onward := @ih room (by omega)
        rw [show 2 - room = 2 - (room + 1) + 1 by omega] at onward
        exact .quote (by omega) onward
    · rename_i other
      exact .piece (Nat.sub_le 2 room) (piece_writeChar true other) (ih (Nat.le_refl 2))

theorem literal_pieces {cs : List Char} (clean : ∀ c ∈ cs, needsEscape c = false)
    (unbroken : '\n' ∉ cs) (free : '\'' ∉ cs) :
    List.Forall₂ (Piece '\'' false) (cs.map fun c => [c]) cs := by
  induction cs with
  | nil => exact .nil
  | cons c cs ih =>
    obtain ⟨first, others⟩ := List.forall_mem_cons.mp clean
    rw [List.mem_cons, not_or] at unbroken free
    obtain ⟨here, behind⟩ := unbroken
    obtain ⟨other, rest⟩ := free
    refine .cons (.plain ?_ (Ne.symm other) ?_) (ih others behind rest)
    · exact isPlain_of_clean first (Ne.symm here)
    · exact fun marked => absurd marked.2 (by decide)

def runStep (mark : Char) (state : Nat × Nat) (c : Char) : Nat × Nat :=
  if c = mark then (state.1 + 1, max state.2 (state.1 + 1)) else (0, state.2)

theorem longestRun_eq (mark : Char) (cs : List Char) :
    longestRun mark cs = (cs.foldl (runStep mark) (0, 0)).2 := rfl

theorem le_runs (mark : Char) (cs : List Char) (state : Nat × Nat) :
    state.2 ≤ (cs.foldl (runStep mark) state).2 := by
  induction cs generalizing state with
  | nil => exact Nat.le_refl _
  | cons c cs ih =>
    refine Nat.le_trans ?_ (ih (runStep mark state c))
    unfold runStep
    split
    · exact Nat.le_max_left _ _
    · exact Nat.le_refl _

theorem lined_literal {cs : List Char} (clean : ∀ c ∈ cs, needsEscape c = false)
    {run best : Nat} (few : run ≤ 2) (runs : (cs.foldl (runStep '\'') (run, best)).2 ≤ 2) :
    Lined '\'' run cs cs := by
  induction cs generalizing run best with
  | nil => exact .done few
  | cons c cs ih =>
    obtain ⟨first, others⟩ := List.forall_mem_cons.mp clean
    rw [List.foldl_cons] at runs
    by_cases same : c = '\''
    · subst same
      have step : runStep '\'' (run, best) '\'' = (run + 1, max best (run + 1)) := if_pos rfl
      rw [step] at runs
      have bound := Nat.le_trans (le_runs '\'' cs _) runs
      have longer : run + 1 ≤ 2 := Nat.le_trans (Nat.le_max_right _ _) bound
      exact .quote longer (ih others longer runs)
    · have step : runStep '\'' (run, best) c = (0, best) := if_neg same
      rw [step] at runs
      show Lined '\'' run ([c] ++ cs) (c :: cs)
      refine .piece few ?_ (ih others (Nat.zero_le 2) runs)
      by_cases broken : c = '\n'
      · subst broken
        exact .lineBreak rfl (by decide)
      · exact .plain (isPlain_of_clean first broken) same fun marked => absurd marked.2 (by decide)

/-! ## Back and forth -/

section Texts
variable {quote : Char} {inner cs rest : List Char}

theorem readText_one (quotes : quote = '"' ∨ quote = '\'') (next : inner.head? ≠ some quote) :
    readText (quote :: (inner ++ quote :: '\n' :: rest)) =
      readLine quote ((inner ++ quote :: '\n' :: rest).length + 1) []
        (inner ++ quote :: '\n' :: rest) := by
  cases inner with
  | nil => rcases quotes with rfl | rfl <;> rfl
  | cons c inner =>
    have other : c ≠ quote := fun same => next (congrArg some same)
    rcases quotes with rfl | rfl <;> simp [readText, other]

theorem readText_pieces {texts : List (List Char)} (quotes : quote = '"' ∨ quote = '\'')
    (pieces : List.Forall₂ (Piece quote false) texts cs) (rest : List Char) :
    readText (quote :: texts.flatten ++ [quote] ++ '\n' :: rest) = some (cs, '\n' :: rest) := by
  have next : texts.flatten.head? ≠ some quote := by
    cases pieces with
    | nil => exact nofun
    | cons first _ =>
      obtain ⟨initial, more, rfl, other⟩ := first.head
      exact fun same => other (Option.some.inj same)
  have read := readLine_pieces pieces [] ('\n' :: rest)
    ((texts.flatten ++ quote :: '\n' :: rest).length + 1) (by rw [List.length_append]; omega)
  rw [← readText_one quotes next] at read
  simpa using read

theorem readText_basic : readText (writeBasic cs ++ '\n' :: rest) = some (cs, '\n' :: rest) := by
  obtain ⟨texts, whole, pieces⟩ := pieces_writeChars cs
  rw [writeBasic, whole]
  exact readText_pieces (.inl rfl) pieces rest

theorem readText_literal (clean : ∀ c ∈ cs, needsEscape c = false) (unbroken : '\n' ∉ cs)
    (free : '\'' ∉ cs) :
    readText ('\'' :: cs ++ ['\''] ++ '\n' :: rest) = some (cs, '\n' :: rest) := by
  have whole : (cs.map fun c => [c]).flatten = cs := by
    rw [← List.flatMap_def, List.flatMap_singleton']
  have read := readText_pieces (.inr rfl) (literal_pieces clean unbroken free) rest
  rwa [whole] at read

theorem readText_tripled (quotes : quote = '"' ∨ quote = '\'') (lined : Lined quote 0 inner cs)
    (unbroken : '\n' ∉ cs → ∀ first ∈ inner.head?, first ≠ '\n' ∧ first ≠ '\r') :
    readText (tripled quote cs inner ++ '\n' :: rest) = some (cs, '\n' :: rest) := by
  have closing : ('\n' :: rest).head? ≠ some quote := by
    rcases quotes with rfl | rfl <;> simp
  have opened (front : List Char) : readText ([quote, quote, quote] ++ front) =
      readLines quote (front.length + 1) [] (dropFirstBreak front) := by
    rcases quotes with rfl | rfl <;> rfl
  have read (fuel : Nat) (enough : inner.length < fuel) :
      readLines quote fuel [] (inner ++ (quote :: quote :: quote :: '\n' :: rest)) =
        some (cs, '\n' :: rest) := by
    have read := readLines_lined lined closing [] fuel (by omega)
    simpa using read
  unfold tripled
  simp only [List.append_assoc, opened]
  split
  · simp only [List.cons_append, List.nil_append, dropFirstBreak]
    exact read _ (by simp only [List.length_cons, List.length_append]; omega)
  · rename_i without
    have kept : dropFirstBreak (inner ++ (quote :: quote :: quote :: '\n' :: rest)) =
        inner ++ (quote :: quote :: quote :: '\n' :: rest) := by
      cases inner with
      | nil => rcases quotes with rfl | rfl <;> rfl
      | cons first inner =>
        obtain ⟨notBreak, notReturn⟩ := unbroken without first rfl
        unfold dropFirstBreak
        split
        · rename_i same
          exact absurd (List.cons.inj same).1 notBreak
        · rename_i same
          exact absurd (List.cons.inj same).1 notReturn
        · rfl
    simp only [List.nil_append, List.cons_append, kept]
    exact read _ (by simp only [List.length_cons, List.length_append]; omega)

end Texts

theorem readText_basicLines (cs rest : List Char) :
    readText (writeBasicLines cs ++ '\n' :: rest) = some (cs, '\n' :: rest) := by
  refine readText_tripled (.inl rfl) (lined_writeChars cs (Nat.le_refl 2)) ?_
  intro unbroken first here
  cases cs with
  | nil => contradiction
  | cons c cs =>
    rw [List.mem_cons, not_or] at unbroken
    unfold writeChars at here
    split at here
    · cases here
      decide
    · rename_i other
      obtain ⟨_, _, whole, apart⟩ := (piece_writeChar true other).not_break (Ne.symm unbroken.1)
      rw [whole] at here
      cases here
      exact apart

theorem readText_writeText (cs rest : List Char) :
    readText (writeText cs ++ '\n' :: rest) = some (cs, '\n' :: rest) := by
  have cleaned (clean : ¬ cs.any needsEscape = true) : ∀ c ∈ cs, needsEscape c = false := by
    simpa using clean
  unfold writeText
  dsimp only
  split
  · exact readText_basic
  split
  · rename_i literal
    exact readText_literal (cleaned literal.1) literal.2.1 literal.2.2
  split
  · exact readText_basicLines cs rest
  split
  · rename_i literal
    have runs := literal.2
    rw [longestRun_eq] at runs
    have lined := lined_literal (cleaned literal.1) (Nat.zero_le 2) runs
    refine readText_tripled (.inr rfl) lined fun unbroken first here => ?_
    have member := List.mem_of_mem_head? here
    constructor
    · rintro rfl
      exact unbroken member
    · rintro rfl
      exact absurd (cleaned literal.1 _ member) (by decide)
  split
  · exact readText_basicLines cs rest
  · exact readText_basic

end RequestBus.Toml
