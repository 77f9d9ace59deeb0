import Mathlib.Data.List.Forall2
import RequestBus.Proofs.Text.Lenient
import RequestBus.Text.Preview

namespace RequestBus.Text

/-- How a character stands in a preview: as itself, or written out where it could break the
line. -/
inductive Shown : Char → List Char → Prop
  | plain {c : Char} (harmless : isControl c = false) : Shown c [c]
  | tab : Shown '\t' ['\\', 't']
  | carriageReturn : Shown '\r' ['\\', 'r']
  | lineFeed : Shown '\n' ['\\', 'n']
  | code {c : Char} (control : isControl c = true) (unnamed : c ∉ ['\t', '\r', '\n']) :
      Shown c (['\\', 'u', '{'] ++ Nat.toDigits 16 c.toNat ++ ['}'])

theorem hexDigit_eq {n : Nat} (digit : n < 16) : hexDigit n = Nat.digitChar n := by
  have all : ∀ n : Fin 16, hexDigit n = Nat.digitChar n := by decide
  exact all ⟨n, digit⟩

theorem hex_eq (n : Nat) : hex n = Nat.toDigits 16 n := by
  induction n using Nat.strongRecOn with
  | _ n ih =>
    rw [hex]
    split
    · rename_i small
      rw [hexDigit_eq small, Nat.toDigits_of_lt_base small]
    · rename_i big
      have written := Nat.toDigits_of_base_le (b := 16) (n := n) (by decide) (by omega)
      rw [ih (n / 16) (by omega), hexDigit_eq (Nat.mod_lt n (by decide)), written]

theorem shown_previewChar (c : Char) : Shown c (previewChar c) := by
  unfold previewChar
  cases control : isControl c with
  | false => exact .plain control
  | true =>
    rw [if_pos rfl]
    split_ifs with tab carriageReturn lineFeed
    · exact tab ▸ .tab
    · exact carriageReturn ▸ .carriageReturn
    · exact lineFeed ▸ .lineFeed
    · rw [codePoint, hex_eq]
      exact .code control (by simp [tab, carriageReturn, lineFeed])

theorem control_lt {c : Char} (control : isControl c = true) : c.toNat < 0xA0 := by
  simp only [isControl, Bool.or_eq_true, Bool.and_eq_true, decide_eq_true_eq] at control
  omega

theorem hex_of_lt {n : Nat} (low : n < 0x100) :
    hex n = [hexDigit n] ∧ n < 16 ∨ hex n = [hexDigit (n / 16), hexDigit (n % 16)] := by
  rw [hex]
  split
  · rename_i small
    exact .inl ⟨rfl, small⟩
  · right
    rw [hex, if_pos (by omega)]
    rfl

theorem Shown.harmless {c : Char} {text : List Char} (shown : Shown c text) :
    text.length ≤ 6 ∧ ∀ d ∈ text, isControl d = false := by
  cases shown with
  | plain harmless => exact ⟨by simp, by simpa using harmless⟩
  | tab | carriageReturn | lineFeed => exact ⟨by simp, by simp [isControl]⟩
  | code control unnamed =>
    have digits : ∀ n : Fin 16, isControl (hexDigit n) = false := by decide
    have around : ∀ d ∈ ['\\', 'u', '{'] ++ ['}'], isControl d = false := by simp [isControl]
    have low := control_lt control
    rw [← hex_eq]
    rcases hex_of_lt (n := c.toNat) (by omega) with ⟨one, small⟩ | two
    · rw [one]
      refine ⟨by simp, fun d member => ?_⟩
      simp only [List.append_assoc, List.mem_append, List.mem_singleton] at member
      rcases member with front | rfl | rfl
      · exact around d (List.mem_append_left _ front)
      · exact digits ⟨c.toNat, small⟩
      · exact around _ (by simp)
    · rw [two]
      refine ⟨by simp, fun d member => ?_⟩
      simp only [List.append_assoc, List.mem_append, List.mem_pair, List.mem_singleton] at member
      rcases member with front | (rfl | rfl) | rfl
      · exact around d (List.mem_append_left _ front)
      · exact digits ⟨c.toNat / 16, by omega⟩
      · exact digits ⟨c.toNat % 16, by omega⟩
      · exact around _ (by simp)

theorem forall_shown (cs : List Char) : List.Forall₂ Shown cs (cs.map previewChar) := by
  rw [List.forall₂_map_right_iff]
  exact List.forall₂_same.mpr fun c _ => shown_previewChar c

theorem length_flatten_shown {cs : List Char} {texts : List (List Char)}
    (shown : List.Forall₂ Shown cs texts) : texts.flatten.length ≤ 6 * cs.length := by
  induction shown with
  | nil => simp
  | cons first _ ih =>
    have short := first.harmless.1
    simp only [List.flatten_cons, List.length_append, List.length_cons]
    omega

theorem harmless_flatten_shown {cs : List Char} {texts : List (List Char)}
    (shown : List.Forall₂ Shown cs texts) : ∀ c ∈ texts.flatten, isControl c = false := by
  induction shown with
  | nil => simp
  | cons first _ ih =>
    intro c member
    rcases List.mem_append.mp member with here | behind
    · exact first.harmless.2 c here
    · exact ih c behind

theorem eq_of_harmless {cs : List Char} {texts : List (List Char)}
    (shown : List.Forall₂ Shown cs texts) (harmless : ∀ c ∈ cs, isControl c = false) :
    texts.flatten = cs := by
  induction shown with
  | nil => rfl
  | cons first _ ih =>
    obtain ⟨here, behind⟩ := List.forall_mem_cons.mp harmless
    rw [List.flatten_cons, ih behind]
    cases first with
    | plain => rfl
    | tab | carriageReturn | lineFeed => exact absurd here (by decide)
    | code control => exact absurd (control.symm.trans here) (by decide)

def ellipsis : List Char := ['.', '.', '.']

theorem preview_eq (payload : Bytes) (limit : Nat) : preview payload limit =
    String.ofList ((((Utf8.lossyChars payload).take limit).map previewChar).flatten ++
      if limit < (Utf8.lossyChars payload).length then ellipsis else []) := by
  unfold preview
  dsimp only
  rw [List.flatMap_def]
  split
  · rfl
  · rw [List.append_nil]

/-- A preview shows the first characters of a payload, each as itself or written out, and says
whether there are more. So it stays on one line and within its bounds. -/
theorem preview_safe (payload : Bytes) (limit : Nat) :
    ∃ cs, (∀ ds, Utf8.Lenient payload ds ↔ ds = cs) ∧
      (∃ texts, List.Forall₂ Shown (cs.take limit) texts ∧ preview payload limit =
        String.ofList (texts.flatten ++ if limit < cs.length then ellipsis else [])) ∧
      (∀ c ∈ (preview payload limit).toList, isControl c = false) ∧
      (preview payload limit).length ≤ 6 * limit + 3 ∧
      (cs.length ≤ limit → (∀ c ∈ cs, isControl c = false) →
        preview payload limit = String.ofList cs) := by
  have shown := forall_shown ((Utf8.lossyChars payload).take limit)
  have text := preview_eq payload limit
  refine ⟨Utf8.lossyChars payload, fun ds => Utf8.lenient_iff, ⟨_, shown, text⟩, ?_, ?_, ?_⟩
  · rw [text, String.toList_ofList]
    intro c member
    rcases List.mem_append.mp member with front | more
    · exact harmless_flatten_shown shown c front
    · have dots : ∀ d ∈ ellipsis, isControl d = false := by simp [ellipsis, isControl]
      split at more
      · exact dots c more
      · exact absurd more List.not_mem_nil
  · have front := length_flatten_shown shown
    have bound := List.length_take_le limit (Utf8.lossyChars payload)
    rw [text, String.length_ofList, List.length_append]
    have more : (if limit < (Utf8.lossyChars payload).length then ellipsis else []).length ≤ 3 := by
      split <;> simp [ellipsis]
    omega
  · intro short harmless
    rw [List.take_of_length_le short] at shown
    rw [text, List.take_of_length_le short, if_neg (Nat.not_lt.mpr short), List.append_nil,
      eq_of_harmless shown harmless]

/-- A line break and a character that was cut off, of five characters. -/
example : preview [0x61, 0x0A, 0xF0, 0x9F, 0x62, 0x63] 3 = "a\\n\uFFFD..." := by decide

end RequestBus.Text
