import RegexDiagram.Proofs.Text.Plain
import RegexDiagram.Svg.Surface
import Mathlib.Logic.Basic
import Mathlib.Tactic.SplitIfs

/-!
# Escaping

What is written between tags and in quotes. `decode` reads a text with entities and nothing else behind
an ampersand; `decode_escape` says that an escaped text reads back as the text without the control
characters that a document cannot hold. Numbers are written with few characters, all of them printable and none with a
meaning in markup (`coordinateText_figures`).
-/

namespace RegexDiagram.Svg

/-! ## Texts -/

/-- A character as a document keeps it: control characters other than tab, line feed and carriage return
are replaced. -/
def keptChar (c : Char) : Char :=
  if isControl c && c != '\t' && c != '\n' && c != '\r' then '\uFFFD' else c

/-- A text as a document keeps it. -/
def kept (s : List Char) : List Char := s.map keptChar

/-- A text with its entities replaced by the characters they stand for. There is nothing to read where an
ampersand starts none of the five. -/
def decode : List Char → Option (List Char)
  | [] => some []
  | '&' :: 'a' :: 'm' :: 'p' :: ';' :: rest => (decode rest).map ('&' :: ·)
  | '&' :: 'l' :: 't' :: ';' :: rest => (decode rest).map ('<' :: ·)
  | '&' :: 'g' :: 't' :: ';' :: rest => (decode rest).map ('>' :: ·)
  | '&' :: 'q' :: 'u' :: 'o' :: 't' :: ';' :: rest => (decode rest).map ('"' :: ·)
  | '&' :: 'a' :: 'p' :: 'o' :: 's' :: ';' :: rest => (decode rest).map ('\'' :: ·)
  | c :: rest => if c = '&' then none else (decode rest).map (c :: ·)

theorem decode_cons {c : Char} (h : c ≠ '&') (rest : List Char) :
    decode (c :: rest) = (decode rest).map (c :: ·) := by
  rw [decode.eq_7 c rest (by rintro _ rfl; exact absurd rfl h) (by rintro _ rfl; exact absurd rfl h)
    (by rintro _ rfl; exact absurd rfl h) (by rintro _ rfl; exact absurd rfl h)
    (by rintro _ rfl; exact absurd rfl h), if_neg h]

/-- A single character is written so that it is read as what is kept of it. -/
theorem decode_escapeChar (c : Char) (rest : List Char) :
    decode (escapeChar c ++ rest) = (decode rest).map (keptChar c :: ·) := by
  unfold escapeChar
  split_ifs with hamp hlt hgt hquote hapos hcontrol
  · subst hamp; rfl
  · subst hlt; rfl
  · subst hgt; rfl
  · subst hquote; rfl
  · subst hapos; rfl
  · rw [keptChar, if_pos hcontrol]
    exact decode_cons (by decide) rest
  · rw [keptChar, if_neg hcontrol]
    exact decode_cons hamp rest

/-- An escaped text reads back as what is kept of it. -/
theorem decode_escape (s : List Char) : decode (escape s) = some (kept s) := by
  induction s with
  | nil => rfl
  | cons c rest ih =>
    rw [escape, List.flatMap_cons, decode_escapeChar, ← escape, ih]
    rfl

/-- No escaped text ends a quoted value or starts a tag. -/
theorem not_mem_escape (s : List Char) : '<' ∉ escape s ∧ '"' ∉ escape s := by
  have hchar (c : Char) : '<' ∉ escapeChar c ∧ '"' ∉ escapeChar c := by
    unfold escapeChar
    split_ifs with _ hlt _ hquote
    case neg =>
      exact ⟨fun h => hlt (List.mem_singleton.1 h).symm, fun h => hquote (List.mem_singleton.1 h).symm⟩
    all_goals decide
  constructor <;> intro h <;> obtain ⟨c, -, hc⟩ := List.mem_flatMap.1 h
  · exact (hchar c).1 hc
  · exact (hchar c).2 hc

/-! ## Numbers -/

/-- A character that is written as itself. -/
def Neutral (c : Char) : Prop := escapeChar c = [c]

instance (c : Char) : Decidable (Neutral c) := inferInstanceAs (Decidable (_ = _))

/-- The characters of a given text are tested one by one. -/
theorem neutral_of_all {s : List Char} (h : s.all (fun c => Neutral c) = true) : ∀ c ∈ s, Neutral c :=
  fun c hc => of_decide_eq_true (List.all_eq_true.1 h c hc)

theorem neutral_of_isDigit {c : Char} (h : c.isDigit = true) : Neutral c := by
  have hrange : 48 ≤ c.toNat ∧ c.toNat ≤ 57 := by
    simp only [Char.isDigit, Bool.and_eq_true, decide_eq_true_eq, ge_iff_le, UInt32.le_iff_toNat_le] at h
    exact h
  have hcontrol : isControl c = false := by
    simp only [isControl, Bool.or_eq_false_iff, Bool.and_eq_false_iff, decide_eq_false_iff_not]
    omega
  have hother (d : Char) (hd : d.isDigit = false) : c ≠ d := by
    rintro rfl
    rw [h] at hd
    exact Bool.noConfusion hd
  rw [Neutral, escapeChar, if_neg (hother _ rfl), if_neg (hother _ rfl), if_neg (hother _ rfl),
    if_neg (hother _ rfl), if_neg (hother _ rfl), hcontrol]
  rfl

/-- Neutral characters stand for themselves. -/
theorem escape_neutral {s : List Char} (h : ∀ c ∈ s, Neutral c) : escape s = s := by
  induction s with
  | nil => rfl
  | cons c rest ih =>
    obtain ⟨hc, hrest⟩ := List.forall_mem_cons.1 h
    rw [escape, List.flatMap_cons, hc, ← escape, ih hrest]
    rfl

/-- A printable character that is written as itself. -/
def Figure (c : Char) : Prop := Printable c ∧ Neutral c

instance (c : Char) : Decidable (Figure c) := inferInstanceAs (Decidable (_ ∧ _))

theorem figures_of_all {s : List Char} (h : s.all (fun c => Figure c) = true) : ∀ c ∈ s, Figure c :=
  fun c hc => of_decide_eq_true (List.all_eq_true.1 h c hc)

open Decimal

theorem positional_figures (n : Scaled) : ∀ c ∈ n.positional, Figure c := by
  have hdigits : ∀ c ∈ Nat.toDigits 10 n.digits, Figure c := fun c hc => by
    have hdigit := Nat.isDigit_of_mem_toDigits (by decide) (by decide) hc
    exact ⟨printable_of_isDigit hdigit, neutral_of_isDigit hdigit⟩
  have hzeros (count : Nat) : ∀ c ∈ List.replicate count '0', Figure c := fun c hc => by
    rw [List.eq_of_mem_replicate hc]
    decide
  have hpadded (count more : Nat) : ∀ c ∈ List.replicate count '0' ++
      (Nat.toDigits 10 n.digits ++ List.replicate more '0'), Figure c :=
    List.forall_mem_append.2 ⟨hzeros _, List.forall_mem_append.2 ⟨hdigits, hzeros _⟩⟩
  unfold Scaled.positional
  simp only
  split_ifs
  · exact fun c hc => hpadded _ _ c (List.mem_of_mem_take hc)
  · refine List.forall_mem_append.2 ⟨List.forall_mem_append.2 ⟨fun c hc => ?_, ?_⟩, fun c hc => ?_⟩
    · exact hpadded _ _ c (List.mem_of_mem_take hc)
    · exact List.forall_mem_singleton.2 (by decide)
    · have hc := (List.dropWhile_sublist _).subset (List.mem_reverse.1 hc)
      exact hpadded _ _ c (List.mem_of_mem_drop (List.mem_reverse.1 hc))

theorem floatText_figures (x : Float) : ∀ c ∈ floatText x, Figure c := by
  have hsign (negative : Bool) : ∀ c ∈ signText negative, Figure c := by
    cases negative <;> exact figures_of_all (by decide)
  unfold floatText
  cases Class.ofBits x.toBits.toNat with
  | nan => exact figures_of_all (by decide)
  | infinite negative => exact List.forall_mem_append.2 ⟨hsign negative, figures_of_all (by decide)⟩
  | zero negative => exact List.forall_mem_append.2 ⟨hsign negative, figures_of_all (by decide)⟩
  | finite negative magnitude =>
    exact List.forall_mem_append.2 ⟨hsign negative, positional_figures _⟩

/-- A coordinate is written with printable characters that have no meaning in markup. -/
theorem coordinateText_figures (x : Float) : ∀ c ∈ coordinateText x, Figure c := by
  unfold coordinateText
  simp only
  split_ifs
  · exact figures_of_all (by decide)
  · exact floatText_figures _

theorem pointData_figures (p : Point Float) : ∀ c ∈ Element.pointData p, Figure c :=
  List.forall_mem_append.2 ⟨List.forall_mem_append.2 ⟨coordinateText_figures _,
    List.forall_mem_singleton.2 (by decide)⟩, coordinateText_figures _⟩

theorem segmentData_figures (segment : Segment Float) : ∀ c ∈ Element.segmentData segment, Figure c := by
  cases segment with
  | moveTo p => exact List.forall_mem_cons.2 ⟨by decide, pointData_figures p⟩
  | lineTo p => exact List.forall_mem_cons.2 ⟨by decide, pointData_figures p⟩
  | quadTo control p =>
    exact List.forall_mem_append.2 ⟨List.forall_mem_append.2
      ⟨List.forall_mem_cons.2 ⟨by decide, pointData_figures control⟩,
        List.forall_mem_singleton.2 (by decide)⟩, pointData_figures p⟩

/-- So are the commands of a path. -/
theorem pathData_figures (segments : List (Segment Float)) :
    ∀ c ∈ Element.pathData segments, Figure c := by
  unfold Element.pathData
  induction segments with
  | nil => exact fun c hc => absurd hc List.not_mem_nil
  | cons first rest ih =>
    cases rest with
    | nil => exact segmentData_figures first
    | cons second more =>
      exact List.forall_mem_append.2 ⟨List.forall_mem_append.2 ⟨segmentData_figures first,
        List.forall_mem_singleton.2 (by decide)⟩, ih⟩

theorem coordinateText_neutral (x : Float) : ∀ c ∈ coordinateText x, Neutral c :=
  fun c hc => (coordinateText_figures x c hc).2

theorem pointData_neutral (p : Point Float) : ∀ c ∈ Element.pointData p, Neutral c :=
  fun c hc => (pointData_figures p c hc).2

theorem pathData_neutral (segments : List (Segment Float)) : ∀ c ∈ Element.pathData segments, Neutral c :=
  fun c hc => (pathData_figures segments c hc).2

end RegexDiagram.Svg
