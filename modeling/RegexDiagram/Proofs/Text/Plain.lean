import RegexDiagram.Pattern.Label
import RegexDiagram.Layout.Spacing
import RegexDiagram.Measure
import RegexDiagram.Proofs.Geometry.Exact

/-!
# Plain texts

Texts of printable ASCII, curly quotes and ellipses. Two things are taken for granted of widths: each character
of such a text fills one column of its own, so that the text is as wide as it is long (`PlainWidths`), and
control characters have no width (`ControlWidths`). The only blank in a plain text is the space. A text that
begins and ends with something to be seen is `Blunt`.
-/

namespace RegexDiagram

/-! ## Characters -/

/-- A printable character of ASCII, the space included. -/
def Printable (c : Char) : Prop := 0x20 ≤ c.toNat ∧ c.toNat ≤ 0x7E

instance (c : Char) : Decidable (Printable c) := inferInstanceAs (Decidable (_ ∧ _))

/-- A character of labels: a printable one, a curly quote or an ellipsis. -/
def Plain (c : Char) : Prop := Printable c ∨ c ∈ ['“', '”', '…']

instance (c : Char) : Decidable (Plain c) := inferInstanceAs (Decidable (_ ∨ _))

namespace Printable

variable {c : Char} (h : Printable c)

include h

theorem isControl : RegexDiagram.isControl c = false := by
  obtain ⟨hlow, hhigh⟩ := h
  simp only [RegexDiagram.isControl, Bool.or_eq_false_iff, Bool.and_eq_false_iff,
    decide_eq_false_iff_not]
  omega

theorem eq_space (hblank : isBlank c = true) : c = ' ' := by
  obtain ⟨hlow, hhigh⟩ := h
  simp only [isBlank, Bool.or_eq_true, Bool.and_eq_true, beq_iff_eq, decide_eq_true_eq] at hblank
  have hspace : c.toNat = ' '.toNat := by
    have hvalue : ' '.toNat = 0x20 := rfl
    omega
  exact Char.toNat_inj.1 hspace

end Printable

/-- What holds of the ninety-five printable characters holds of every one of them. -/
theorem forall_printable {P : Char → Prop} [DecidablePred P]
    (h : (List.range' 0x20 95).all (fun n => P (Char.ofNat n)) = true) {c : Char}
    (hc : Printable c) : P c := by
  obtain ⟨hlow, hhigh⟩ := hc
  have hmem : c.toNat ∈ List.range' 0x20 95 := List.mem_range'_1.2 ⟨hlow, by omega⟩
  rw [← Char.ofNat_toNat c]
  exact of_decide_eq_true (List.all_eq_true.1 h _ hmem)

theorem Printable.toUpper {c : Char} (h : Printable c) : Printable c.toUpper :=
  forall_printable (P := fun c => Printable c.toUpper) (by decide) h

/-- What lies between printable characters is printable. -/
theorem printable_of_between {low high c : Char} (hlow : low ≤ c) (hhigh : c ≤ high) (h : Printable low)
    (h' : Printable high) : Printable c :=
  ⟨h.1.trans (UInt32.le_iff_toNat_le.1 hlow), (UInt32.le_iff_toNat_le.1 hhigh).trans h'.2⟩

theorem printable_of_isDigit {c : Char} (h : c.isDigit = true) : Printable c := by
  have hrange : (decide ('0' ≤ c) && decide (c ≤ '9')) = true := h
  obtain ⟨hlow, hhigh⟩ := Bool.and_eq_true_iff.1 hrange
  exact printable_of_between (of_decide_eq_true hlow) (of_decide_eq_true hhigh) (by decide) (by decide)

theorem printable_of_isOctalDigit {c : Char} (h : isOctalDigit c = true) : Printable c := by
  obtain ⟨hlow, hhigh⟩ := Bool.and_eq_true_iff.1 h
  exact printable_of_between (of_decide_eq_true hlow) (of_decide_eq_true hhigh) (by decide) (by decide)

theorem printable_of_isHexDigit {c : Char} (h : isHexDigit c = true) : Printable c := by
  have hletter {low high : Char} (h : (decide (low ≤ c) && decide (c ≤ high)) = true)
      (hlow : Printable low) (hhigh : Printable high) : Printable c := by
    obtain ⟨hle, hge⟩ := Bool.and_eq_true_iff.1 h
    exact printable_of_between (of_decide_eq_true hle) (of_decide_eq_true hge) hlow hhigh
  obtain h | h := Bool.or_eq_true_iff.1 h
  · obtain h | h := Bool.or_eq_true_iff.1 h
    · exact printable_of_isDigit h
    · exact hletter h (by decide) (by decide)
  · exact hletter h (by decide) (by decide)

/-- Letters are printable, and there is something to be seen of them. -/
theorem printable_of_isAlpha {c : Char} (h : c.isAlpha = true) : Printable c ∧ c ≠ ' ' := by
  constructor
  · have hcases : (c.isUpper || c.isLower) = true := h
    have hvalues : 'A'.val.toNat = 65 ∧ 'Z'.val.toNat = 90 ∧ 'a'.val.toNat = 97 ∧ 'z'.val.toNat = 122 :=
      ⟨rfl, rfl, rfl, rfl⟩
    rw [Printable, Char.toNat]
    obtain hupper | hlower := Bool.or_eq_true_iff.1 hcases
    · obtain ⟨hlow, hhigh⟩ : 'A'.val ≤ c.val ∧ c.val ≤ 'Z'.val := of_decide_eq_true hupper
      rw [UInt32.le_iff_toNat_le] at hlow hhigh
      omega
    · obtain ⟨hlow, hhigh⟩ := Bool.and_eq_true_iff.1 hlower
      replace hlow : 'a'.val ≤ c.val := of_decide_eq_true hlow
      replace hhigh : c.val ≤ 'z'.val := of_decide_eq_true hhigh
      rw [UInt32.le_iff_toNat_le] at hlow hhigh
      omega
  · rintro rfl
    exact absurd h (by decide)

theorem printable_of_isAlphanum {c : Char} (h : c.isAlphanum = true) : Printable c :=
  (Bool.or_eq_true_iff.1 h).elim (fun h => (printable_of_isAlpha h).1) printable_of_isDigit

namespace Plain

variable {c : Char} (h : Plain c)

include h

theorem isControl : RegexDiagram.isControl c = false := by
  obtain h | h := h
  · exact h.isControl
  · simp only [List.mem_cons, List.not_mem_nil, or_false] at h
    obtain rfl | rfl | rfl := h <;> decide

theorem eq_space (hblank : isBlank c = true) : c = ' ' := by
  obtain h | h := h
  · exact h.eq_space hblank
  · simp only [List.mem_cons, List.not_mem_nil, or_false] at h
    obtain rfl | rfl | rfl := h <;> exact absurd hblank (by decide)

end Plain

/-! ## Texts -/

/-- A text of plain characters. -/
def PlainText (s : List Char) : Prop := ∀ c ∈ s, Plain c

/-! ## Widths -/

/-- What is known of the widths of control characters: there are none. -/
class ControlWidths [TerminalWidths] : Prop where
  charWidth?_control {c : Char} (h : isControl c = true) : charWidth? c = none

/-- What is known of the widths of plain texts: every character fills one column, by itself and in a text. -/
class PlainWidths [TerminalWidths] : Prop where
  charWidth?_plain {c : Char} (h : Plain c) : charWidth? c = some 1
  columns_plain {s : List Char} (h : PlainText s) : columns s = s.length

section Widths

variable [TerminalWidths]

/-- A character that is drawn in columns is no control character. -/
theorem isControl_of_charColumns [ControlWidths] {c : Char} (h : charColumns c ≠ 0) : isControl c = false :=
  eq_false_of_ne_true fun hcontrol => h (by rw [charColumns, ControlWidths.charWidth?_control hcontrol]; rfl)

theorem Plain.charColumns [PlainWidths] {c : Char} (h : Plain c) : RegexDiagram.charColumns c = 1 := by
  rw [RegexDiagram.charColumns, PlainWidths.charWidth?_plain h]
  rfl

/-- A text without control characters can be measured in cells: it is one row high and as wide as the
columns that it fills. -/
theorem cells_of_forall {s : List Char} (h : ∀ c ∈ s, isControl c = false) :
    (Measure.cells : Measure ℚ) s = .ok ⟨columns s, 1, 0⟩ := by
  have hcontrol : s.find? isControl = none :=
    List.find?_eq_none.2 fun c hc => ne_true_of_eq_false (h c hc)
  rw [Measure.cells, Measure.refuseControl, hcontrol, rational_ofNat_eq, rational_one, rational_zero]
  rfl

/-- A plain text is as wide as it is long. -/
theorem cells_plain [PlainWidths] {s : List Char} (h : PlainText s) :
    (Measure.cells : Measure ℚ) s = .ok ⟨s.length, 1, 0⟩ := by
  rw [cells_of_forall fun c hc => (h c hc).isControl, PlainWidths.columns_plain h]

theorem extent_plain [PlainWidths] {s : List Char} (h : PlainText s) :
    (Measure.cells : Measure ℚ).extent s = ⟨s.length, 1, 0⟩ := by
  rw [Measure.extent, cells_plain h]

end Widths

/-! ## Plain texts by their pieces -/

theorem PlainText.append {s t : List Char} (hs : PlainText s) (ht : PlainText t) : PlainText (s ++ t) :=
  List.forall_mem_append.2 ⟨hs, ht⟩

/-- The characters of a given text are tested one by one. -/
theorem plainText_of_all {s : List Char} (h : s.all (fun c => Plain c) = true) : PlainText s :=
  fun c hc => of_decide_eq_true (List.all_eq_true.1 h c hc)

theorem plainText_of_printable {s : List Char} (h : ∀ c ∈ s, Printable c) : PlainText s :=
  fun c hc => .inl (h c hc)

/-! ## Ends -/

/-- The text begins with something to be seen. -/
def Begins (s : List Char) : Prop := ∃ c rest, s = c :: rest ∧ isBlank c = false

/-- The text ends with something to be seen. -/
def Ends (s : List Char) : Prop := ∃ front c, s = front ++ [c] ∧ isBlank c = false

/-- The text begins and ends with something to be seen. -/
structure Blunt (s : List Char) : Prop where
  begins : Begins s
  ends : Ends s

theorem Begins.append {s : List Char} (h : Begins s) (t : List Char) : Begins (s ++ t) := by
  obtain ⟨c, rest, rfl, hc⟩ := h
  exact ⟨c, rest ++ t, rfl, hc⟩

theorem Ends.append (s : List Char) {t : List Char} (h : Ends t) : Ends (s ++ t) := by
  obtain ⟨front, c, rfl, hc⟩ := h
  exact ⟨s ++ front, c, (List.append_assoc _ _ _).symm, hc⟩

/-- The first character of a given text is tested. -/
theorem begins_of_head {s : List Char} (h : s.head?.any (fun c => !isBlank c) = true) : Begins s := by
  cases s with
  | nil => exact absurd h Bool.false_ne_true
  | cons c rest => exact ⟨c, rest, rfl, by simpa using h⟩

/-- The last character of a given text is tested. -/
theorem ends_of_getLast {s : List Char} (h : s.getLast?.any (fun c => !isBlank c) = true) : Ends s := by
  cases hlast : s.getLast? with
  | none =>
    rw [hlast] at h
    exact absurd h Bool.false_ne_true
  | some c =>
    obtain ⟨front, rfl⟩ := List.getLast?_eq_some_iff.1 hlast
    rw [hlast] at h
    exact ⟨front, c, rfl, by simpa using h⟩

/-- A text without blanks is blunt. -/
theorem blunt_of_forall {s : List Char} (hne : s ≠ []) (h : ∀ c ∈ s, isBlank c = false) : Blunt s where
  begins := by
    obtain ⟨c, rest, rfl⟩ := List.exists_cons_of_ne_nil hne
    exact ⟨c, rest, rfl, h c (.head _)⟩
  ends :=
    ⟨s.dropLast, s.getLast hne, (List.dropLast_append_getLast hne).symm, h _ (List.getLast_mem hne)⟩

/-! ## Numerals -/

/-- A digit is printable, and there is something to be seen of it. -/
theorem digitChar_seen (k : Nat) : Printable (Nat.digitChar k) ∧ isBlank (Nat.digitChar k) = false := by
  have hsmall : ∀ k < 16, Printable (Nat.digitChar k) ∧ isBlank (Nat.digitChar k) = false := by decide
  obtain hk | hk := Nat.lt_or_ge k 16
  · exact hsmall k hk
  · have hstar : Nat.digitChar k = '*' := by
      unfold Nat.digitChar
      repeat rw [if_neg (by omega)]
    rw [hstar]
    decide

theorem toDigitsCore_seen {base : Nat} (fuel n : Nat) {digits : List Char}
    (h : ∀ c ∈ digits, Printable c ∧ isBlank c = false) :
    ∀ c ∈ Nat.toDigitsCore base fuel n digits, Printable c ∧ isBlank c = false := by
  induction fuel generalizing n digits with
  | zero => exact h
  | succ fuel ih =>
    have hcons : ∀ c ∈ Nat.digitChar (n % base) :: digits, Printable c ∧ isBlank c = false :=
      List.forall_mem_cons.2 ⟨digitChar_seen _, h⟩
    rw [Nat.toDigitsCore]
    split_ifs
    · exact hcons
    · exact ih _ hcons

theorem toDigits_seen (base n : Nat) :
    ∀ c ∈ Nat.toDigits base n, Printable c ∧ isBlank c = false :=
  toDigitsCore_seen _ _ fun _ hc => absurd hc List.not_mem_nil

theorem decimal_printable (n : Nat) : ∀ c ∈ decimal n, Printable c :=
  fun c hc => (toDigits_seen 10 n c hc).1

theorem decimal_plain (n : Nat) : PlainText (decimal n) := plainText_of_printable (decimal_printable n)

theorem decimal_blunt (n : Nat) : Blunt (decimal n) := by
  refine blunt_of_forall (fun hnil => ?_) fun c hc => (toDigits_seen 10 n c hc).2
  have hlength := Nat.length_toDigits_pos (b := 10) (n := n)
  rw [show Nat.toDigits 10 n = [] from hnil] at hlength
  exact absurd hlength (Nat.lt_irrefl 0)

theorem upperHex_printable (width n : Nat) : ∀ c ∈ upperHex width n, Printable c := by
  refine List.forall_mem_map.2 fun c hc => Printable.toUpper ?_
  obtain hc | hc := List.mem_append.1 hc
  · rw [List.eq_of_mem_replicate hc]
    decide
  · exact (toDigits_seen 16 n c hc).1

/-! ## Texts as they are shown -/

/-- Printable characters are shown as they are in either character set. -/
theorem flatMap_asciiChar {s : List Char} (h : ∀ c ∈ s, Printable c) : s.flatMap Spacing.asciiChar = s := by
  have hchar {c : Char} (hc : Printable c) : Spacing.asciiChar c = [c] :=
    forall_printable (P := fun c => Spacing.asciiChar c = [c]) (by decide) hc
  induction s with
  | nil => rfl
  | cons c rest ih =>
    obtain ⟨hc, hrest⟩ := List.forall_mem_cons.1 h
    rw [List.flatMap_cons, hchar hc, ih hrest]
    rfl

theorem asciiChar_blunt {c : Char} (h : isBlank c = false) : Blunt (Spacing.asciiChar c) := by
  unfold Spacing.asciiChar
  split_ifs
  · exact blunt_of_forall (List.cons_ne_nil _ _) (List.forall_mem_singleton.2 (by decide))
  · exact blunt_of_forall (List.cons_ne_nil _ _)
      (List.forall_mem_cons.2 ⟨by decide, List.forall_mem_singleton.2 (by decide)⟩)
  · exact blunt_of_forall (List.cons_ne_nil _ _) (List.forall_mem_singleton.2 h)

namespace Spacing

variable {α : Type} (c : Spacing α)

theorem shown_blunt {s : List Char} (h : Blunt s) : Blunt (c.shown s) := by
  unfold shown
  split_ifs
  · constructor
    · obtain ⟨d, rest, rfl, hd⟩ := h.begins
      rw [List.flatMap_cons]
      exact (asciiChar_blunt hd).begins.append _
    · obtain ⟨front, d, rfl, hd⟩ := h.ends
      rw [List.flatMap_append, List.flatMap_singleton]
      exact (asciiChar_blunt hd).ends.append _
  · exact h

end Spacing

end RegexDiagram
