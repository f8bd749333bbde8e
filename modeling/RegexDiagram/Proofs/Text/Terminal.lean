import RegexDiagram.Proofs.Text.Plain
import RegexDiagram.Text.Terminal

/-!
# The widths of the terminal

The widths that the program runs with are as expected: control characters have none, and plain texts are as
wide as they are long. What is proved of widths of this kind therefore holds of the program.
-/

namespace RegexDiagram

namespace Terminal

/-- A table of ranges that begins behind a character does not have it. -/
theorem inRanges_eq_false {ranges : List (Nat × Nat)} {c : Char} {n : Nat} (hc : c.toNat ≤ n)
    (h : ranges.all (fun r => n < r.1) = true) : inRanges ranges c = false := by
  rw [inRanges, List.any_eq_false]
  intro r hr hin
  have hlow : n < r.1 := of_decide_eq_true (List.all_eq_true.1 h r hr)
  have hle : r.1 ≤ c.toNat := of_decide_eq_true (Bool.and_eq_true_iff.1 hin).1
  omega

theorem width_plain {c : Char} (h : Plain c) : width c = 1 := by
  obtain ⟨hlow, hhigh⟩ | h := h
  · exact if_pos (by omega)
  · simp only [List.mem_cons, List.not_mem_nil, or_false] at h
    obtain rfl | rfl | rfl := h <;> decide +kernel

/-- No plain character shares columns with what stands in front of it. -/
theorem neighbor_plain {c : Char} (h : Plain c) : Neighbor.ofChar c = .plain := by
  obtain ⟨-, hhigh⟩ | h := h
  · have hrange {ranges : List (Nat × Nat)} (hr : ranges.all (fun r => 0x7E < r.1) = true) :
        inRanges ranges c = false := inRanges_eq_false hhigh hr
    rw [Neighbor.ofChar, isSkinTone, isFlagLetter, isEmoji, hrange rfl, hrange rfl, hrange rfl,
      hrange rfl, hrange rfl]
    rfl
  · simp only [List.mem_cons, List.not_mem_nil, or_false] at h
    obtain rfl | rfl | rfl := h <;> rfl

/-- What stands behind a plain character shares no columns with it. -/
theorem step_plain {c : Char} (h : Plain c) :
    Following.step ⟨none, .plain⟩ c = (1, ⟨none, .plain⟩) := by
  have hpicture : c ≠ '\uFE0F' := by
    rintro rfl
    exact absurd h (by decide)
  have hcharacter : c ≠ '\uFE0E' := by
    rintro rfl
    exact absurd h (by decide)
  have hbefore : Neighbor.plain.before c = (1, .plain) := by
    simp only [Neighbor.before, width_plain h, neighbor_plain h]
    rfl
  have hpass : Following.step ⟨none, .plain⟩ c = Following.pass ⟨none, .plain⟩ c := rfl
  rw [hpass, Following.pass]
  simp only [true_or, if_true, if_neg hpicture, if_neg hcharacter, hbefore]

theorem textWidth_plain {s : List Char} (h : PlainText s) : textWidth s = s.length := by
  have hfold : s.foldr (fun c (acc : Int × Following) => (acc.1 + (acc.2.step c).1, (acc.2.step c).2))
      (0, ⟨none, .plain⟩) = ((s.length : Int), ⟨none, .plain⟩) := by
    induction s with
    | nil => rfl
    | cons c rest ih =>
      obtain ⟨hc, hrest⟩ := List.forall_mem_cons.1 h
      rw [List.foldr_cons, ih hrest, step_plain hc, List.length_cons, Nat.cast_succ]
  exact (congrArg (fun acc => acc.1.toNat) hfold).trans (Int.toNat_natCast _)

end Terminal

instance : ControlWidths where
  charWidth?_control h := if_pos h

instance : PlainWidths where
  charWidth?_plain h :=
    (if_neg (ne_true_of_eq_false h.isControl)).trans (congrArg some (Terminal.width_plain h))
  columns_plain := Terminal.textWidth_plain

end RegexDiagram
