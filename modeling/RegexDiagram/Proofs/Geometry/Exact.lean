import RegexDiagram.Layout.Spacing
import Mathlib.Data.Rat.Floor
import Mathlib.Tactic.Linarith

/-!
# Exact arithmetic

Rational numbers as scalars. Layout and painting are written for any type of numbers; over the
rational numbers nothing is rounded but by `floor` and `cell`. The lemmas below turn the operations of
a scalar into the operations of the rational numbers.
-/

namespace RegexDiagram

/-- A natural number as a rational one. -/
def rationalOfNat (n : ℕ) : ℚ := n

instance : Scalar ℚ where
  ofNat := rationalOfNat
  max := max
  min := min
  floor x := ⌊x⌋
  abs := abs
  sign x := if x < 0 then -1 else 1
  less x y := x < y
  same x y := x = y
  cell x := ⌊max x 0 + 1 / 2⌋₊

/-! ## Operations -/

theorem rational_ofNat_eq (n : ℕ) : (Scalar.ofNat n : ℚ) = n := rfl

@[simp] theorem rational_zero : @OfNat.ofNat ℚ 0 (Scalar.instOfNat 0) = 0 := Nat.cast_zero

@[simp] theorem rational_one : @OfNat.ofNat ℚ 1 (Scalar.instOfNat 1) = 1 := Nat.cast_one

@[simp] theorem rational_numeral (n : ℕ) [n.AtLeastTwo] :
    @OfNat.ofNat ℚ n (Scalar.instOfNat n) = OfNat.ofNat n := rfl

@[simp] theorem rational_max (x y : ℚ) : Scalar.max x y = max x y := rfl

@[simp] theorem rational_floor (x : ℚ) : Scalar.floor x = ⌊x⌋ := rfl

theorem rational_cell (x : ℚ) : Scalar.cell x = ⌊max x 0 + 1 / 2⌋₊ := rfl

/-! ## Snapping -/

namespace Spacing

variable (c : Spacing ℚ) {x : ℚ}

theorem snapped_le (x : ℚ) : c.snapped x ≤ x := by
  unfold snapped
  split
  · exact Int.floor_le x
  · exact le_rfl

theorem snapped_nonneg (h : 0 ≤ x) : 0 ≤ c.snapped x := by
  unfold snapped
  split
  · exact Int.cast_nonneg (Int.floor_nonneg.2 h)
  · exact h

/-- Half of a length lies between nothing and the whole. -/
theorem snapped_half (h : 0 ≤ x) : 0 ≤ c.snapped (x / 2) ∧ c.snapped (x / 2) ≤ x := by
  have hle := c.snapped_le (x / 2)
  exact ⟨c.snapped_nonneg (by linarith), by linarith⟩

end Spacing

end RegexDiagram
