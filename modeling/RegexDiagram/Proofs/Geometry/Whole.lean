import RegexDiagram.Diagram
import RegexDiagram.Proofs.Geometry.Exact
import Mathlib.Tactic.NormNum

/-!
# Whole numbers

In character cells every distance is a whole number and halves are rounded down, so a layout never
leaves the whole numbers. Whole numbers that are not negative are what `cell` leaves as they are.
-/

namespace RegexDiagram

/-! ## Integers -/

/-- The number is an integer. -/
def Integral (x : ℚ) : Prop := ∃ k : ℤ, x = k

namespace Integral

variable {x y : ℚ}

@[simp] theorem zero : Integral 0 := ⟨0, Int.cast_zero.symm⟩

@[simp] theorem one : Integral 1 := ⟨1, Int.cast_one.symm⟩

@[simp] theorem numeral (n : ℕ) [n.AtLeastTwo] : Integral ofNat(n) :=
  ⟨OfNat.ofNat n, (Int.cast_ofNat n).symm⟩

@[simp] theorem natCast (n : ℕ) : Integral n := ⟨n, (Int.cast_natCast n).symm⟩

@[simp] theorem intCast (k : ℤ) : Integral k := ⟨k, rfl⟩

@[simp] theorem add (hx : Integral x) (hy : Integral y) : Integral (x + y) := by
  obtain ⟨k, rfl⟩ := hx
  obtain ⟨l, rfl⟩ := hy
  exact ⟨k + l, (Int.cast_add k l).symm⟩

@[simp] theorem sub (hx : Integral x) (hy : Integral y) : Integral (x - y) := by
  obtain ⟨k, rfl⟩ := hx
  obtain ⟨l, rfl⟩ := hy
  exact ⟨k - l, (Int.cast_sub k l).symm⟩

@[simp] theorem neg (hx : Integral x) : Integral (-x) := by
  obtain ⟨k, rfl⟩ := hx
  exact ⟨-k, (Int.cast_neg k).symm⟩

@[simp] theorem mul (hx : Integral x) (hy : Integral y) : Integral (x * y) := by
  obtain ⟨k, rfl⟩ := hx
  obtain ⟨l, rfl⟩ := hy
  exact ⟨k * l, (Int.cast_mul k l).symm⟩

@[simp] theorem max (hx : Integral x) (hy : Integral y) : Integral (max x y) := by
  obtain h | h := max_choice x y <;> rwa [h]

theorem foldl_max {xs : List ℚ} (hx : Integral x) (h : ∀ y ∈ xs, Integral y) :
    Integral (xs.foldl Scalar.max x) := by
  induction xs generalizing x with
  | nil => exact hx
  | cons y rest ih =>
    obtain ⟨hy, hrest⟩ := List.forall_mem_cons.1 h
    exact ih (hx.max hy) hrest

/-- No integer lies strictly between two neighbours. -/
theorem add_one_le (hx : Integral x) (hy : Integral y) (h : x < y) : x + 1 ≤ y := by
  obtain ⟨k, rfl⟩ := hx
  obtain ⟨l, rfl⟩ := hy
  have hlt : k < l := Int.cast_lt.1 h
  exact_mod_cast hlt

/-- An integer that is not zero is at least one, up to its sign. -/
theorem one_le_abs (h : Integral x) (hx : x ≠ 0) : 1 ≤ |x| := by
  obtain ⟨k, rfl⟩ := h
  exact_mod_cast Int.one_le_abs (Int.cast_ne_zero.1 hx)

/-- The half of a positive integer, rounded down, is less than it. -/
theorem floor_half_lt (h : Integral x) (hpos : 0 < x) : (⌊x / 2⌋ : ℚ) + 1 ≤ x := by
  refine (intCast _).add_one_le h ?_
  have hle := Int.floor_le (x / 2)
  linarith

end Integral

/-! ## Whole numbers -/

/-- The number is a natural number. -/
def Whole (x : ℚ) : Prop := ∃ n : ℕ, x = n

theorem Integral.whole {x : ℚ} (h : Integral x) (hx : 0 ≤ x) : Whole x := by
  obtain ⟨k, rfl⟩ := h
  obtain ⟨n, rfl⟩ := Int.eq_ofNat_of_zero_le (Int.cast_nonneg_iff.1 hx)
  exact ⟨n, Int.cast_natCast n⟩

namespace Whole

variable {x y : ℚ}

theorem integral (h : Whole x) : Integral x := by
  obtain ⟨n, rfl⟩ := h
  exact .natCast n

theorem add (hx : Whole x) (hy : Whole y) : Whole (x + y) := by
  obtain ⟨m, rfl⟩ := hx
  obtain ⟨n, rfl⟩ := hy
  exact ⟨m + n, (Nat.cast_add m n).symm⟩

/-- Whole numbers are what a conversion to cells leaves as they are. -/
theorem convert (h : Whole x) {convert : ℚ → ℕ} (hconvert : ∀ n : ℕ, convert n = n) :
    (convert x : ℚ) = x := by
  obtain ⟨n, rfl⟩ := h
  rw [hconvert]

end Whole

/-! ## Character cells -/

/-- The distances of character cells. The two character sets have them in common. -/
structure Spacing.Gridded (c : Spacing ℚ) : Prop where
  labelPaddingX : c.labelPaddingX = 2
  labelPaddingY : c.labelPaddingY = 1
  labelRadius : c.labelRadius = 0
  sequenceGap : c.sequenceGap = 2
  branchGap : c.branchGap = 1
  branchIndent : c.branchIndent = 4
  curveRadius : c.curveRadius = 1
  nearThreshold : c.nearThreshold = 1
  groupPadding : c.groupPadding = 2
  captionGap : c.captionGap = 0
  terminalRadius : c.terminalRadius = 0
  terminalStub : c.terminalStub = 2
  margin : c.margin = 1
  strokeInset : c.strokeInset = 1
  snap : c.snap = true

theorem CharacterSet.gridded_spacing (set : CharacterSet) : (set.spacing : Spacing ℚ).Gridded := by
  cases set <;> constructor <;>
    simp only [spacing, Spacing.asciiCells, Spacing.cells, rational_zero, rational_one,
      rational_numeral]

/-- Every position that is rounded is whole. -/
theorem Spacing.Gridded.snapped {c : Spacing ℚ} (hc : c.Gridded) (x : ℚ) : c.snapped x = ⌊x⌋ := by
  rw [Spacing.snapped, if_pos hc.snap, rational_floor]

/-- The extents of texts are integers. -/
def Measure.Integral (m : Measure ℚ) : Prop :=
  ∀ text, RegexDiagram.Integral (m.extent text).width ∧ RegexDiagram.Integral (m.extent text).height ∧
    RegexDiagram.Integral (m.extent text).baseline

/-- A text takes whole cells, and none at all if it cannot be measured. -/
theorem Measure.integral_cells [TerminalWidths] : (cells : Measure ℚ).Integral := by
  intro text
  rw [extent, cells]
  cases refuseControl text with
  | error failure => exact ⟨⟨0, rfl⟩, ⟨0, rfl⟩, ⟨0, rfl⟩⟩
  | ok _ => exact ⟨⟨columns text, rfl⟩, ⟨1, rfl⟩, ⟨0, rfl⟩⟩

end RegexDiagram
