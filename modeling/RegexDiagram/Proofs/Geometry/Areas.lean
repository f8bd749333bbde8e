import RegexDiagram.Geometry.Box
import RegexDiagram.Proofs.Geometry.Exact
import Mathlib.Tactic.Linarith

/-!
# Areas

Rectangles of the plane that lie inside one another or apart. Two areas are apart if an upright or a
level line separates them, so they have no point in their interiors in common (`Apart.not_inside`),
and parts of areas that are apart are apart themselves (`Apart.mono`).
-/

namespace RegexDiagram

namespace Rect

/-- The area moved by the coordinates of a point. -/
def moved (r : Rect ℚ) (p : Point ℚ) : Rect ℚ := ⟨p.x + r.x, p.y + r.y, r.width, r.height⟩

/-- The area lies in another, edges included. -/
structure Within (r s : Rect ℚ) : Prop where
  left : s.x ≤ r.x
  top : s.y ≤ r.y
  right : r.right ≤ s.right
  bottom : r.bottom ≤ s.bottom

/-- A line separates the two areas. They may touch. -/
def Apart (r s : Rect ℚ) : Prop :=
  r.right ≤ s.x ∨ s.right ≤ r.x ∨ r.bottom ≤ s.y ∨ s.bottom ≤ r.y

/-- The point lies in the interior of the area. -/
def Inside (r : Rect ℚ) (p : Point ℚ) : Prop := r.x < p.x ∧ p.x < r.right ∧ r.y < p.y ∧ p.y < r.bottom

variable {r s t : Rect ℚ}

theorem within_mk {x y width height x' y' width' height' : ℚ} :
    Within ⟨x, y, width, height⟩ ⟨x', y', width', height'⟩ ↔
      x' ≤ x ∧ y' ≤ y ∧ x + width ≤ x' + width' ∧ y + height ≤ y' + height' :=
  ⟨fun ⟨hleft, htop, hright, hbottom⟩ => ⟨hleft, htop, hright, hbottom⟩,
    fun ⟨hleft, htop, hright, hbottom⟩ => ⟨hleft, htop, hright, hbottom⟩⟩

theorem apart_of_beside (h : r.right ≤ s.x) : r.Apart s := .inl h

theorem apart_of_above (h : r.bottom ≤ s.y) : r.Apart s := .inr (.inr (.inl h))

theorem Within.trans (h : r.Within s) (h' : s.Within t) : r.Within t :=
  ⟨h'.left.trans h.left, h'.top.trans h.top, h.right.trans h'.right, h.bottom.trans h'.bottom⟩

theorem within_moved (h : r.Within s) (p : Point ℚ) : (r.moved p).Within (s.moved p) := by
  obtain ⟨hleft, htop, hright, hbottom⟩ := h
  simp only [right, bottom] at hright hbottom
  constructor <;> simp only [moved, right, bottom] <;> linarith

theorem Apart.symm (h : r.Apart s) : s.Apart r := by
  rcases h with h | h | h | h
  · exact .inr (.inl h)
  · exact .inl h
  · exact .inr (.inr (.inr h))
  · exact .inr (.inr (.inl h))

/-- Parts of areas that are apart are apart. -/
theorem Apart.mono {r' s' : Rect ℚ} (h : r.Apart s) (hr : r'.Within r) (hs : s'.Within s) :
    r'.Apart s' := by
  rcases h with h | h | h | h
  · exact .inl (hr.right.trans (h.trans hs.left))
  · exact .inr (.inl (hs.right.trans (h.trans hr.left)))
  · exact .inr (.inr (.inl (hr.bottom.trans (h.trans hs.top))))
  · exact .inr (.inr (.inr (hs.bottom.trans (h.trans hr.top))))

theorem apart_moved (h : r.Apart s) (p : Point ℚ) : (r.moved p).Apart (s.moved p) := by
  rcases h with h | h | h | h <;> simp only [right, bottom] at h
  · left
    simp only [moved, right]
    linarith
  · right; left
    simp only [moved, right]
    linarith
  · right; right; left
    simp only [moved, bottom]
    linarith
  · right; right; right
    simp only [moved, bottom]
    linarith

/-- Areas that are apart have no inner point in common. -/
theorem Apart.not_inside (h : r.Apart s) (p : Point ℚ) : ¬ (r.Inside p ∧ s.Inside p) := by
  rintro ⟨⟨hrx, hrright, hry, hrbottom⟩, hsx, hsright, hsy, hsbottom⟩
  rcases h with h | h | h | h <;> linarith

end Rect

/-- The area of a box. -/
def Box.area (b : Box ℚ) : Rect ℚ := ⟨b.x, b.y, b.width, b.height⟩

end RegexDiagram
