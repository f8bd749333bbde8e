import RegexDiagram.Proofs.Canvas.Spills
import RegexDiagram.Proofs.Pattern.Built
import RegexDiagram.Text.Terminal

/-!
# Lines and their cells

Whether the lines of a fragment stay in the cells of its box. A fragment that keeps its own lines, and
has only such fragments in it, contains all of them, for the boxes of children lie in the box of the parent.
So the lines of a drawing leave their cells exactly if some construct spills (`read_contained`), and where
none does, no line of what is repeated runs in the row of the path back.
-/

namespace RegexDiagram

open Pattern Canvas

/-! ## Placements -/

section Placements

variable {α : Type} [Scalar α]

/-- What is placed with a fragment that is placed is placed. -/
theorem Fragment.placements_trans {f : Fragment α} {origin : Point α} {p q : Placed α}
    (hp : p ∈ f.placements origin) (hq : q ∈ p.fragment.placements p.offset) :
    q ∈ f.placements origin := by
  induction f using Fragment.induct generalizing origin with
  | h f ih =>
    rw [placements_eq] at hp ⊢
    obtain rfl | hp := List.mem_cons.1 hp
    · rwa [placements_eq] at hq
    · obtain ⟨child, hchild, hp⟩ := List.mem_flatMap.1 hp
      exact .tail _ (List.mem_flatMap.2 ⟨child, hchild, ih child hchild hp⟩)

/-- A child is placed with its parent. -/
theorem Fragment.child_mem_placements {f : Fragment α} {origin : Point α} {p q : Placed α}
    (hp : p ∈ f.placements origin) (hq : q ∈ p.fragment.children) :
    ⟨p.offset.translate q.offset.x q.offset.y, q.fragment⟩ ∈ f.placements origin := by
  refine placements_trans hp ?_
  rw [placements_eq]
  refine .tail _ (List.mem_flatMap.2 ⟨q, hq, ?_⟩)
  rw [Placed.under, placements_eq]
  exact .head _

/-- What is in a fragment is placed with it. -/
theorem Fragment.exists_placement {f g : Fragment α} (origin : Point α) (hg : g ∈ f.descendants) :
    ∃ p ∈ f.placements origin, p.fragment = g := by
  rw [← map_placements f origin] at hg
  exact List.mem_map.1 hg

end Placements

/-- If every fragment is orderly, everything lies in the box of the outermost one. -/
theorem Fragment.placements_within {stroke : ℚ} {f : Fragment ℚ}
    (h : ∀ g ∈ f.descendants, g.Orderly stroke) (origin : Point ℚ) :
    ∀ p ∈ f.placements origin, (p.fragment.box.area.moved p.offset).Within (f.box.area.moved origin) := by
  induction f using Fragment.induct generalizing origin with
  | h f ih =>
    obtain ⟨hf, hchildren⟩ := forall_descendants.1 h
    rw [placements_eq]
    refine List.forall_mem_cons.2 ⟨⟨le_rfl, le_rfl, le_rfl, le_rfl⟩, fun p hp => ?_⟩
    obtain ⟨child, hchild, hp⟩ := List.mem_flatMap.1 hp
    have hinner := ih child hchild (hchildren _ (List.mem_map_of_mem hchild)) _ p hp
    rw [area_child] at hinner
    exact hinner.trans (Rect.within_moved (hf.inside child hchild) origin)

/-! ## Containment -/

/-- The lines of the fragment and of all that is in it stay in the cells of its box, where it is placed. -/
def Placed.Contained (set : CharacterSet) (p : Placed ℚ) : Prop :=
  ∀ x y : ℕ, p.fragment.HasLine set p.offset x y →
    Rect.Within ⟨x, y, 1, 1⟩ (p.fragment.box.area.moved p.offset)

/-- No line of what is repeated runs in the row of the path back or below it. -/
def Placed.LoopsClear (set : CharacterSet) (p : Placed ℚ) : Prop :=
  ∀ r track bottom left right, Railroad.loopPath r track bottom left right ∈ p.fragment.shapes →
    ∀ q ∈ p.fragment.children, ∀ x y : ℕ,
      q.fragment.HasLine set (p.offset.translate q.offset.x q.offset.y) x y →
        (y : ℚ) < p.offset.y + bottom

/-- A fragment that keeps its own lines, as all do that are in it, contains all lines. -/
theorem Fragment.contained {f : Fragment ℚ} (set : CharacterSet) {origin : Point ℚ}
    (horigin : origin.Whole) (hkeeps : ∀ g ∈ f.descendants, g.Keeps)
    (hupright : ∀ g ∈ f.descendants, g.Upright) (hnumbers : ∀ g ∈ f.descendants, ∀ x ∈ g.numbers, Whole x) :
    ∀ p ∈ f.placements origin, p.Contained set := by
  intro p hp x y hline
  obtain ⟨⟨corner, s⟩, hs, hline⟩ := Fragment.hasLine_iff.1 hline
  obtain ⟨q, hq, rfl, hshape⟩ := Fragment.mem_shapesAt.1 hs
  have hplaced := placements_trans hp hq
  have hown := hupright _ (mem_descendants hplaced)
  have hinside : ∀ g ∈ p.fragment.descendants, g.Orderly 1 := by
    intro g hg
    obtain ⟨r, hr, rfl⟩ := exists_placement p.offset hg
    exact (hupright _ (mem_descendants (placements_trans hp hr))).orderly
  have hkept := hkeeps _ (mem_descendants hplaced)
  obtain ⟨⟨hleft, hright⟩, htop, hbottom⟩ := (hown.onCells (hnumbers _ (mem_descendants hplaced))
    hshape).line_within
    (placements_whole hnumbers horigin q hplaced)
    (fun r hr => hkept r (List.mem_flatMap.2 ⟨s, hshape, hr⟩)) hline
  refine Rect.Within.trans ?_ (placements_within hinside p.offset q hq)
  rw [Rect.moved, Box.area, hown.orderly.attached.x, hown.orderly.attached.y, Rect.within_mk]
  refine ⟨?_, ?_, ?_, ?_⟩ <;> linarith

/-- A line that leaves the cells of its own fragment is in none that contains its lines. -/
theorem Fragment.Spills.not_contained {p : Placed ℚ} (h : p.fragment.Spills) (hoffset : p.offset.Whole)
    (hbox : p.fragment.box.Attached) (set : CharacterSet) : ¬ p.Contained set := by
  intro hcontained
  obtain ⟨s, hs, x, y, hline, hout⟩ := h p.offset hoffset
  have hmem : (p.offset, s) ∈ p.fragment.shapesAt p.offset :=
    Fragment.mem_shapesAt.2 ⟨⟨p.offset, p.fragment⟩, placements_eq p.offset _ ▸ .head _, rfl, hs⟩
  obtain ⟨-, -, hright, hbottom⟩ := hcontained x y (Fragment.hasLine_iff.2 ⟨_, hmem, hline⟩)
  simp only [Rect.right, Rect.bottom, Rect.moved, Box.area, hbox.x, hbox.y] at hright hbottom
  rcases hout with hout | hout <;> linarith

namespace Pattern

/-- Trees without a vacant part in a last place are drawn with all lines in their cells, and no others. -/
theorem Root.contained_iff [TerminalWidths] {root : Root} (hroot : Branched root.alternation.views)
    (set : CharacterSet) :
    (∀ p ∈ (root.drawing (set.spacing : Spacing ℚ) .cells).fragment.placements .origin, p.Contained set) ↔
      ∀ v ∈ root.alternation.views, v.spills = false := by
  have hc := set.gridded_spacing
  have hample := set.ample_spacing
  have hnumbers := root.whole_fragments set
  have hupright := fun f hf => (root.integral_upright set f hf).2
  constructor
  · intro hcontained v hv
    by_contra hspills
    obtain ⟨g, hg, hspills⟩ := (treeClosed_spills hc hample Measure.nonNegative_cells
      Measure.integral_cells).alternation root.alternation v hv (Bool.eq_true_of_not_eq_false hspills) 0
    have hdrawn : g ∈ (root.drawing (set.spacing : Spacing ℚ) .cells).fragment.descendants :=
      Fragment.mem_descendants_part (List.mem_singleton_self _) hg
    obtain ⟨p, hp, rfl⟩ := Fragment.exists_placement .origin hdrawn
    exact hspills.not_contained (Fragment.placements_whole hnumbers Point.whole_origin p hp)
      (hupright _ hdrawn).orderly.attached set (hcontained p hp)
  · intro hspills
    have hcontent := (treeClosed_fits hc hample Measure.nonNegative_cells
      Measure.integral_cells).alternation root.alternation ⟨hroot, hspills⟩ 0
    have hattached := ((Railroad.drawnClosed_orderly hample Measure.nonNegative_cells).alternation
      root.alternation 0).attached
    exact Fragment.contained set Point.whole_origin (Fragment.forall_descendants.2
      ⟨Railroad.keeps_drawing hc hample Measure.nonNegative_cells root.flags hattached,
        List.forall_mem_singleton.2 hcontent.keeps⟩) hupright hnumbers

/-- Where all lines stay in their cells, the rows of the paths back are clear. -/
theorem Root.loopsClear [TerminalWidths] {root : Root} (set : CharacterSet)
    (h : ∀ p ∈ (root.drawing (set.spacing : Spacing ℚ) .cells).fragment.placements .origin,
      p.Contained set) :
    ∀ p ∈ (root.drawing (set.spacing : Spacing ℚ) .cells).fragment.placements .origin,
      p.LoopsClear set := by
  intro p hp r track bottom left right hloop q hq x y hline
  have habove := (Railroad.drawnClosed_aboveLoops set.gridded_spacing set.ample_spacing .cells).drawing root
    (fun content _ => Railroad.aboveLoops_drawing .cells root.flags content) _ (Fragment.mem_descendants hp)
  have hbottom := habove r track bottom left right hloop q hq
  have hchild := Fragment.child_mem_placements hp hq
  have hbox : q.fragment.box.Attached :=
    (root.integral_upright set _ (Fragment.mem_descendants hchild)).2.orderly.attached
  have hlast := (h _ hchild x y hline).bottom
  simp only [Rect.bottom, Rect.moved, Box.area, hbox.y, Point.translate] at hlast
  linarith

/-- **Lines stay in their cells, unless the part in a last place is vacant.** In character cells, the
lines of each fragment and of all that is in it lie in the columns and rows of its box exactly if the
pattern has no construct that leads its track to a vacant part in the last place: an empty branch behind
the others, an empty group at the end of a sequence, or an empty group that can be left out and not be
repeated. In such patterns no line of what is repeated runs in the row of its path back. -/
theorem read_contained [TerminalWidths] (input : List Char) (set : CharacterSet) :
    let root := (read input).root
    let placed := (root.drawing (set.spacing : Spacing ℚ) .cells).fragment.placements .origin
    ((∀ p ∈ placed, p.Contained set) ↔ ∀ v ∈ root.alternation.views, v.spills = false) ∧
      ((∀ v ∈ root.alternation.views, v.spills = false) → ∀ p ∈ placed, p.LoopsClear set) := by
  intro root placed
  have hiff := Root.contained_iff (read_branched input) set
  exact ⟨hiff, fun hspills => root.loopsClear set (hiff.2 hspills)⟩

/-- The connectors of the empty branch run in the row of the path back. -/
theorem emptyBranch_on_loop :
    ¬ (∀ p ∈ ((read "(?:a|)*".toList).root.drawing ((.unicode : CharacterSet).spacing : Spacing ℚ)
        .cells).fragment.placements .origin, p.Contained .unicode) ∧
      ¬ ∀ p ∈ ((read "(?:a|)*".toList).root.drawing ((.unicode : CharacterSet).spacing : Spacing ℚ)
        .cells).fragment.placements .origin, p.LoopsClear .unicode := by
  have hmeet : ∃ p ∈ ((read "(?:a|)*".toList).root.drawing ((.unicode : CharacterSet).spacing : Spacing ℚ)
      .cells).fragment.placements .origin, Railroad.loopPath 1 3 5 2 16 ∈ p.fragment.shapes ∧
        ∃ q ∈ p.fragment.children, p.offset.y + 5 ≤ (6 : ℕ) ∧
          (paintFragment (paintShapeLines .unicode) (p.offset.translate q.offset.x q.offset.y)
            (Grid.blank 0 0) q.fragment).sidesAt 7 6 ≠ 0 := by
    decide +kernel
  obtain ⟨p, hp, hloop, q, hq, hrow, hline⟩ := hmeet
  have hcollides : ¬ ∀ p ∈ ((read "(?:a|)*".toList).root.drawing
      ((.unicode : CharacterSet).spacing : Spacing ℚ) .cells).fragment.placements .origin,
        p.LoopsClear .unicode := fun hclear =>
    absurd hrow (not_le.2 (hclear p hp 1 3 5 2 16 hloop q hq 7 6 hline))
  exact ⟨fun hcontained => hcollides (Root.loopsClear .unicode hcontained), hcollides⟩

end Pattern

end RegexDiagram
