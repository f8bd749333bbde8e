import RegexDiagram.Proofs.Canvas.LineCells
import RegexDiagram.Proofs.Drawing.Routes
import RegexDiagram.Proofs.Drawing.Vacant

/-!
# Lines that leave their cells

A construct that leads its track to a vacant part in the last place draws a line in the row below its box
or in the column behind it (`Fragment.Spills`): the empty box of the vacant part has no row and no column
for the track. Every tree with such a construct has a fragment whose line leaves its cells
(`treeClosed_spills`).
-/

namespace RegexDiagram

open Pattern Canvas

theorem Whole.cell {x : ℚ} (h : Whole x) : (Scalar.cell x : ℚ) = x := by
  obtain ⟨n, rfl⟩ := h
  rw [cell_natCast]

theorem Whole.cell_ne {x y : ℚ} (hx : Whole x) (hy : Whole y) (h : x ≠ y) :
    Scalar.cell x ≠ Scalar.cell y := fun heq => h (by rw [← hx.cell, ← hy.cell, heq])

/-- Wherever the corner of the fragment lies, one of its own lines runs below its box or behind it. -/
def Fragment.Spills (f : Fragment ℚ) : Prop :=
  ∀ corner : Point ℚ, corner.Whole → ∃ s ∈ f.shapes, ∃ x y : ℕ, LineThrough (s.draws corner) x y ∧
    (corner.x + f.box.width ≤ x ∨ corner.y + f.box.height ≤ y)

/-- A level track between two columns goes through the second. -/
theorem lineThrough_track {corner : Point ℚ} (hcorner : corner.Whole) {a b y : ℚ} (ha : Whole a)
    (hb : Whole b) (hy : Whole y) (hne : a ≠ b) :
    ∃ column row : ℕ, LineThrough ((Shape.track ⟨a, y⟩ ⟨b, y⟩).draws corner) column row ∧
      (column : ℚ) = corner.x + b ∧ (row : ℚ) = corner.y + y := by
  have hlevel := lineThrough_level (p := corner.translate a y) (q := corner.translate b y) rfl
    ((hcorner.x.add ha).cell_ne (hcorner.x.add hb) fun heq => hne (add_left_cancel heq))
  exact ⟨_, _, LineThrough.append.2 (.inl hlevel), (hcorner.x.add hb).cell, (hcorner.y.add hy).cell⟩

namespace Railroad

variable {c : Spacing ℚ} {m : Measure ℚ}

@[simp] theorem box_empty : (Box.empty : Box ℚ) = ⟨0, 0, 0, 0, 0, 0, 0⟩ := by
  simp [Box.empty, Box.ofRect]

/-! ## Constructs with a vacant part -/

/-- The last connector of a row leads to its last item, from one before it. -/
theorem last_rowConnectors (track : ℚ) {R : Placed ℚ → Placed ℚ → Prop} {placed : List (Placed ℚ)}
    (h : placed.Pairwise R) (htwo : 2 ≤ placed.length) {last : Placed ℚ}
    (hlast : placed.getLast? = some last) :
    ∃ a ∈ placed, R a last ∧
      Shape.track ⟨a.box.exit, track⟩ ⟨last.box.entry, track⟩ ∈ rowConnectors track placed := by
  induction placed with
  | nil => exact nomatch hlast
  | cons a rest ih =>
    obtain ⟨hbefore, hrest⟩ := List.pairwise_cons.1 h
    match rest, htwo, hlast, ih, hbefore, hrest with
    | [b], _, hlast, _, hbefore, _ =>
      obtain rfl := Option.some.inj hlast
      exact ⟨a, .head _, hbefore _ (.head _), .head _⟩
    | b :: d :: more, _, hlast, ih, _, hrest =>
      obtain ⟨e, he, hR, hmem⟩ := ih hrest (Nat.le_add_left 2 _) hlast
      exact ⟨e, .tail _ he, hR, .tail _ hmem⟩

/-- The connector to a branch below the middle ends at the height of the branch, behind a bend. -/
theorem bend_branchConnectors (hc : c.Gridded) {b : Box ℚ} {mid : ℚ} (h : mid + 1 ≤ b.track)
    (htrack : Whole b.track) (right : ℚ) :
    ∃ there ∈ branchConnectors c b mid right, ∀ corner : Point ℚ, corner.Whole →
      ∃ x y : ℕ, LineThrough (there.draws corner) x y ∧ (y : ℚ) = corner.y + b.track := by
  have hfar : ∃ back, branchConnectors c b mid right = [.connector
      [.moveTo ⟨0, mid⟩, .quadTo ⟨1, mid⟩ ⟨1, mid + 1⟩, .lineTo ⟨1, b.track - 1⟩,
       .quadTo ⟨1, b.track⟩ ⟨2, b.track⟩, .lineTo ⟨b.entry, b.track⟩], back] := by
    obtain ⟨hlevel, -⟩ | ⟨-, hnear, -⟩ | ⟨way, hway, hpaths⟩ := branchConnectors_cases hc b mid right
    · linarith
    · obtain ⟨-, hhigh⟩ := abs_lt.1 hnear
      linarith
    · obtain ⟨rfl, -⟩ | ⟨-, hup⟩ := hway
      · exact ⟨_, hpaths⟩
      · linarith
  obtain ⟨back, hfar⟩ := hfar
  rw [hfar]
  refine ⟨_, .head _, fun corner hcorner => ?_⟩
  obtain ⟨x, y, hline, -, hy⟩ := lineThrough_track hcorner ⟨1, rfl⟩ ⟨2, rfl⟩ htrack (by norm_num)
  -- the bend comes behind the bend out of the middle and the upright run
  obtain hline | hline := LineThrough.append.1 hline
  · refine ⟨x, y, ?_, hy⟩
    iterate 4 refine LineThrough.append.2 (.inr ?_)
    exact LineThrough.append.2 (.inl hline)
  · exact absurd hline (not_lineThrough_nil _ _)

section Parts

variable {first second : Fragment ℚ} {rest : List (Fragment ℚ)} {last : Fragment ℚ} (hc : c.Gridded)
  (hample : c.Ample) (h : ∀ f ∈ first :: second :: rest, f.box.Attached)
  (hintegral : ∀ f ∈ first :: second :: rest, f.box.Integral)
  (hlast : (first :: second :: rest).getLast? = some last) (hempty : last.box = .empty)
include hc hample h hintegral hlast hempty

/-- A sequence whose last item is vacant leads its track behind its last column. -/
theorem spills_sequence : (sequence c (first :: second :: rest)).Spills := by
  have hfragments := row_fragments c (rowTrack (first :: second :: rest)) 0 (first :: second :: rest)
  obtain ⟨p, hp, rfl⟩ := exists_last_placed hfragments hlast
  obtain ⟨-, hwidth, -⟩ := last_within h hp
  have hspaced := spaced_row hample (rowTrack (first :: second :: rest)) 0 h
  have htwo : 2 ≤ (row c (rowTrack (first :: second :: rest)) 0 (first :: second :: rest)).1.length := by
    rw [← List.length_map (fun p : Placed ℚ => p.fragment), hfragments]
    exact Nat.le_add_left 2 _
  obtain ⟨a, ha, hbefore, hmem⟩ := last_rowConnectors (rowTrack (first :: second :: rest))
    hspaced.ordered htwo hp
  have hplaced := (integral_row hc (integral_rowTrack hintegral) .zero hintegral).1
  have hbox := h _ (row_placed _ _ _ a ha).1
  have hleft := (hspaced.between a ha).1
  have hexit : a.box.exit = a.fragment.box.exit + a.offset.x := rfl
  have hentry : p.box.entry = p.offset.x := by
    simp only [Placed.box, Box.translate, hempty, box_empty, zero_add]
  rw [hc.sequenceGap] at hbefore
  obtain ⟨hinside, hgap⟩ := And.intro hbox.exit_nonneg hbox.exit
  have hstart : Whole a.box.exit := (hplaced a ha).translate.exit.whole (by linarith)
  have hend : Whole p.box.entry :=
    (hplaced p (List.mem_of_getLast? hp)).translate.entry.whole (by linarith)
  have hrun : Whole (rowTrack (first :: second :: rest)) :=
    (integral_rowTrack hintegral).whole (rational_zero ▸ le_foldl_max _ _)
  intro corner hcorner
  obtain ⟨x, y, hline, hx, -⟩ := lineThrough_track hcorner hstart hend hrun (by linarith)
  refine ⟨_, hmem, x, y, hline, .inl ?_⟩
  rw [hx, hentry, ← hwidth, hempty, box_empty, add_zero]

/-- An alternation whose last branch is vacant leads its track below its last row. -/
theorem spills_alternatives : (alternatives c (first :: second :: rest)).Spills := by
  obtain ⟨p, hp, rfl⟩ := exists_last_placed (stack_fragments c _ 0 (first :: second :: rest)) hlast
  obtain ⟨-, hbelow, hheight⟩ := last_branch hc hample h hp
  have hmiddle := middle_above hc hample h hp hintegral
  have htrack : p.box.track = branchesHeight c (first :: second :: rest) := by
    simp only [Placed.box, Box.translate, hempty, box_empty, zero_add]
    rw [← hheight, hempty, box_empty, add_zero]
  have hrun : Whole p.box.track := by
    rw [htrack]
    exact (integral_branchesHeight hc hintegral).whole (le_max_right _ _)
  obtain ⟨there, hthere, hline⟩ := bend_branchConnectors hc (hmiddle.trans_eq htrack.symm) hrun
    (widest (first :: second :: rest) + 2 * c.branchIndent - c.strokeInset)
  intro corner hcorner
  obtain ⟨x, y, hcovers, hy⟩ := hline corner hcorner
  refine ⟨there, List.mem_flatMap.2 ⟨p, List.mem_of_getLast? hp, hthere⟩, x, y, hcovers, .inr ?_⟩
  rw [hy, htrack]
  exact le_rfl

end Parts

/-- The items of a sequence, two or more. -/
theorem spills_series (hc : c.Gridded) (hample : c.Ample) {fragments : List (Fragment ℚ)}
    (htwo : 2 ≤ fragments.length) (h : ∀ f ∈ fragments, f.box.Attached)
    (hintegral : ∀ f ∈ fragments, f.box.Integral) {last : Fragment ℚ}
    (hlast : fragments.getLast? = some last) (hempty : last.box = .empty) :
    (sequence c fragments).Spills := by
  match fragments, htwo, h, hintegral, hlast with
  | first :: second :: rest, _, h, hintegral, hlast =>
    exact spills_sequence hc hample h hintegral hlast hempty

theorem mem_descendants_sequence {fragments : List (Fragment ℚ)} {f g : Fragment ℚ} (hf : f ∈ fragments)
    (hg : g ∈ f.descendants) : g ∈ (sequence c fragments).descendants := by
  match fragments, hf with
  | [only], hf =>
    obtain rfl := List.mem_singleton.1 hf
    exact hg
  | first :: second :: rest, hf =>
    refine Fragment.mem_descendants_part ?_ hg
    simp only [sequence, row_fragments]
    exact hf

theorem mem_descendants_alternatives {branches : List (Fragment ℚ)} {f g : Fragment ℚ} (hf : f ∈ branches)
    (hg : g ∈ f.descendants) : g ∈ (alternatives c branches).descendants := by
  refine Fragment.mem_descendants_part ?_ hg
  simp only [alternatives, stack_fragments]
  exact hf

/-- A repetition of a vacant part without a path back leads its track below its last row. -/
theorem spills_repetition (hc : c.Gridded) (hample : c.Ample) (m : Measure ℚ) {r : Repetition} (hloop : r.canRepeat = false)
    {inner : Fragment ℚ} (hempty : inner.box = .empty) : (repetition c m r inner).Spills := by
  have hcaption : lapCaption c m r inner = none := by
    rw [lapCaption, hloop]
    rfl
  have hheight : (repetition c m r inner).box.height = lapTrack c r inner := by
    rw [box_repetition, Box.sized, repetitionHeight, hcaption, lapHeight, hloop, lapTrack, hempty,
      box_empty]
    rfl
  have hleft : lapLeft c inner = 2 := by
    rw [lapLeft, hempty, box_empty, hc.curveRadius, rational_numeral, add_zero, mul_one]
  have htrack : Whole (lapTrack c r inner) := by
    have hbox : inner.box.Integral := by
      rw [hempty, box_empty]
      exact ⟨.zero, .zero, .zero, .zero, .zero, .zero, .zero⟩
    refine ((integral_rise r hc hbox).add hbox.track).whole ?_
    rw [hempty, box_empty, add_zero]
    exact rise_nonneg r inner hample
  have htwo : Whole 2 := ⟨2, rfl⟩
  have hmem : Shape.track ⟨0, lapTrack c r inner⟩ ⟨2, lapTrack c r inner⟩ ∈
      (repetition c m r inner).shapes := by
    rw [shapes_repetition, hleft, rational_zero]
    exact .head _
  intro corner hcorner
  obtain ⟨x, y, hline, -, hy⟩ := lineThrough_track hcorner ⟨0, rfl⟩ htwo htrack (by norm_num)
  exact ⟨_, hmem, x, y, hline, .inr (by rw [hy, hheight])⟩

end Railroad

namespace Pattern

variable {c : Spacing ℚ} {m : Measure ℚ}

theorem spills_member {member : Member} {v : View} (hv : v ∈ member.views) : v.spills = false := by
  cases member with
  | single atom =>
    obtain rfl := List.mem_singleton.1 hv
    rfl
  | range span first last =>
    simp only [Member.views, List.mem_cons, List.not_mem_nil, or_false] at hv
    obtain rfl | rfl | rfl := hv <;> rfl

theorem not_spills_of_mem {v only : View} (hv : v ∈ [only]) (h : only.spills = false) : ¬ v.spills = true := by
  rw [List.mem_singleton.1 hv, h]
  exact Bool.false_ne_true

/-! ## Fragments of parts -/

/-- The fragments of an atom are among those of the atom with its quantifier. -/
theorem mem_descendants_quantified {span : Span} {atom : Node} {r : Repetition} {n : Nat}
    {g : Fragment ℚ} (hg : g ∈ (atom.fragment c m n).descendants) :
    g ∈ ((Node.quantified span atom r).fragment c m n).descendants := by
  rw [Node.fragment]
  split
  · exact hg
  · exact Fragment.mem_descendants_part (List.mem_singleton_self _) hg

theorem mem_descendants_group {span : Span} {kind : GroupKind} {content : Alternation} {n : Nat}
    {g : Fragment ℚ}
    (hg : g ∈ (content.fragment c m (if kind.isCapturing then n + 1 else n)).descendants) :
    g ∈ ((Node.group span kind content).fragment c m n).descendants := by
  rw [Node.fragment]
  split
  · exact Fragment.mem_descendants_part (List.mem_singleton_self _) hg
  · exact hg

/-- A branch has its fragments in the alternation, whatever groups come before it. -/
theorem exists_mem_descendants_branch (span : Span) {branches : List Sequence} {b : Sequence}
    (hb : b ∈ branches) (n : Nat) :
    ∃ n', ∀ g ∈ (b.fragment c m n').descendants,
      g ∈ ((⟨span, branches⟩ : Alternation).fragment c m n).descendants := by
  obtain ⟨n', hmem⟩ := exists_mem_branchFragments c m n hb
  refine ⟨n', fun g hg => ?_⟩
  cases branches with
  | nil => exact absurd hb List.not_mem_nil
  | cons first rest =>
    cases rest with
    | nil =>
      rw [List.mem_singleton.1 hmem] at hg
      exact hg
    | cons second more => exact Railroad.mem_descendants_alternatives hmem hg

/-- An item has its fragments in the sequence, unless it is a literal, which may share a label. -/
theorem exists_mem_descendants_item (span : Span) {items : List Node} {i : Node} (hi : i ∈ items)
    (hne : ∀ span value, i ≠ .literal span value) (n : Nat) :
    ∃ n', ∀ g ∈ (i.fragment c m n').descendants,
      g ∈ ((⟨span, items⟩ : Sequence).fragment c m n).descendants := by
  obtain ⟨n', hmem⟩ := exists_mem_itemFragments c m n none hi hne
  refine ⟨n', fun g hg => ?_⟩
  rw [Sequence.fragment]
  exact Railroad.mem_descendants_sequence hmem hg

/-! ## Trees -/

section Own

variable (hc : c.Gridded) (hample : c.Ample)
include hc hample

theorem spills_quantified {span : Span} {atom : Node} {r : Repetition}
    (h : (View.node (.quantified span atom r)).spills = true) (n : Nat) :
    ((Node.quantified span atom r).fragment c m n).Spills := by
  simp only [View.spills, Bool.and_eq_true, Bool.not_eq_true'] at h
  obtain ⟨⟨honce, hloop⟩, hvacant⟩ := h
  have hempty := (treeClosed_box_of_isVacant c m).node atom hvacant n
  rw [Node.fragment, if_neg (Bool.eq_false_iff.1 honce)]
  exact Railroad.spills_repetition hc hample m hloop hempty

variable (hm : m.NonNegative) (hintegral : m.Integral)
include hm hintegral

theorem spills_branches {span : Span} {branches : List Sequence}
    (h : (View.alternation ⟨span, branches⟩).spills = true) (n : Nat) :
    ((⟨span, branches⟩ : Alternation).fragment c m n).Spills := by
  have hregular := regular_branches hc hample hm hintegral n branches
  rw [View.spills, Bool.and_eq_true, decide_eq_true_eq, Option.any_eq_true] at h
  obtain ⟨htwo, last, hlast, hvacant⟩ := h
  obtain ⟨n', hfragment⟩ := getLast?_branchFragments c m n hlast
  have hempty := (treeClosed_box_of_isVacant c m).sequence last hvacant n'
  cases branches with
  | nil => exact absurd htwo (Nat.not_succ_le_zero 1)
  | cons first more =>
    cases more with
    | nil => exact absurd htwo (Nat.not_succ_le_self 1)
    | cons second rest =>
      exact Railroad.spills_alternatives hc hample (fun f hf => (hregular f hf).1.attached)
        (fun f hf => (hregular f hf).2.box) hfragment hempty

theorem spills_items {span : Span} {items : List Node}
    (h : (View.sequence ⟨span, items⟩).spills = true) (n : Nat) :
    ((⟨span, items⟩ : Sequence).fragment c m n).Spills := by
  have hregular := regular_items hc hample hm hintegral n items
  rw [View.spills, Bool.and_eq_true, decide_eq_true_eq, Option.any_eq_true] at h
  obtain ⟨htwo, last, hlast, hvacant⟩ := h
  obtain ⟨front, n', heq, hfront⟩ := itemFragments_concat c m n none hlast
    (Node.ne_literal_of_isVacant hvacant)
  have hempty := (treeClosed_box_of_isVacant c m).node last hvacant n'
  refine Railroad.spills_series hc hample ?_ (fun f hf => (hregular f hf).1.attached)
    (fun f hf => (hregular f hf).2.box) ?_ hempty
  · rw [heq, List.length_append]
    exact Nat.succ_le_succ (List.length_pos_of_ne_nil (hfront (.inr htwo)))
  · rw [heq, List.getLast?_concat]

end Own

/-- Where a construct leads its track to a vacant part in the last place, a line leaves its cells. -/
theorem treeClosed_spills (hc : c.Gridded) (hample : c.Ample) (hm : m.NonNegative) (hintegral : m.Integral) :
    TreeClosed
      (fun node => ∀ v ∈ node.views, v.spills = true →
        ∀ n, ∃ g ∈ (node.fragment c m n).descendants, g.Spills)
      (fun a => ∀ v ∈ a.views, v.spills = true → ∀ n, ∃ g ∈ (a.fragment c m n).descendants, g.Spills)
      (fun s => ∀ v ∈ s.views, v.spills = true → ∀ n, ∃ g ∈ (s.fragment c m n).descendants, g.Spills) where
  literal _ _ v hv h := absurd h (not_spills_of_mem hv rfl)
  escape _ _ v hv h := absurd h (not_spills_of_mem hv rfl)
  anchor _ _ v hv h := absurd h (not_spills_of_mem hv rfl)
  wildcard _ v hv h := absurd h (not_spills_of_mem hv rfl)
  charset span negated members v hv h := by
    obtain rfl | hv := List.mem_cons.1 hv
    · exact absurd h Bool.false_ne_true
    · obtain ⟨member, -, hv⟩ := List.mem_flatMap.1 hv
      exact absurd ((spills_member hv).symm.trans h) Bool.false_ne_true
  quantified span atom repetition hatom v hv h n := by
    obtain rfl | hv := List.mem_cons.1 hv
    · exact ⟨_, Fragment.mem_descendants_self _, spills_quantified hc hample h n⟩
    · obtain ⟨g, hg, hspills⟩ := hatom v hv h n
      exact ⟨g, mem_descendants_quantified hg, hspills⟩
  group span kind content hcontent v hv h n := by
    obtain rfl | hv := List.mem_cons.1 hv
    · exact absurd h Bool.false_ne_true
    · obtain ⟨g, hg, hspills⟩ := hcontent v hv h (if kind.isCapturing then n + 1 else n)
      exact ⟨g, mem_descendants_group hg, hspills⟩
  ofBranches span branches hbranches v hv h n := by
    rw [Alternation.views_eq] at hv
    obtain rfl | hv := List.mem_cons.1 hv
    · exact ⟨_, Fragment.mem_descendants_self _, spills_branches hc hample hm hintegral h n⟩
    · obtain ⟨b, hb, hv⟩ := List.mem_flatMap.1 hv
      obtain ⟨n', hsub⟩ := exists_mem_descendants_branch (c := c) (m := m) span hb n
      obtain ⟨g, hg, hspills⟩ := hbranches b hb v hv h n'
      exact ⟨g, hsub g hg, hspills⟩
  ofItems span items hitems v hv h n := by
    rw [Sequence.views_eq] at hv
    obtain rfl | hv := List.mem_cons.1 hv
    · exact ⟨_, Fragment.mem_descendants_self _, spills_items hc hample hm hintegral h n⟩
    · obtain ⟨i, hi, hv⟩ := List.mem_flatMap.1 hv
      have hne : ∀ span value, i ≠ .literal span value := by
        rintro span value rfl
        exact absurd h (not_spills_of_mem hv rfl)
      obtain ⟨n', hsub⟩ := exists_mem_descendants_item (c := c) (m := m) span hi hne n
      obtain ⟨g, hg, hspills⟩ := hitems i hi v hv h n'
      exact ⟨g, hsub g hg, hspills⟩

end Pattern

end RegexDiagram
