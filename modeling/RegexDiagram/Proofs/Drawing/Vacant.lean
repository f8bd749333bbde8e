import RegexDiagram.Proofs.Drawing.Inset
import RegexDiagram.Proofs.Drawing.Routes

/-!
# Vacant parts

A part of a pattern that draws nothing, such as an empty branch: a sequence without items, and whatever
stands for it, a group without a caption or a repetition that happens once. It is drawn as an empty box
(`box_of_isVacant`). A construct that has such a part in the last place leads its track to a row or a
column that the empty box does not have: `View.spills` names the constructs whose lines leave their
cells. They are the only ones.
-/

namespace RegexDiagram.Pattern

/-! ## Trees -/

mutual

/-- Nothing is drawn for the node. -/
def Node.isVacant : Node → Bool
  | .group _ .nonCapturing content => content.isVacant
  | .quantified _ atom repetition => repetition.isOnce && atom.isVacant
  | _ => false

/-- Nothing is drawn for the alternation: its only branch is vacant. -/
def Alternation.isVacant : Alternation → Bool
  | ⟨_, [only]⟩ => only.isVacant
  | _ => false

/-- Nothing is drawn for the sequence: it is empty, or its only item is vacant. -/
def Sequence.isVacant : Sequence → Bool
  | ⟨_, []⟩ => true
  | ⟨_, [only]⟩ => only.isVacant
  | _ => false

end

/-- The construct leads its track to a vacant part in the last place: to the last of several branches or
items, or to what is repeated without a path back. -/
def View.spills : View → Bool
  | .alternation a => decide (2 ≤ a.branches.length) && a.branches.getLast?.any Sequence.isVacant
  | .sequence s => decide (2 ≤ s.items.length) && s.items.getLast?.any Node.isVacant
  | .node (.quantified _ atom repetition) =>
    !repetition.isOnce && !repetition.canRepeat && atom.isVacant
  | _ => false

/-! ## Lists of parts -/

section Lists

variable {α : Type} [Scalar α] (c : Spacing α) (m : Measure α)

/-- The last of the branches is drawn last. -/
theorem getLast?_branchFragments (n : Nat) {branches : List Sequence} {last : Sequence}
    (h : branches.getLast? = some last) :
    ∃ n', (branchFragments c m n branches).getLast? = some (last.fragment c m n') := by
  induction branches generalizing n with
  | nil => exact nomatch h
  | cons branch rest ih =>
    cases rest with
    | nil =>
      obtain rfl := Option.some.inj h
      exact ⟨n, rfl⟩
    | cons second more => exact ih (n + branch.captures) h

theorem exists_mem_branchFragments (n : Nat) {branches : List Sequence} {b : Sequence}
    (h : b ∈ branches) : ∃ n', b.fragment c m n' ∈ branchFragments c m n branches := by
  induction branches generalizing n with
  | nil => exact absurd h List.not_mem_nil
  | cons branch rest ih =>
    obtain rfl | hrest := List.mem_cons.1 h
    · exact ⟨n, .head _⟩
    · obtain ⟨n', hmem⟩ := ih (n + branch.captures) hrest
      exact ⟨n', .tail _ hmem⟩

theorem exists_mem_itemFragments (n : Nat) (run : Option (List Char)) {items : List Node} {i : Node}
    (h : i ∈ items) (hi : ∀ span value, i ≠ .literal span value) :
    ∃ n', i.fragment c m n' ∈ itemFragments c m n run items := by
  induction items generalizing n run with
  | nil => exact absurd h List.not_mem_nil
  | cons item rest ih =>
    obtain rfl | hrest := List.mem_cons.1 h
    · rw [itemFragments_cons_other c m n run rest hi]
      exact ⟨n, List.mem_append_right _ (.head _)⟩
    · obtain ⟨n', hmem⟩ := ih (n + item.captures) none hrest
      obtain ⟨span, value, rfl⟩ | hother := item.literal_or_other
      · exact ih n _ hrest
      · rw [itemFragments_cons_other c m n run rest hother]
        exact ⟨n', List.mem_append_right _ (.tail _ hmem)⟩

/-- A single item is drawn as it is. -/
theorem fragment_single (span : Span) (only : Node) (n : Nat) :
    Sequence.fragment c m n ⟨span, [only]⟩ = only.fragment c m n := by
  cases only <;> rfl

/-- The last item is drawn last, unless it is a literal, which may be the end of a longer label. -/
theorem getLast?_itemFragments (n : Nat) (run : Option (List Char)) {items : List Node} {last : Node}
    (h : items.getLast? = some last) :
    ∃ f, (itemFragments c m n run items).getLast? = some f ∧
      ((∃ value, f = Railroad.literalBox c m value) ∨ ∃ n', f = last.fragment c m n') := by
  induction items generalizing n run with
  | nil => exact nomatch h
  | cons item rest ih =>
    cases rest with
    | nil =>
      obtain rfl := Option.some.inj h
      obtain ⟨span, value, rfl⟩ | hother := item.literal_or_other
      · exact ⟨_, rfl, .inl ⟨_, rfl⟩⟩
      · rw [itemFragments_cons_other c m n run [] hother]
        exact ⟨_, List.getLast?_concat, .inr ⟨n, rfl⟩⟩
    | cons second more =>
      obtain ⟨f, hf, hown⟩ := ih (n + item.captures) none h
      obtain ⟨span, value, rfl⟩ | hother := item.literal_or_other
      · exact ih n _ h
      · refine ⟨f, ?_, hown⟩
        rw [itemFragments_cons_other c m n run _ hother, List.getLast?_append, List.getLast?_cons, hf]
        rfl

/-- A last item that is no literal has a fragment of its own, behind those of the items before it. -/
theorem itemFragments_concat (n : Nat) (run : Option (List Char)) {items : List Node} {last : Node}
    (h : items.getLast? = some last) (hlast : ∀ span value, last ≠ .literal span value) :
    ∃ front n', itemFragments c m n run items = front ++ [last.fragment c m n'] ∧
      (run.isSome ∨ 2 ≤ items.length → front ≠ []) := by
  induction items generalizing n run with
  | nil => exact nomatch h
  | cons item rest ih =>
    cases rest with
    | nil =>
      obtain rfl := Option.some.inj h
      have hrun : run.isSome ∨ 2 ≤ [item].length → runFragments c m run ≠ [] := by
        rintro (hrun | htwo)
        · obtain ⟨value, rfl⟩ := Option.isSome_iff_exists.1 hrun
          exact List.cons_ne_nil _ _
        · exact absurd htwo (by simp)
      exact ⟨_, n, itemFragments_cons_other c m n run [] hlast, hrun⟩
    | cons second more =>
      obtain ⟨front, n', heq, -⟩ := ih (n + item.captures) none h
      have hne : runFragments c m run ++ item.fragment c m n :: front ≠ [] :=
        List.append_ne_nil_of_right_ne_nil _ (List.cons_ne_nil _ _)
      obtain ⟨span, value, rfl⟩ | hother := item.literal_or_other
      · obtain ⟨longer, n', heq, hfront⟩ := ih n (some (run.getD [] ++ value)) h
        exact ⟨longer, n', heq, fun _ => hfront (.inl rfl)⟩
      · refine ⟨_, n', ?_, fun _ => hne⟩
        rw [itemFragments_cons_other c m n run _ hother, heq, List.append_assoc, List.cons_append]

end Lists

/-! ## Boxes -/

section Boxes

variable {α : Type} [Scalar α] (c : Spacing α) (m : Measure α)

theorem Node.ne_literal_of_isVacant {node : Node} (h : node.isVacant = true) :
    ∀ span value, node ≠ .literal span value := by
  rintro span value rfl
  exact nomatch h

theorem treeClosed_box_of_isVacant :
    TreeClosed (fun node => node.isVacant = true → ∀ n, (node.fragment c m n).box = .empty)
      (fun a => a.isVacant = true → ∀ n, (a.fragment c m n).box = .empty)
      (fun s => s.isVacant = true → ∀ n, (s.fragment c m n).box = .empty) where
  literal _ _ h := absurd h Bool.false_ne_true
  escape _ _ h := absurd h Bool.false_ne_true
  charset _ _ _ h := absurd h Bool.false_ne_true
  anchor _ _ h := absurd h Bool.false_ne_true
  wildcard _ h := absurd h Bool.false_ne_true
  quantified span atom repetition hatom h n := by
    obtain ⟨honce, hvacant⟩ := Bool.and_eq_true_iff.1 h
    rw [Node.fragment, if_pos honce]
    exact hatom hvacant n
  group span kind content hcontent h n := by
    cases kind with
    | nonCapturing => exact hcontent h _
    | _ => exact absurd h Bool.false_ne_true
  ofBranches span branches hbranches h n := by
    cases branches with
    | nil => exact absurd h Bool.false_ne_true
    | cons first rest =>
      cases rest with
      | nil => exact hbranches first (.head _) h n
      | cons second more => exact absurd h Bool.false_ne_true
  ofItems span items hitems h n := by
    cases items with
    | nil => rfl
    | cons first rest =>
      cases rest with
      | nil =>
        rw [fragment_single]
        exact hitems first (.head _) h n
      | cons second more => exact absurd h Bool.false_ne_true

end Boxes

/-! ## Lines -/

/-- Every alternation among the views has a branch, and no construct leads its track to a vacant part in
the last place. -/
structure Settled (views : List View) : Prop where
  branched : Branched views
  spills : ∀ v ∈ views, v.spills = false

theorem Settled.mono {views others : List View} (h : Settled views) (hsub : others ⊆ views) :
    Settled others :=
  ⟨fun a ha => h.branched a (hsub ha), fun v hv => h.spills v (hsub hv)⟩

/-- The lines of the fragment and of those in it stay in their cells, and its box is snug unless nothing is
drawn. -/
structure Fits (f : Fragment ℚ) (vacant : Bool) : Prop where
  keeps : ∀ g ∈ f.descendants, g.Keeps
  snug : vacant = false → f.box.Snug

section Lines

variable {c : Spacing ℚ} {m : Measure ℚ} (hc : c.Gridded) (hample : c.Ample) (hm : m.NonNegative)
  (hintegral : m.Integral)

include hc hample hm hintegral

/-- Every fragment of a layout is orderly, and its numbers are integers. -/
theorem drawnClosed_regular : DrawnClosed c m fun f => f.Orderly c.strokeInset ∧ f.Integral :=
  (Railroad.drawnClosed_orderly hample hm).and (Railroad.drawnClosed_integral hc hintegral)

theorem regular_branches (n : Nat) (branches : List Sequence) :
    ∀ f ∈ branchFragments c m n branches, f.Orderly c.strokeInset ∧ f.Integral :=
  DrawnClosed.branchFragments
    (fun b _ => (drawnClosed_regular hc hample hm hintegral).treeClosed.sequence b) n

theorem regular_items (n : Nat) (items : List Node) :
    ∀ f ∈ itemFragments c m n none items, f.Orderly c.strokeInset ∧ f.Integral :=
  DrawnClosed.itemFragments (drawnClosed_regular hc hample hm hintegral).literalBox
    (fun i _ => (drawnClosed_regular hc hample hm hintegral).treeClosed.node i) n none

end Lines

section Fits

variable {c : Spacing ℚ} {m : Measure ℚ} (hc : c.Gridded) (hample : c.Ample) (hm : m.NonNegative)

include hc hm in
theorem fits_labelBox (className : String) (text : List Char) (vacant : Bool) :
    Fits (Railroad.labelBox c m className text) vacant where
  keeps := Fragment.forall_descendants.2
    ⟨Railroad.reach_labelBox hc hm className text, fun _ hf => absurd hf List.not_mem_nil⟩
  snug _ := Railroad.snug_labelBox hc hm className text

include hc hm in
theorem keeps_atom (atom : ClassAtom) : ∀ g ∈ (atom.fragment c m).descendants, g.Keeps := by
  cases atom <;> exact (fits_labelBox hc hm _ _ false).keeps

include hc hm in
theorem keeps_member (member : Member) : ∀ g ∈ (member.fragment c m).descendants, g.Keeps := by
  cases member with
  | single atom => exact keeps_atom hc hm atom
  | range span first last =>
    exact Fragment.forall_descendants.2 ⟨Railroad.reach_range _ _ _ _,
      List.forall_mem_cons.2 ⟨keeps_atom hc hm first, List.forall_mem_singleton.2 (keeps_atom hc hm last)⟩⟩

include hc hample hm in
theorem fits_charset (negated : Bool) (members : List Member) (vacant : Bool) :
    Fits (Railroad.charset c m negated (members.map (Member.fragment c m))) vacant := by
  have hattached : ∀ f ∈ members.map (Member.fragment c m), f.box.Attached :=
    List.forall_mem_map.2 fun member _ => ((Railroad.drawnClosed_orderly hample hm).member member).attached
  refine ⟨Fragment.forall_descendants.2 ⟨Railroad.keeps_charset hc hample hm negated hattached, ?_⟩,
    fun _ => Railroad.snug_charset hc hample m negated hattached⟩
  simp only [Railroad.charset, Railroad.stack_fragments]
  exact List.forall_mem_map.2 fun member _ => keeps_member hc hm member

include hc hm in
theorem fits_frame (caption : List Char) {content : Fragment ℚ} (h : content.box.Attached)
    (hcontent : ∀ g ∈ content.descendants, g.Keeps) (vacant : Bool) :
    Fits (Railroad.frame c m caption content) vacant where
  keeps := Fragment.forall_descendants.2
    ⟨Railroad.reach_frame hc hm caption h, List.forall_mem_singleton.2 hcontent⟩
  snug _ := Railroad.snug_frame hc m caption h

include hc hample in
theorem fits_repetition {r : Repetition} {inner : Fragment ℚ} (h : inner.box.Attached)
    (hinner : ∀ g ∈ inner.descendants, g.Keeps) (hsnug : r.canRepeat = false → inner.box.Snug)
    (vacant : Bool) : Fits (Railroad.repetition c m r inner) vacant where
  keeps := Fragment.forall_descendants.2
    ⟨Railroad.keeps_repetition hc hample m h hsnug, List.forall_mem_singleton.2 hinner⟩
  snug _ := Railroad.snug_repetition hc m hsnug

section Parts

variable {first second : Fragment ℚ} {rest : List (Fragment ℚ)} {last : Fragment ℚ}
  (h : ∀ f ∈ first :: second :: rest, f.Orderly c.strokeInset ∧ f.Integral)
  (hparts : ∀ f ∈ first :: second :: rest, ∀ g ∈ f.descendants, g.Keeps)
  (hlast : (first :: second :: rest).getLast? = some last) (hsnug : last.box.Snug)
include hample h hparts hlast hsnug

theorem fits_sequence (vacant : Bool) : Fits (Railroad.sequence c (first :: second :: rest)) vacant := by
  have hattached := fun f hf => (h f hf).1.attached
  have hfragments := Railroad.row_fragments c (Railroad.rowTrack (first :: second :: rest)) 0
    (first :: second :: rest)
  obtain ⟨p, hp, rfl⟩ := Railroad.exists_last_placed hfragments hlast
  refine ⟨Fragment.forall_descendants.2 ⟨Railroad.keeps_sequence hample hattached hp hsnug, ?_⟩,
    fun _ => Railroad.snug_sequence hattached hp hsnug⟩
  simp only [Railroad.sequence, Railroad.row_fragments]
  exact hparts

include hc in
theorem fits_alternatives (vacant : Bool) :
    Fits (Railroad.alternatives c (first :: second :: rest)) vacant := by
  have hattached := fun f hf => (h f hf).1.attached
  have hboxes := fun f hf => (h f hf).2.box
  obtain ⟨p, hp, rfl⟩ := Railroad.exists_last_placed
    (Railroad.stack_fragments c _ 0 (first :: second :: rest)) hlast
  refine ⟨Fragment.forall_descendants.2
      ⟨Railroad.keeps_alternatives hc hample hattached hp hboxes hsnug, ?_⟩,
    fun _ => Railroad.snug_alternatives hc hample hattached hp hboxes⟩
  simp only [Railroad.alternatives, Railroad.stack_fragments]
  exact hparts

end Parts

include hample in
theorem fits_series {fragments : List (Fragment ℚ)}
    (h : ∀ f ∈ fragments, f.Orderly c.strokeInset ∧ f.Integral)
    (hparts : ∀ f ∈ fragments, ∀ g ∈ f.descendants, g.Keeps) {last : Fragment ℚ}
    (hlast : fragments.getLast? = some last) (hsnug : last.box.Snug) (vacant : Bool) :
    Fits (Railroad.sequence c fragments) vacant := by
  match fragments, h, hparts, hlast with
  | [], _, _, hlast => exact nomatch hlast
  | [only], _, hparts, hlast =>
    obtain rfl := Option.some.inj hlast
    exact ⟨hparts only (.head _), fun _ => hsnug⟩
  | first :: second :: rest, h, hparts, hlast => exact fits_sequence hample h hparts hlast hsnug vacant

variable (hintegral : m.Integral)
include hc hample hm hintegral

/-- A quantified atom fits unless it is vacant and repeated without a path back. -/
theorem fits_quantified {span : Span} {atom : Node} {r : Repetition} {n : Nat}
    (hatom : Fits (atom.fragment c m n) atom.isVacant)
    (hspills : (View.node (.quantified span atom r)).spills = false) :
    Fits ((Node.quantified span atom r).fragment c m n) (Node.quantified span atom r).isVacant := by
  rw [Node.fragment, Node.isVacant]
  split
  next honce => rwa [honce, Bool.true_and]
  next honce =>
    have hregular := (drawnClosed_regular hc hample hm hintegral).treeClosed.node atom n
    refine fits_repetition hc hample hregular.1.attached hatom.keeps (fun hloop => ?_) _
    rw [View.spills, Bool.eq_false_iff.2 honce, hloop] at hspills
    exact hatom.snug hspills

theorem fits_branches {span : Span} {branches : List Sequence} (hne : branches ≠ [])
    (hbranches : ∀ b ∈ branches, ∀ n, Fits (b.fragment c m n) b.isVacant)
    (hspills : (View.alternation ⟨span, branches⟩).spills = false) (n : Nat) :
    Fits ((⟨span, branches⟩ : Alternation).fragment c m n) (⟨span, branches⟩ : Alternation).isVacant := by
  have hregular := regular_branches hc hample hm hintegral n branches
  have hparts : ∀ f ∈ branchFragments c m n branches, ∀ g ∈ f.descendants, g.Keeps :=
    DrawnClosed.branchFragments (fun b hb n => (hbranches b hb n).keeps) n
  -- a single branch is drawn as it is
  obtain ⟨first, rest, rfl⟩ := List.exists_cons_of_ne_nil hne
  cases rest with
  | nil => exact hbranches first (.head _) n
  | cons second more =>
    obtain ⟨last, hlast⟩ : ∃ last, (first :: second :: more).getLast? = some last :=
      ⟨_, List.getLast?_eq_some_getLast (List.cons_ne_nil _ _)⟩
    obtain ⟨n', hfragment⟩ := getLast?_branchFragments c m n hlast
    rw [View.spills, hlast] at hspills
    have hsnug := (hbranches last (List.mem_of_getLast? hlast) n').snug hspills
    exact fits_alternatives hc hample hregular hparts hfragment hsnug _

theorem fits_items {span : Span} {items : List Node}
    (hitems : ∀ i ∈ items, ∀ n, Fits (i.fragment c m n) i.isVacant)
    (hspills : (View.sequence ⟨span, items⟩).spills = false) (n : Nat) :
    Fits ((⟨span, items⟩ : Sequence).fragment c m n) (⟨span, items⟩ : Sequence).isVacant := by
  have hregular := regular_items hc hample hm hintegral n items
  have hparts : ∀ f ∈ itemFragments c m n none items, ∀ g ∈ f.descendants, g.Keeps :=
    DrawnClosed.itemFragments (fun value => (fits_labelBox hc hm _ _ false).keeps)
      (fun i hi n => (hitems i hi n).keeps) n none
  cases items with
  | nil =>
    exact ⟨Fragment.forall_descendants.2 ⟨Reach.nil _ _, fun f hf => absurd hf List.not_mem_nil⟩,
      fun hvacant => absurd hvacant.symm Bool.false_ne_true⟩
  | cons first rest =>
    cases rest with
    | nil =>
      rw [fragment_single]
      exact hitems first (.head _) n
    | cons second more =>
      obtain ⟨last, hlast⟩ : ∃ last, (first :: second :: more).getLast? = some last :=
        ⟨_, List.getLast?_eq_some_getLast (List.cons_ne_nil _ _)⟩
      rw [View.spills, hlast] at hspills
      obtain ⟨f, hf, hown⟩ := getLast?_itemFragments c m n none hlast
      refine fits_series hample hregular hparts hf ?_ _
      -- the last fragment is a label, which is snug, or that of the last item
      obtain ⟨value, rfl⟩ | ⟨n', rfl⟩ := hown
      · exact Railroad.snug_labelBox hc hm _ _
      · exact (hitems last (List.mem_of_getLast? hlast) n').snug hspills

end Fits

/-- A tree without a vacant part in a last place keeps all its lines in their cells. -/
theorem treeClosed_fits {c : Spacing ℚ} {m : Measure ℚ} (hc : c.Gridded) (hample : c.Ample)
    (hm : m.NonNegative) (hintegral : m.Integral) :
    TreeClosed (fun node => Settled node.views → ∀ n, Fits (node.fragment c m n) node.isVacant)
      (fun a => Settled a.views → ∀ n, Fits (a.fragment c m n) a.isVacant)
      (fun s => Settled s.views → ∀ n, Fits (s.fragment c m n) s.isVacant) where
  literal _ _ _ _ := fits_labelBox hc hm _ _ _
  escape _ _ _ _ := fits_labelBox hc hm _ _ _
  anchor _ _ _ _ := fits_labelBox hc hm _ _ _
  wildcard _ _ _ := fits_labelBox hc hm _ _ _
  charset _ negated members _ _ := fits_charset hc hample hm negated members _
  quantified span atom repetition hatom h n :=
    fits_quantified hc hample hm hintegral (hatom (h.mono (List.subset_cons_self _ _)) n)
      (h.spills _ (.head _))
  group span kind content hcontent h n := by
    have hinner := hcontent (h.mono (List.subset_cons_self _ _))
    rw [Node.fragment]
    split
    next number caption hcaption =>
      have hregular := (drawnClosed_regular hc hample hm hintegral).treeClosed.alternation content
      exact fits_frame hc hm caption (hregular _).1.attached (hinner _).keeps _
    next hcaption =>
      cases kind with
      | nonCapturing => exact hinner _
      | _ => cases hcaption
  ofBranches span branches hbranches h :=
    fits_branches hc hample hm hintegral (h.branched _ (.head _))
      (fun b hb => hbranches b hb (h.mono (branch_subset_views span hb))) (h.spills _ (.head _))
  ofItems span items hitems h :=
    fits_items hc hample hm hintegral
      (fun i hi => hitems i hi (h.mono (item_subset_views span hi))) (h.spills _ (.head _))

end RegexDiagram.Pattern
