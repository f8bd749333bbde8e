import RegexDiagram.Proofs.Drawing.Texts
import RegexDiagram.Proofs.Pattern.Views

/-!
# Fragments and where they lie

`Fragment.placements` lists a fragment and everything in it, each with the point where its corner lies
in the whole drawing. A property of all fragments of a drawing is proved construct by construct:
`DrawnClosed` names what each construct of a layout has to give, and `DrawnClosed.alternation` carries
it over every syntax tree.
-/

namespace RegexDiagram

open Pattern

variable {α : Type}

/-! ## Induction -/

section Induction

variable {P : Fragment α → Prop}

mutual

/-- What every fragment has if its children have it, all fragments have. -/
theorem Fragment.induct (h : ∀ f : Fragment α, (∀ p ∈ f.children, P p.fragment) → P f) : ∀ f, P f
  | ⟨_, _, _, children⟩ => h _ (Placed.induct h children)

theorem Placed.induct (h : ∀ f : Fragment α, (∀ p ∈ f.children, P p.fragment) → P f) :
    ∀ children : List (Placed α), ∀ p ∈ children, P p.fragment
  | [] => fun _ hp => absurd hp List.not_mem_nil
  | ⟨_, fragment⟩ :: rest =>
    List.forall_mem_cons.2 ⟨Fragment.induct h fragment, Placed.induct h rest⟩

end

end Induction

theorem Fragment.descendants_eq (f : Fragment α) :
    f.descendants = f :: f.children.flatMap (·.fragment.descendants) := by
  obtain ⟨className, box, shapes, children⟩ := f
  rw [descendants, childDescendants_eq]

/-- A fragment is one of its own fragments. -/
theorem Fragment.mem_descendants_self (f : Fragment α) : f ∈ f.descendants := by
  rw [descendants_eq]
  exact .head _

/-- What is in a child is in the fragment. -/
theorem Fragment.mem_descendants_part {f h g : Fragment α} (hh : h ∈ f.children.map (·.fragment))
    (hg : g ∈ h.descendants) : g ∈ f.descendants := by
  obtain ⟨p, hp, rfl⟩ := List.mem_map.1 hh
  rw [descendants_eq]
  exact .tail _ (List.mem_flatMap.2 ⟨p, hp, hg⟩)

/-- All fragments of a fragment are itself and those of its children. -/
theorem Fragment.forall_descendants {P : Fragment α → Prop} {f : Fragment α} :
    (∀ g ∈ f.descendants, P g) ↔
      P f ∧ ∀ h ∈ f.children.map (·.fragment), ∀ g ∈ h.descendants, P g := by
  rw [descendants_eq, List.forall_mem_cons, List.forall_mem_map]
  simp only [List.mem_flatMap, forall_exists_index, and_imp]
  exact and_congr_right fun _ => forall_comm.trans
    (forall_congr' fun p => forall_comm)

theorem Fragment.of_forall_descendants {P : Fragment α → Prop} {f : Fragment α}
    (h : ∀ g ∈ f.descendants, P g) : P f :=
  h f f.mem_descendants_self

/-! ## Placements -/

section Placements

variable [Scalar α]

mutual

/-- A fragment whose corner lies at `origin` and all fragments in it, parents before children. -/
def Fragment.placements (origin : Point α) : Fragment α → List (Placed α)
  | ⟨className, box, shapes, children⟩ =>
    ⟨origin, ⟨className, box, shapes, children⟩⟩ :: childPlacements origin children

/-- The children in order, each with all fragments in it. -/
def childPlacements (origin : Point α) : List (Placed α) → List (Placed α)
  | [] => []
  | ⟨offset, fragment⟩ :: rest =>
    fragment.placements (origin.translate offset.x offset.y) ++ childPlacements origin rest

end

/-- A child where it lies if the corner of its parent lies at `origin`. -/
def Placed.under (origin : Point α) (p : Placed α) : List (Placed α) :=
  p.fragment.placements (origin.translate p.offset.x p.offset.y)

theorem childPlacements_eq (origin : Point α) (children : List (Placed α)) :
    childPlacements origin children = children.flatMap (Placed.under origin) := by
  induction children with
  | nil => rfl
  | cons child rest ih =>
    obtain ⟨offset, fragment⟩ := child
    rw [childPlacements, ih, List.flatMap_cons]
    rfl

theorem Fragment.placements_eq (origin : Point α) (f : Fragment α) :
    f.placements origin = ⟨origin, f⟩ :: f.children.flatMap (Placed.under origin) := by
  obtain ⟨className, box, shapes, children⟩ := f
  rw [placements, childPlacements_eq]

/-- The fragments that are placed are the fragments of the drawing. -/
theorem Fragment.map_placements (f : Fragment α) (origin : Point α) :
    (f.placements origin).map (·.fragment) = f.descendants := by
  induction f using Fragment.induct generalizing origin with
  | h f ih =>
    rw [placements_eq, descendants_eq, List.map_cons, List.map_flatMap, List.flatMap_def,
      List.flatMap_def]
    exact congrArg (List.cons f ·.flatten) (List.map_congr_left fun p hp => ih p hp _)

end Placements

/-! ## Constructs -/

/-- The names of labels: what a box with words can stand for. -/
def labelNames : List String := ["literal", "escape", "anchor", "any-character", "charset-escape"]

/-- A property that every construct of a layout passes on from its parts to itself. -/
structure DrawnClosed [Scalar α] (c : Spacing α) (m : Measure α) (P : Fragment α → Prop) : Prop where
  label : ∀ className ∈ labelNames, ∀ text, P (Railroad.labelBox c m className text)
  sequence : ∀ parts, (∀ f ∈ parts, P f) → P (Railroad.sequence c parts)
  alternatives : ∀ branches, (∀ f ∈ branches, P f) → P (Railroad.alternatives c branches)
  range : ∀ first last, P first → P last → P (Railroad.range c m first last)
  charset : ∀ negated members, (∀ f ∈ members, P f) → P (Railroad.charset c m negated members)
  frame : ∀ (kind : GroupKind) number caption content, kind.caption number = some caption →
    P content → P (Railroad.frame c m caption content)
  repetition : ∀ r inner, P inner → P (Railroad.repetition c m r inner)

namespace DrawnClosed

variable [Scalar α] {c : Spacing α} {m : Measure α} {P : Fragment α → Prop}

/-- Two properties that are passed on are passed on together. -/
theorem and {Q : Fragment α → Prop} (h : DrawnClosed c m P) (h' : DrawnClosed c m Q) :
    DrawnClosed c m fun f => P f ∧ Q f where
  label className hname text := ⟨h.label className hname text, h'.label className hname text⟩
  sequence parts hparts :=
    ⟨h.sequence parts fun f hf => (hparts f hf).1, h'.sequence parts fun f hf => (hparts f hf).2⟩
  alternatives branches hbranches :=
    ⟨h.alternatives branches fun f hf => (hbranches f hf).1,
      h'.alternatives branches fun f hf => (hbranches f hf).2⟩
  range first last hfirst hlast :=
    ⟨h.range first last hfirst.1 hlast.1, h'.range first last hfirst.2 hlast.2⟩
  charset negated members hmembers :=
    ⟨h.charset negated members fun f hf => (hmembers f hf).1,
      h'.charset negated members fun f hf => (hmembers f hf).2⟩
  frame kind number caption content hcaption hcontent :=
    ⟨h.frame kind number caption content hcaption hcontent.1,
      h'.frame kind number caption content hcaption hcontent.2⟩
  repetition r inner hinner := ⟨h.repetition r inner hinner.1, h'.repetition r inner hinner.2⟩

theorem literalBox (h : DrawnClosed c m P) (value : List Char) : P (Railroad.literalBox c m value) :=
  h.label _ (.head _) _

theorem atom (h : DrawnClosed c m P) (atom : ClassAtom) : P (atom.fragment c m) := by
  cases atom with
  | literal span value => exact h.literalBox value
  | escape span meaning => exact h.label _ (by simp [labelNames]) _

theorem member (h : DrawnClosed c m P) (member : Member) : P (member.fragment c m) := by
  cases member with
  | single atom => exact h.atom atom
  | range span first last => exact h.range _ _ (h.atom first) (h.atom last)

theorem runFragments (h : ∀ value, P (Railroad.literalBox c m value)) (run : Option (List Char)) :
    ∀ f ∈ Pattern.runFragments c m run, P f := by
  cases run with
  | none => exact fun _ hf => absurd hf List.not_mem_nil
  | some value => exact List.forall_mem_singleton.2 (h value)

/-- The items of a sequence are drawn with the property if each of them is, wherever literals run
together. -/
theorem itemFragments (h : ∀ value, P (Railroad.literalBox c m value)) {items : List Node}
    (hitems : ∀ i ∈ items, ∀ n, P (i.fragment c m n)) (n : Nat) (run : Option (List Char)) :
    ∀ f ∈ Pattern.itemFragments c m n run items, P f := by
  induction items generalizing n run with
  | nil => exact runFragments h run
  | cons item rest ih =>
    obtain ⟨hitem, hrest⟩ := List.forall_mem_cons.1 hitems
    obtain ⟨span, value, rfl⟩ | hother := item.literal_or_other
    · exact ih hrest n _
    · rw [itemFragments_cons_other c m n run rest hother]
      exact List.forall_mem_append.2
        ⟨runFragments h run, List.forall_mem_cons.2 ⟨hitem n, ih hrest _ none⟩⟩

theorem branchFragments {branches : List Sequence}
    (hbranches : ∀ b ∈ branches, ∀ n, P (b.fragment c m n)) (n : Nat) :
    ∀ f ∈ Pattern.branchFragments c m n branches, P f := by
  induction branches generalizing n with
  | nil => exact fun _ hf => absurd hf List.not_mem_nil
  | cons branch rest ih =>
    obtain ⟨hbranch, hrest⟩ := List.forall_mem_cons.1 hbranches
    exact List.forall_mem_cons.2 ⟨hbranch n, ih hrest _⟩

theorem treeClosed (h : DrawnClosed c m P) :
    TreeClosed (fun node => ∀ n, P (node.fragment c m n)) (fun a => ∀ n, P (a.fragment c m n))
      (fun s => ∀ n, P (s.fragment c m n)) where
  literal _ value _ := h.literalBox value
  escape _ _ _ := h.label _ (by simp [labelNames]) _
  anchor _ _ _ := h.label _ (by simp [labelNames]) _
  wildcard _ _ := h.label _ (by simp [labelNames]) _
  charset _ negated members _ :=
    h.charset negated _ (List.forall_mem_map.2 fun member _ => h.member member)
  quantified _ atom repetition hatom n := by
    rw [Node.fragment]
    split
    · exact hatom n
    · exact h.repetition _ _ (hatom n)
  group _ kind content hcontent n := by
    rw [Node.fragment]
    split
    next caption hcaption => exact h.frame kind _ caption _ hcaption (hcontent _)
    next => exact hcontent _
  ofBranches span branches hbranches n := by
    have hall := branchFragments hbranches n
    -- a single branch is drawn as it is
    cases branches with
    | nil => exact h.alternatives _ hall
    | cons first rest =>
      cases rest with
      | nil => exact hbranches first (.head _) n
      | cons second more => exact h.alternatives _ hall
  ofItems span items hitems n := h.sequence _ (itemFragments h.literalBox hitems n none)

/-- What every construct passes on holds of the drawing of every alternation. -/
theorem alternation (h : DrawnClosed c m P) (a : Alternation) (n : Nat) : P (a.fragment c m n) :=
  h.treeClosed.alternation a n

/-- What every construct passes on holds of every fragment of a drawing. -/
theorem descendants (h : DrawnClosed c m P) : DrawnClosed c m fun f => ∀ g ∈ f.descendants, P g where
  label className hname text :=
    Fragment.forall_descendants.2
      ⟨h.label className hname text, fun f hf => absurd hf List.not_mem_nil⟩
  sequence parts hparts := by
    have hown := h.sequence parts fun f hf => Fragment.of_forall_descendants (hparts f hf)
    match parts, hparts, hown with
    | [], _, hown => exact Fragment.forall_descendants.2 ⟨hown, fun f hf => absurd hf List.not_mem_nil⟩
    | [only], hparts, _ => exact hparts only (.head _)
    | first :: second :: rest, hparts, hown =>
      refine Fragment.forall_descendants.2 ⟨hown, ?_⟩
      simp only [Railroad.sequence, Railroad.row_fragments]
      exact hparts
  alternatives branches hbranches := by
    refine Fragment.forall_descendants.2
      ⟨h.alternatives _ fun f hf => Fragment.of_forall_descendants (hbranches f hf), ?_⟩
    simp only [Railroad.alternatives, Railroad.stack_fragments]
    exact hbranches
  range first last hfirst hlast :=
    Fragment.forall_descendants.2
      ⟨h.range _ _ (Fragment.of_forall_descendants hfirst) (Fragment.of_forall_descendants hlast),
        List.forall_mem_cons.2 ⟨hfirst, List.forall_mem_singleton.2 hlast⟩⟩
  charset negated members hmembers := by
    refine Fragment.forall_descendants.2
      ⟨h.charset _ _ fun f hf => Fragment.of_forall_descendants (hmembers f hf), ?_⟩
    simp only [Railroad.charset, Railroad.stack_fragments]
    exact hmembers
  frame kind number caption content hcaption hcontent :=
    Fragment.forall_descendants.2
      ⟨h.frame kind number _ _ hcaption (Fragment.of_forall_descendants hcontent),
        List.forall_mem_singleton.2 hcontent⟩
  repetition r inner hinner :=
    Fragment.forall_descendants.2
      ⟨h.repetition r _ (Fragment.of_forall_descendants hinner), List.forall_mem_singleton.2 hinner⟩

/-- The same for a whole drawing, if it holds of the outermost fragment. -/
theorem drawing (h : DrawnClosed c m P) (root : Root)
    (hroot : ∀ content, P content → P (Railroad.drawing c m root.flags content).fragment) :
    ∀ g ∈ (root.drawing c m).fragment.descendants, P g :=
  Fragment.forall_descendants.2 ⟨hroot _ (h.alternation root.alternation 0),
    List.forall_mem_singleton.2 (h.descendants.alternation root.alternation 0)⟩

end DrawnClosed

end RegexDiagram
