import RegexDiagram.Proofs.Drawing.Agreement
import RegexDiagram.Proofs.Drawing.Lettering
import RegexDiagram.Proofs.Pattern.Controls
import RegexDiagram.Text.Terminal

/-!
# Texts that can be measured

A measure that counts columns refuses control characters, and a text that is refused takes no room. Literals
are spelled out, and most other texts are the layout's own; only the names of back references and properties
come from the pattern as they are. So the texts of a drawing that are refused are the labels of escapes with a
control character in their name (`refused_drawing`).

Where there is no such name nothing is left to a fallback: every text is measured, the drawing is the same
whatever is done with texts that cannot be measured, and every label box has room for its text
(`read_measured`).
-/

namespace RegexDiagram

open Pattern

/-! ## Measures -/

section Measures

variable {α : Type} [Scalar α]

/-- The measures that count columns. -/
inductive Measure.CountsColumns [TerminalWidths] : Measure α → Prop
  | font (advance lineHeight ascent : α) : CountsColumns (Measure.font advance lineHeight ascent)
  | cells : CountsColumns Measure.cells

theorem Measure.refuseControl_eq (text : List Char) :
    Measure.refuseControl text = .ok () ∧ isRefused text = false ∨
      (∃ failure, Measure.refuseControl text = .error failure) ∧ isRefused text = true := by
  unfold Measure.refuseControl
  cases hfind : text.find? isControl with
  | none =>
    refine .inl ⟨rfl, Bool.eq_false_iff.2 fun hany => ?_⟩
    obtain ⟨c, hc, hcontrol⟩ := List.any_eq_true.1 hany
    exact List.find?_eq_none.1 hfind c hc hcontrol
  | some c =>
    exact .inr ⟨⟨_, rfl⟩, List.any_eq_true.2 ⟨c, List.mem_of_find?_eq_some hfind, List.find?_some hfind⟩⟩

/-- A text is measured unless there is a control character in it. -/
theorem Measure.CountsColumns.ok_iff [TerminalWidths] {m : Measure α} (h : m.CountsColumns)
    (text : List Char) :
    (∃ extent, m text = .ok extent) ↔ isRefused text = false := by
  obtain ⟨hok, hcalm⟩ | ⟨⟨failure, herror⟩, hrefused⟩ := Measure.refuseControl_eq text
  · refine iff_of_true ?_ hcalm
    cases h with
    | font advance lineHeight ascent => exact ⟨_, by rw [Measure.font, hok]; rfl⟩
    | cells => exact ⟨_, by rw [Measure.cells, hok]; rfl⟩
  · refine iff_of_false ?_ (ne_false_of_eq_true hrefused)
    rintro ⟨extent, hextent⟩
    cases h with
    | font advance lineHeight ascent =>
      rw [Measure.font, herror] at hextent
      cases hextent
    | cells =>
      rw [Measure.cells, herror] at hextent
      cases hextent

/-- What is measured is the extent. -/
theorem Measure.ok_extent {m : Measure α} {text : List Char} (h : ∃ extent, m text = .ok extent) :
    m text = .ok (m.extent text) := by
  obtain ⟨extent, h⟩ := h
  rw [Measure.extent, h]

theorem Measure.extent_eq_zero {m : Measure α} {text : List Char} (h : ¬ ∃ extent, m text = .ok extent) :
    m.extent text = .zero := by
  unfold Measure.extent
  split
  next extent hok => exact absurd ⟨extent, hok⟩ h
  next => rfl

end Measures

/-! ## What is shown without control characters -/

theorem calm_quoting {c : Char} (h : Quoting Calm c) : Calm c := by
  obtain h | h := h
  · exact h
  · simp only [List.mem_cons, List.not_mem_nil, or_false] at h
    obtain rfl | rfl | rfl := h <;> exact rfl

/-- A text without control characters is shown without them. -/
theorem Spacing.shown_calm {α : Type} (c : Spacing α) {text : List Char} (h : AllIn Calm text) :
    AllIn Calm (c.shown text) :=
  fun d hd => calm_quoting ((c.renders_quoting hasPrintable_calm).shown text (fun e he => .inl (h e he)) d hd)

theorem calm_of_plain {text : List Char} (h : PlainText text) : AllIn Calm text :=
  fun c hc => calm_quoting (quoting_of_plain hasPrintable_calm h c hc)

/-- Control characters of literals are spelled out. -/
theorem spelledChar_calm (c : Char) : AllIn Calm (spelledChar c) := by
  unfold spelledChar
  split_ifs with htab hfeed hreturn hcontrol
  · exact calm_of_printable (allPrintable_of_all (by decide))
  · exact calm_of_printable (allPrintable_of_all (by decide))
  · exact calm_of_printable (allPrintable_of_all (by decide))
  · exact (calm_of_printable (allPrintable_of_all (by decide))).append
      (calm_of_printable (upperHex_printable 4 _))
  · exact List.forall_mem_singleton.2 (Bool.eq_false_iff.2 hcontrol)

theorem literalLabel_calm (value : List Char) : AllIn Calm (literalLabel value) := by
  have hquote (c : Char) (hc : c ∈ ['“', '”', '…']) : AllIn Calm [c] :=
    List.forall_mem_singleton.2 (calm_quoting (.inr hc))
  have hvalue : AllIn Calm (value.flatMap spelledChar) := fun d hd => by
    obtain ⟨c, -, hd⟩ := List.mem_flatMap.1 hd
    exact spelledChar_calm c d hd
  exact ((hquote '“' (by decide)).append hvalue).append (hquote '”' (by decide))

/-! ## Texts that are refused -/

/-- The texts of a fragment that are refused. -/
def Fragment.refused {α : Type} (f : Fragment α) : List (List Char) := f.texts.filter isRefused

/-- The labels of escapes that are refused. -/
def refusedLabels (views : List View) : List (List Char) := (views.filterMap View.label?).filter isRefused

section Refused

variable {α : Type}

theorem filter_calm {texts : List (List Char)} (h : ∀ t ∈ texts, AllIn Calm t) : texts.filter isRefused = [] :=
  List.filter_eq_nil_iff.2 fun t ht => ne_true_of_eq_false (isRefused_eq_false.2 (h t ht))

theorem refusedLabels_cons {v : View} (h : v.meaning? = none) (views : List View) :
    refusedLabels (v :: views) = refusedLabels views := by
  have hlabel : v.label? = none := by rw [View.label?, h, Option.map_none]
  rw [refusedLabels, List.filterMap_cons_none hlabel]
  rfl

theorem refusedLabels_append (first second : List View) :
    refusedLabels (first ++ second) = refusedLabels first ++ refusedLabels second := by
  rw [refusedLabels, List.filterMap_append, List.filter_append]
  rfl

theorem refusedLabels_flatMap {β : Type} (views : β → List View) (parts : List β) :
    refusedLabels (parts.flatMap views) = parts.flatMap fun p => refusedLabels (views p) := by
  induction parts with
  | nil => rfl
  | cons p rest ih => rw [List.flatMap_cons, refusedLabels_append, ih, List.flatMap_cons]

/-- The texts of several fragments that are refused. -/
theorem refused_fragmentTexts (fragments : List (Fragment α)) :
    (fragmentTexts fragments).filter isRefused = fragments.flatMap Fragment.refused := by
  rw [fragmentTexts, List.filter_flatMap]
  rfl

variable [Scalar α] (c : Spacing α) (m : Measure α) {body : Span}

theorem refused_labelBox (className : String) (text : List Char) :
    (Railroad.labelBox c m className text).refused = [text].filter isRefused := by
  rw [Fragment.refused, Railroad.texts_labelBox]

theorem refused_literalBox (value : List Char) : (Railroad.literalBox c m value).refused = [] := by
  rw [Railroad.literalBox, refused_labelBox]
  exact filter_calm (List.forall_mem_singleton.2 (c.shown_calm (literalLabel_calm value)))

namespace Pattern

theorem ClassAtom.refused_fragment (atom : ClassAtom) :
    (atom.fragment c m).refused = refusedLabels [.member (.single atom)] := by
  cases atom with
  | literal span value => exact refused_literalBox c m value
  | escape span meaning => exact refused_labelBox c m _ _

theorem Member.refused_fragment (member : Member) :
    (member.fragment c m).refused = refusedLabels member.views := by
  cases member with
  | single atom => exact atom.refused_fragment c m
  | range span first last =>
    have hhyphen : ¬ isRefused ['-'] = true := by decide
    have hends := refusedLabels_append [.member (.single first)] [.member (.single last)]
    rw [Member.fragment, Fragment.refused, Railroad.texts_range, List.filter_cons_of_neg hhyphen,
      List.filter_append, Member.views, refusedLabels_cons rfl]
    exact (congrArg₂ (· ++ ·) (first.refused_fragment c m) (last.refused_fragment c m)).trans hends.symm

theorem refused_itemFragments {items : List Node}
    (h : ∀ i ∈ items, ∀ n, (i.fragment c m n).refused = refusedLabels i.views) (n : Nat)
    (run : Option (List Char)) :
    (itemFragments c m n run items).flatMap Fragment.refused = refusedLabels (items.flatMap Node.views) := by
  have hrun (run : Option (List Char)) : (runFragments c m run).flatMap Fragment.refused = [] := by
    cases run with
    | none => rfl
    | some value => exact (List.append_nil _).trans (refused_literalBox c m value)
  induction items generalizing n run with
  | nil => exact hrun run
  | cons item rest ih =>
    obtain ⟨hitem, hrest⟩ := List.forall_mem_cons.1 h
    obtain ⟨span, value, rfl⟩ | hother := item.literal_or_other
    · exact ih hrest n _
    · rw [itemFragments_cons_other c m n run rest hother, List.flatMap_append, hrun, List.flatMap_cons,
        hitem, ih hrest, List.flatMap_cons, refusedLabels_append]
      rfl

theorem refused_branchFragments {branches : List Sequence}
    (h : ∀ b ∈ branches, ∀ n, (b.fragment c m n).refused = refusedLabels b.views) (n : Nat) :
    (branchFragments c m n branches).flatMap Fragment.refused =
      refusedLabels (branches.flatMap Sequence.views) := by
  induction branches generalizing n with
  | nil => rfl
  | cons branch rest ih =>
    obtain ⟨hbranch, hrest⟩ := List.forall_mem_cons.1 h
    rw [branchFragments, List.flatMap_cons, hbranch, ih hrest, List.flatMap_cons, refusedLabels_append]

/-- Of each construct only the labels of escapes are refused. -/
theorem treeClosed_refused : TreeClosed
    (fun node => (∀ v ∈ node.views, v.Shaped body) → ∀ n, (node.fragment c m n).refused = refusedLabels node.views)
    (fun a => (∀ v ∈ a.views, v.Shaped body) → ∀ n, (a.fragment c m n).refused = refusedLabels a.views)
    (fun s => (∀ v ∈ s.views, v.Shaped body) → ∀ n, (s.fragment c m n).refused = refusedLabels s.views) where
  literal _ value _ _ := refused_literalBox c m value
  escape _ meaning _ _ := refused_labelBox c m _ _
  anchor _ edge _ _ := (refused_labelBox c m _ _).trans
    (filter_calm (List.forall_mem_singleton.2 (calm_of_printable edge.label_printable)))
  wildcard _ _ _ := (refused_labelBox c m _ _).trans
    (filter_calm (List.forall_mem_singleton.2 (calm_of_printable (allPrintable_of_all (by decide)))))
  charset span negated members _ n := by
    have hcaption := filter_calm (List.forall_mem_singleton.2 (calm_of_printable (charsetCaption_printable negated)))
    rw [Node.fragment, Fragment.refused, Railroad.texts_charset, ← List.singleton_append, List.filter_append,
      hcaption, List.nil_append, refused_fragmentTexts, List.flatMap_map, Node.views, refusedLabels_cons rfl,
      refusedLabels_flatMap]
    exact List.flatMap_congr fun member _ => member.refused_fragment c m
  quantified span atom repetition hatom hshaped n := by
    have hinner := hatom (List.forall_mem_cons.1 hshaped).2 n
    have hcaption : (((if repetition.canRepeat then repetition.label else none).map c.shown).toList).filter
        isRefused = [] := by
      refine filter_calm fun t ht => ?_
      obtain ⟨label, hlabel, rfl⟩ := Option.map_eq_some_iff.1 (Option.mem_toList.1 ht)
      split at hlabel
      · exact c.shown_calm (calm_of_plain (Repetition.label_seen hlabel).1)
      · cases hlabel
    rw [Fragment.refused, Node.texts_quantified, List.filter_append, hcaption, List.nil_append,
      Node.views, refusedLabels_cons rfl]
    exact hinner
  group span kind content hcontent hshaped n := by
    obtain ⟨hgroup, hinner⟩ := List.forall_mem_cons.1 hshaped
    have hname : AllIn Calm kind.name := by
      cases kind with
      | named name => exact calm_of_isName hgroup
      | _ => exact AllIn.nil
    have hcaption : (kind.caption (if kind.isCapturing then n + 1 else n)).toList.filter isRefused = [] :=
      filter_calm fun t ht =>
        GroupKind.caption_allIn hasPrintable_calm hname (Option.mem_toList.1 ht)
    rw [Fragment.refused, Node.texts_group, List.filter_append, hcaption, List.nil_append, Node.views,
      refusedLabels_cons rfl]
    exact hcontent hinner _
  ofBranches span branches hbranches hshaped n := by
    have hall := refused_branchFragments c m
      (fun b hb => hbranches b hb fun v hv => hshaped v (branch_subset_views span hb hv)) n
    rw [Alternation.views_eq, refusedLabels_cons rfl, ← hall, Fragment.refused, Alternation.texts_fragment,
      refused_fragmentTexts]
  ofItems span items hitems hshaped n := by
    have hall := refused_itemFragments c m
      (fun i hi => hitems i hi fun v hv => hshaped v (item_subset_views span hi hv)) n none
    rw [Sequence.views_eq, refusedLabels_cons rfl, ← hall, Fragment.refused, Sequence.texts_fragment,
      refused_fragmentTexts]

/-- **The texts of a drawing that are refused** are the labels of escapes with a control character, in order. -/
theorem refused_drawing (input : List Char) :
    ((read input).root.drawing c m).fragment.refused = refusedLabels (read input).root.descendants := by
  have hshaped : ∀ v ∈ (read input).root.alternation.views, v.Shaped (read input).root.alternation.span :=
    fun v hv => read_built (built_shaped _) v hv
  have hcontent := (treeClosed_refused c m).alternation (read input).root.alternation hshaped 0
  have hflags : (((flagsCaption (read input).root.flags).map c.shown).toList).filter isRefused = [] := by
    refine filter_calm fun t ht => ?_
    obtain ⟨caption, hcaption, rfl⟩ := Option.map_eq_some_iff.1 (Option.mem_toList.1 ht)
    exact c.shown_calm (calm_of_plain (flagsCaption_seen (read_flags input) hcaption).1)
  rw [Root.drawing, Fragment.refused, Railroad.texts_drawing, List.filter_append, hflags, List.nil_append,
    Root.descendants, refusedLabels_cons rfl, ← hcontent]
  rfl

end Pattern

end Refused

/-! ## Label boxes -/

section Boxes

variable {α : Type} [Scalar α] (c : Spacing α) (m : Measure α)

/-- Every label box of the fragment is as wide as its text with the padding on both sides. -/
def Fragment.Roomy (f : Fragment α) : Prop :=
  ∀ rect radius dashed, Shape.rect rect radius dashed "label" ∈ f.shapes →
    ∃ origin words, Shape.text origin (m.extent words) words "label" ∈ f.shapes ∧
      rect.width = (m.extent words).width + 2 * c.labelPaddingX

/-- The frame of a label. -/
def Shape.isLabelRect {α : Type} : Shape α → Bool
  | .rect _ _ _ className => className == "label"
  | _ => false

/-- A fragment without frames of labels has no label box. -/
theorem Fragment.roomy_of_filter {f : Fragment α} (h : f.shapes.filter Shape.isLabelRect = []) : f.Roomy c m :=
  fun _ _ _ hmem => absurd rfl (List.filter_eq_nil_iff.1 h _ hmem)

namespace Railroad

theorem labelRects_rowConnectors (track : α) (placed : List (Placed α)) :
    (rowConnectors track placed).filter Shape.isLabelRect = [] :=
  List.filter_eq_nil_iff.2 fun s hs => by
    obtain ⟨p, q, rfl⟩ := track_of_mem_rowConnectors hs
    exact Bool.false_ne_true

theorem labelRects_branchConnectors (b : Box α) (mid right : α) :
    (branchConnectors c b mid right).filter Shape.isLabelRect = [] :=
  List.filter_eq_nil_iff.2 fun s hs => by
    obtain ⟨segments, rfl⟩ := connector_of_mem_branchConnectors hs
    exact Bool.false_ne_true

theorem roomy_labelBox (className : String) (text : List Char) :
    (labelBox c m className text).Roomy c m := by
  intro rect radius dashed hmem
  obtain hrect | hmem := List.mem_cons.1 hmem
  · obtain ⟨rfl, -, -, -⟩ := Shape.rect.inj hrect
    exact ⟨_, text, .tail _ (.head _), rfl⟩
  · exact nomatch List.mem_singleton.1 hmem

theorem roomy_sequence {parts : List (Fragment α)} (h : ∀ f ∈ parts, f.Roomy c m) :
    (sequence c parts).Roomy c m := by
  match parts, h with
  | [], _ => exact Fragment.roomy_of_filter c m rfl
  | [only], h => exact h only (.head _)
  | first :: second :: rest, _ => exact Fragment.roomy_of_filter c m (labelRects_rowConnectors _ _)

theorem roomy_alternatives (branches : List (Fragment α)) : (alternatives c branches).Roomy c m := by
  refine Fragment.roomy_of_filter c m (List.filter_eq_nil_iff.2 fun s hs => ?_)
  obtain ⟨p, -, hs⟩ := List.mem_flatMap.1 hs
  exact List.filter_eq_nil_iff.1 (labelRects_branchConnectors c p.box _ _) s hs

theorem roomy_repetition (r : Repetition) (inner : Fragment α) : (repetition c m r inner).Roomy c m := by
  refine Fragment.roomy_of_filter c m ?_
  simp only [shapes_repetition, skipShapes, loopShapes, captionShapes, lapCaption]
  generalize (if r.canRepeat then r.label else none) = label
  generalize r.canSkip = skips
  generalize r.canRepeat = loops
  generalize r.greedy = greedy
  cases label <;> cases skips <;> cases loops <;> cases greedy <;> rfl

theorem roomy_drawing (flags : List Char) (content : Fragment α) :
    (drawing c m flags content).fragment.Roomy c m := by
  refine Fragment.roomy_of_filter c m ?_
  rw [drawing]
  cases flagsCaption flags <;> rfl

theorem drawnClosed_roomy : DrawnClosed c m (Fragment.Roomy c m) where
  label className _ text := roomy_labelBox c m className text
  sequence _ h := roomy_sequence c m h
  alternatives branches _ := roomy_alternatives c m branches
  range _ _ _ _ := Fragment.roomy_of_filter c m rfl
  charset _ _ _ := Fragment.roomy_of_filter c m rfl
  frame _ _ _ _ _ _ := Fragment.roomy_of_filter c m rfl
  repetition r inner _ := roomy_repetition c m r inner

end Railroad

end Boxes

/-! ## Drawings that are measured -/

section Measured

variable {α : Type} [Scalar α]

/-- No name of a back reference or a property has a control character. -/
def Pattern.Root.CalmNames (r : Root) : Prop :=
  ∀ v ∈ r.descendants, ∀ meaning ∈ v.meaning?, AllIn Calm meaning.name

/-- Nothing is refused in the drawing of a pattern just if the names in it are calm. -/
theorem refused_eq_nil_iff (c : Spacing α) (m : Measure α) (input : List Char) :
    ((read input).root.drawing c m).fragment.refused = [] ↔ (read input).root.CalmNames := by
  rw [refused_drawing, refusedLabels, List.filter_eq_nil_iff]
  constructor
  · intro h v hv meaning hmeaning ch hch
    have hlabel : v.label? = some meaning.label := by
      rw [View.label?, Option.mem_def.1 hmeaning, Option.map_some]
    have hcalm := isRefused_eq_false.1 (Bool.eq_false_iff.2 (h _ (List.mem_filterMap.2 ⟨v, hv, hlabel⟩)))
    exact hcalm ch (meaning.name_subset_label hch)
  · intro h label hlabel
    obtain ⟨v, hv, hlabel⟩ := List.mem_filterMap.1 hlabel
    obtain ⟨meaning, hmeaning, rfl⟩ := Option.map_eq_some_iff.1 hlabel
    have hcalm := read_copies input v hv meaning hmeaning (h v hv meaning hmeaning)
    exact ne_true_of_eq_false (isRefused_eq_false.2 hcalm)

/-- **Every text of a drawing is measured** just if no name in the pattern has a control character. Then it
does not matter what is done with texts that cannot be measured, and every label box is as wide as its text
with the padding on both sides. -/
theorem read_measured [TerminalWidths] {m : Measure α} (hm : m.CountsColumns) (c : Spacing α)
    (input : List Char) :
    ((∀ t ∈ ((read input).root.drawing c m).fragment.texts, ∃ extent, m t = .ok extent) ↔
        (read input).root.CalmNames) ∧
      ((read input).root.CalmNames →
        (∀ m' : Measure α, (∀ t extent, m t = .ok extent → m' t = .ok extent) →
          (read input).root.drawing c m' = (read input).root.drawing c m) ∧
        ∀ f ∈ ((read input).root.drawing c m).fragment.descendants,
          ∀ rect radius dashed, Shape.rect rect radius dashed "label" ∈ f.shapes →
            ∃ origin extent words, Shape.text origin extent words "label" ∈ f.shapes ∧
              m words = .ok extent ∧ rect.width = extent.width + 2 * c.labelPaddingX) := by
  have hmeasured : (∀ t ∈ ((read input).root.drawing c m).fragment.texts, ∃ extent, m t = .ok extent) ↔
      (read input).root.CalmNames := by
    rw [← refused_eq_nil_iff c m, Fragment.refused, List.filter_eq_nil_iff]
    exact forall₂_congr fun t _ => (hm.ok_iff t).trans Bool.eq_false_iff
  refine ⟨hmeasured, fun hcalm => ?_⟩
  have hall := hmeasured.2 hcalm
  refine ⟨fun m' hextends => Root.drawing_congr c fun t ht => ?_, fun f hf rect radius dashed hrect => ?_⟩
  · have hok := Measure.ok_extent (hall t ht)
    rw [hok, hextends t _ hok]
  · have hroomy := (Railroad.drawnClosed_roomy c m).drawing (read input).root
      (fun content _ => Railroad.roomy_drawing c m _ content) f hf
    obtain ⟨origin, words, htext, hwidth⟩ := hroomy rect radius dashed hrect
    have hdrawn : words ∈ ((read input).root.drawing c m).fragment.texts :=
      List.mem_flatMap.2 ⟨f, hf, List.mem_filterMap.2 ⟨_, htext, rfl⟩⟩
    exact ⟨origin, _, words, htext, Measure.ok_extent (hall words hdrawn), hwidth⟩

/-- The label of a property is measured in cells. -/
theorem read_measured_property :
    Measure.CountsColumns (Measure.cells (α := ℚ)) ∧
      ∀ t ∈ ((read "\\p\x7bL\x7d".toList).root.drawing (Spacing.cells (α := ℚ)) Measure.cells).fragment.texts,
        ∃ extent, Measure.cells (α := ℚ) t = .ok extent := by
  refine ⟨.cells, (read_measured .cells Spacing.cells "\\p\x7bL\x7d".toList).1.2 fun v hv meaning hmeaning => ?_⟩
  have hnames : ((read "\\p\x7bL\x7d".toList).root.descendants.filterMap View.meaning?).all
      (fun meaning => !isRefused meaning.name) = true := by decide +kernel
  have hname := List.all_eq_true.1 hnames meaning (List.mem_filterMap.2 ⟨v, hv, hmeaning⟩)
  exact isRefused_eq_false.1 (Bool.not_eq_true' _ ▸ hname)

/-- A bell in the name of a property comes into its label, which takes no room then. -/
theorem unmeasured_property :
    ∃ t ∈ ((read "\\p\x7b\x07\x7d".toList).root.drawing (Spacing.cells (α := ℚ)) Measure.cells).fragment.texts,
      (¬ ∃ extent, Measure.cells (α := ℚ) t = .ok extent) ∧ Measure.cells.extent t = (.zero : Extent ℚ) := by
  have hlabel : "unicode property \x07".toList ∈
      refusedLabels (read "\\p\x7b\x07\x7d".toList).root.descendants := by decide +kernel
  rw [← refused_drawing (Spacing.cells (α := ℚ)) Measure.cells] at hlabel
  obtain ⟨htext, hrefused⟩ := List.mem_filter.1 hlabel
  have hnot : ¬ ∃ extent, Measure.cells (α := ℚ) "unicode property \x07".toList = .ok extent :=
    fun hok => ne_true_of_eq_false ((Measure.CountsColumns.cells.ok_iff _).1 hok) hrefused
  exact ⟨_, htext, hnot, Measure.extent_eq_zero hnot⟩

end Measured

end RegexDiagram
