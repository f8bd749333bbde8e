import RegexDiagram.Proofs.Drawing.Texts
import RegexDiagram.Proofs.Pattern.Views

/-!
# What a drawing depends on

A layout asks its measure for the texts it shows and for no others: two measures that agree on the texts of a
drawing give the same drawing (`Root.drawing_congr`). The proof goes construct by construct, since each of them
measures at most one text of its own.
-/

namespace RegexDiagram

open Pattern

section Congruence

variable {α : Type} [Scalar α] (c : Spacing α) {m m' : Measure α}

theorem Measure.extent_congr {text : List Char} (h : m' text = m text) : m'.extent text = m.extent text := by
  rw [Measure.extent, h]
  rfl

/-- Both measures agree on all texts of a fragment. -/
def Fragment.Agree (m m' : Measure α) (f : Fragment α) : Prop := ∀ t ∈ f.texts, m' t = m t

omit [Scalar α] in
theorem agree_of_fragmentTexts {fragments : List (Fragment α)} (h : ∀ t ∈ fragmentTexts fragments, m' t = m t) :
    ∀ f ∈ fragments, f.Agree m m' :=
  List.forall_mem_flatMap.1 h

namespace Railroad

theorem labelBox_congr {className : String} {text : List Char} (h : (labelBox c m className text).Agree m m') :
    labelBox c m' className text = labelBox c m className text := by
  rw [Fragment.Agree, texts_labelBox] at h
  rw [labelBox, Measure.extent_congr (h text (.head _))]
  rfl

theorem range_congr {first last : Fragment α} (h : m' ['-'] = m ['-']) :
    range c m' first last = range c m first last := by
  rw [range, Measure.extent_congr h]
  rfl

theorem charset_congr {negated : Bool} {members : List (Fragment α)}
    (h : m' (charsetCaption negated) = m (charsetCaption negated)) :
    charset c m' negated members = charset c m negated members := by
  rw [charset, Measure.extent_congr h]
  rfl

theorem frame_congr {caption : List Char} {content : Fragment α} (h : m' caption = m caption) :
    frame c m' caption content = frame c m caption content := by
  rw [frame, Measure.extent_congr h]
  rfl

theorem repetition_congr {r : Repetition} {inner : Fragment α}
    (h : ∀ t ∈ (if r.canRepeat then r.label else none).map c.shown, m' t = m t) :
    repetition c m' r inner = repetition c m r inner := by
  rw [repetition, repetition]
  generalize (if r.canRepeat then r.label else none) = label at h ⊢
  cases label with
  | none => rfl
  | some label =>
    have hextent := Measure.extent_congr (h (c.shown label) rfl)
    simp only [Option.map_some, hextent]

theorem drawing_congr {flags : List Char} {content : Fragment α}
    (h : ∀ t ∈ (flagsCaption flags).map c.shown, m' t = m t) :
    drawing c m' flags content = drawing c m flags content := by
  rw [drawing, drawing]
  generalize flagsCaption flags = caption at h ⊢
  cases caption with
  | none => rfl
  | some caption =>
    have hextent := Measure.extent_congr (h (c.shown caption) rfl)
    simp only [Option.map_some, hextent]

end Railroad

namespace Pattern

theorem ClassAtom.fragment_congr {atom : ClassAtom} (h : (atom.fragment c m).Agree m m') :
    atom.fragment c m' = atom.fragment c m := by
  cases atom with
  | literal span value => exact Railroad.labelBox_congr c h
  | escape span meaning => exact Railroad.labelBox_congr c h

theorem Member.fragment_congr {member : Member} (h : (member.fragment c m).Agree m m') :
    member.fragment c m' = member.fragment c m := by
  cases member with
  | single atom => exact ClassAtom.fragment_congr c h
  | range span first last =>
    rw [Fragment.Agree, Member.fragment, Railroad.texts_range] at h
    obtain ⟨hhyphen, hends⟩ := List.forall_mem_cons.1 h
    obtain ⟨hfirst, hlast⟩ := List.forall_mem_append.1 hends
    rw [Member.fragment, ClassAtom.fragment_congr c hfirst, ClassAtom.fragment_congr c hlast,
      Railroad.range_congr c hhyphen]
    rfl

theorem runFragments_congr {run : Option (List Char)} (h : ∀ f ∈ runFragments c m run, f.Agree m m') :
    runFragments c m' run = runFragments c m run := by
  cases run with
  | none => rfl
  | some value => exact congrArg (fun f => [f]) (Railroad.labelBox_congr c (h _ (.head _)))

theorem itemFragments_congr {items : List Node}
    (h : ∀ i ∈ items, ∀ n, (i.fragment c m n).Agree m m' → i.fragment c m' n = i.fragment c m n) (n : Nat)
    (run : Option (List Char)) (hagree : ∀ f ∈ itemFragments c m n run items, f.Agree m m') :
    itemFragments c m' n run items = itemFragments c m n run items := by
  induction items generalizing n run with
  | nil => exact runFragments_congr c hagree
  | cons item rest ih =>
    obtain ⟨hitem, hrest⟩ := List.forall_mem_cons.1 h
    obtain ⟨span, value, rfl⟩ | hother := item.literal_or_other
    · exact ih hrest n _ hagree
    · rw [itemFragments_cons_other c m n run rest hother] at hagree ⊢
      obtain ⟨hrun, hmore⟩ := List.forall_mem_append.1 hagree
      obtain ⟨hown, hbehind⟩ := List.forall_mem_cons.1 hmore
      rw [itemFragments_cons_other c m' n run rest hother, runFragments_congr c hrun, hitem n hown,
        ih hrest _ none hbehind]

theorem branchFragments_congr {branches : List Sequence}
    (h : ∀ b ∈ branches, ∀ n, (b.fragment c m n).Agree m m' → b.fragment c m' n = b.fragment c m n) (n : Nat)
    (hagree : ∀ f ∈ branchFragments c m n branches, f.Agree m m') :
    branchFragments c m' n branches = branchFragments c m n branches := by
  induction branches generalizing n with
  | nil => rfl
  | cons branch rest ih =>
    obtain ⟨hbranch, hrest⟩ := List.forall_mem_cons.1 h
    obtain ⟨hown, hbehind⟩ := List.forall_mem_cons.1 hagree
    rw [branchFragments, branchFragments, hbranch n hown, ih hrest _ hbehind]

/-- A construct is drawn alike under two measures that agree on its texts. -/
theorem treeClosed_congr : TreeClosed
    (fun node => ∀ n, (node.fragment c m n).Agree m m' → node.fragment c m' n = node.fragment c m n)
    (fun a => ∀ n, (a.fragment c m n).Agree m m' → a.fragment c m' n = a.fragment c m n)
    (fun s => ∀ n, (s.fragment c m n).Agree m m' → s.fragment c m' n = s.fragment c m n) where
  literal _ _ _ h := Railroad.labelBox_congr c h
  escape _ _ _ h := Railroad.labelBox_congr c h
  anchor _ _ _ h := Railroad.labelBox_congr c h
  wildcard _ _ h := Railroad.labelBox_congr c h
  charset span negated members n h := by
    rw [Fragment.Agree, Node.fragment, Railroad.texts_charset] at h
    obtain ⟨hcaption, hmembers⟩ := List.forall_mem_cons.1 h
    have hparts := agree_of_fragmentTexts hmembers
    have hsame : members.map (Member.fragment c m') = members.map (Member.fragment c m) :=
      List.map_congr_left fun member hmember =>
        Member.fragment_congr c (hparts _ (List.mem_map_of_mem hmember))
    rw [Node.fragment, Node.fragment, hsame, Railroad.charset_congr c hcaption]
  quantified span atom repetition hatom n h := by
    rw [Fragment.Agree, Node.texts_quantified] at h
    obtain ⟨hcaption, hinner⟩ := List.forall_mem_append.1 h
    rw [Node.fragment, Node.fragment, hatom n hinner,
      Railroad.repetition_congr c fun t ht => hcaption t (Option.mem_toList.2 ht)]
  group span kind content hcontent n h := by
    rw [Fragment.Agree, Node.texts_group] at h
    obtain ⟨hcaption, hinner⟩ := List.forall_mem_append.1 h
    rw [Node.fragment, Node.fragment, hcontent _ hinner]
    generalize (if kind.isCapturing then n + 1 else n) = number at hcaption ⊢
    cases hown : kind.caption number with
    | none => rfl
    | some caption => exact Railroad.frame_congr c (hcaption caption (Option.mem_toList.2 hown))
  ofBranches span branches hbranches n h := by
    -- a single branch is drawn as it is
    cases branches with
    | nil => rfl
    | cons first rest =>
      cases rest with
      | nil => exact hbranches first (.head _) n h
      | cons second more =>
        rw [Fragment.Agree, Alternation.texts_fragment] at h
        exact congrArg (Railroad.alternatives c)
          (branchFragments_congr c hbranches n (agree_of_fragmentTexts h))
  ofItems span items hitems n h := by
    rw [Fragment.Agree, Sequence.texts_fragment] at h
    rw [Sequence.fragment, Sequence.fragment,
      itemFragments_congr c hitems n none (agree_of_fragmentTexts h)]

/-- **A drawing depends on the measure only by its texts.** -/
theorem Root.drawing_congr {root : Root} (h : (root.drawing c m).fragment.Agree m m') :
    root.drawing c m' = root.drawing c m := by
  rw [Fragment.Agree, Root.drawing, Railroad.texts_drawing] at h
  obtain ⟨hflags, hcontent⟩ := List.forall_mem_append.1 h
  rw [Root.drawing, Root.drawing, (treeClosed_congr c).alternation root.alternation 0 hcontent]
  exact Railroad.drawing_congr c fun t ht => hflags t (Option.mem_toList.2 ht)

end Pattern

end Congruence

end RegexDiagram
