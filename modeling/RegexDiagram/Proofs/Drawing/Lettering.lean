import RegexDiagram.Proofs.Drawing.Repetitions
import RegexDiagram.Proofs.Pattern.Flags
import RegexDiagram.Proofs.Pattern.Letters

/-!
# The texts of a drawing

The characters of the texts of a drawing are those that the tree has from its pattern, printable ones, and
what is shown of curly quotes and ellipses (`Root.texts_allIn`). If the pattern is printable, the drawing has
plain texts only (`Root.texts_plain`). Each text is as wide as it is measured, and is held on both sides: it
has ends that can be seen, or the frame of a label around it (`Root.held`).
-/

namespace RegexDiagram

open Pattern

/-! ## Captions -/

namespace Pattern

/-- A letter of a class, a curly quote or an ellipsis. -/
def Quoting (K : Char → Prop) (c : Char) : Prop := K c ∨ c ∈ ['“', '”', '…']

section Quoting

variable {K : Char → Prop} (hK : HasPrintable K)
include hK

theorem quoting_of_plain {s : List Char} (h : PlainText s) : AllIn (Quoting K) s :=
  fun c hc => (h c hc).imp_left (hK c)

theorem spelledChar_allIn {c : Char} (hc : K c) : AllIn K (spelledChar c) := by
  unfold spelledChar
  split
  · exact hK.all (allPrintable_of_all (by decide))
  split
  · exact hK.all (allPrintable_of_all (by decide))
  split
  · exact hK.all (allPrintable_of_all (by decide))
  split
  · exact (hK.all (allPrintable_of_all (by decide))).append (hK.all (upperHex_printable 4 _))
  · exact List.forall_mem_singleton.2 hc

theorem literalLabel_allIn {value : List Char} (h : AllIn K value) :
    AllIn (Quoting K) (literalLabel value) := by
  have hvalue : AllIn (Quoting K) (value.flatMap spelledChar) := fun d hd => by
    obtain ⟨c, hc, hd⟩ := List.mem_flatMap.1 hd
    exact .inl (spelledChar_allIn hK (h c hc) d hd)
  have hquote (c : Char) (hc : c ∈ ['“', '”', '…']) : AllIn (Quoting K) [c] :=
    List.forall_mem_singleton.2 (.inr hc)
  exact ((hquote '“' (by decide)).append hvalue).append (hquote '”' (by decide))

theorem GroupKind.caption_allIn {kind : GroupKind} {number : Nat} {caption : List Char}
    (hname : AllIn K kind.name) (h : kind.caption number = some caption) : AllIn K caption := by
  have hnumber : AllIn K ("group #".toList ++ decimal number) :=
    hK.all (List.forall_mem_append.2 ⟨allPrintable_of_all (by decide), decimal_printable number⟩)
  cases kind with
  | nonCapturing => exact nomatch h
  | capturing => exact Option.some.inj h ▸ hnumber
  | named name =>
    obtain rfl := Option.some.inj h
    exact ((hnumber.append (hK.all (allPrintable_of_all (by decide)))).append hname).append
      (hK.all (allPrintable_of_all (by decide)))
  | lookahead negative =>
    obtain rfl := Option.some.inj h
    cases negative <;> exact hK.all (allPrintable_of_all (by decide))
  | lookbehind negative =>
    obtain rfl := Option.some.inj h
    cases negative <;> exact hK.all (allPrintable_of_all (by decide))

end Quoting

theorem charsetCaption_printable (negated : Bool) : AllPrintable (charsetCaption negated) := by
  cases negated <;> exact allPrintable_of_all (by decide)

theorem charsetCaption_blunt (negated : Bool) : Blunt (charsetCaption negated) := by
  cases negated <;> exact ⟨begins_of_head (by decide), ends_of_getLast (by decide)⟩

theorem Edge.label_printable (edge : Edge) : AllPrintable edge.label := by
  cases edge <;> exact allPrintable_of_all (by decide)

theorem Repetition.label_seen {r : Repetition} {label : List Char} (h : r.label = some label) :
    PlainText label ∧ Blunt label := by
  have htimes : PlainText " times".toList ∧ Ends " times".toList :=
    ⟨plainText_of_all (by decide), ends_of_getLast (by decide)⟩
  unfold Repetition.label at h
  simp only at h
  split at h
  · split at h
    · split at h
      · exact nomatch h
      · split at h
        · cases h
          exact ⟨plainText_of_all (by decide), begins_of_head (by decide), ends_of_getLast (by decide)⟩
        · cases h
          exact ⟨(decimal_plain _).append htimes.1, (decimal_blunt _).begins.append _,
            htimes.2.append _⟩
    · split at h
      · split at h
        · cases h
          exact ⟨plainText_of_all (by decide), begins_of_head (by decide), ends_of_getLast (by decide)⟩
        · cases h
          exact ⟨.append (.append (plainText_of_all (by decide)) (decimal_plain _)) htimes.1,
            ((begins_of_head (by decide)).append _).append _, htimes.2.append _⟩
      · cases h
        exact ⟨.append (.append (.append (decimal_plain _) (plainText_of_all (by decide)))
            (decimal_plain _)) htimes.1,
          (((decimal_blunt _).begins.append _).append _).append _, htimes.2.append _⟩
  · split at h
    · exact nomatch h
    · cases h
      exact ⟨(decimal_plain _).append (plainText_of_all (by decide)),
        (decimal_blunt _).begins.append _, (ends_of_getLast (by decide)).append _⟩

theorem GroupKind.caption_blunt {kind : GroupKind} {number : Nat} {caption : List Char}
    (h : kind.caption number = some caption) : Blunt caption := by
  have hnumber : Blunt ("group #".toList ++ decimal number) :=
    ⟨(begins_of_head (by decide)).append _, (decimal_blunt number).ends.append _⟩
  cases kind with
  | nonCapturing => exact nomatch h
  | capturing => exact Option.some.inj h ▸ hnumber
  | named name =>
    obtain rfl := Option.some.inj h
    exact ⟨((hnumber.begins.append _).append _).append _, (ends_of_getLast (by decide)).append _⟩
  | lookahead negative =>
    obtain rfl := Option.some.inj h
    cases negative <;> exact ⟨begins_of_head (by decide), ends_of_getLast (by decide)⟩
  | lookbehind negative =>
    obtain rfl := Option.some.inj h
    cases negative <;> exact ⟨begins_of_head (by decide), ends_of_getLast (by decide)⟩

/-! ### Flags -/

theorem flagName_seen {flag : Char} (h : flag.isAlpha = true) :
    PlainText (flagName flag) ∧ Blunt (flagName flag) := by
  obtain ⟨hprintable, hspace⟩ := printable_of_isAlpha h
  have hletter : isBlank flag = false :=
    Bool.eq_false_iff.2 fun hblank => hspace (hprintable.eq_space hblank)
  unfold flagName
  split_ifs
  case neg =>
    exact ⟨List.forall_mem_singleton.2 (.inl hprintable),
      blunt_of_forall (List.cons_ne_nil _ _) (List.forall_mem_singleton.2 hletter)⟩
  all_goals exact ⟨plainText_of_all (by decide), begins_of_head (by decide), ends_of_getLast (by decide)⟩

theorem joinWith_eq_intercalate (separator : List Char) (pieces : List (List Char)) :
    joinWith separator pieces = separator.intercalate pieces := by
  induction pieces with
  | nil => rfl
  | cons first rest ih =>
    cases rest with
    | nil => exact List.intercalate_singleton.symm
    | cons second more => rw [joinWith, ih, List.intercalate_cons_cons]

theorem joinWith_allIn {K : Char → Prop} {separator : List Char} (hseparator : AllIn K separator)
    {pieces : List (List Char)} (h : ∀ piece ∈ pieces, AllIn K piece) :
    AllIn K (joinWith separator pieces) := by
  induction pieces with
  | nil => exact AllIn.nil
  | cons first rest ih =>
    obtain ⟨hfirst, hrest⟩ := List.forall_mem_cons.1 h
    cases rest with
    | nil => exact hfirst
    | cons second more => exact (hfirst.append hseparator).append (ih hrest)

theorem joinWith_ends (separator : List Char) {pieces : List (List Char)} (hne : pieces ≠ [])
    (h : ∀ piece ∈ pieces, Ends piece) : Ends (joinWith separator pieces) := by
  induction pieces with
  | nil => exact absurd rfl hne
  | cons first rest ih =>
    obtain ⟨hfirst, hrest⟩ := List.forall_mem_cons.1 h
    cases rest with
    | nil => exact hfirst
    | cons second more => exact (ih (List.cons_ne_nil _ _) hrest).append _

theorem flagsCaption_seen {flags caption : List Char} (hflags : ∀ c ∈ flags, c.isAlpha = true)
    (h : flagsCaption flags = some caption) : PlainText caption ∧ Blunt caption := by
  have hletters : ∀ c ∈ distinctInOrder flags, c.isAlpha = true :=
    fun c hc => hflags c (mem_distinctInOrder.1 hc)
  unfold flagsCaption at h
  split at h
  next => exact nomatch h
  next hne =>
    obtain rfl := Option.some.inj h
    have hnames : PlainText (joinWith [',', ' '] ((distinctInOrder flags).map flagName)) :=
      joinWith_allIn (K := Plain) (plainText_of_all (by decide))
        (List.forall_mem_map.2 fun c hc => (flagName_seen (hletters c hc)).1)
    have hend : Ends (joinWith [',', ' '] ((distinctInOrder flags).map flagName)) :=
      joinWith_ends _ (fun hnil => hne (List.map_eq_nil_iff.1 hnil))
        (List.forall_mem_map.2 fun c hc => (flagName_seen (hletters c hc)).2.ends)
    exact ⟨(plainText_of_all (by decide)).append hnames, (begins_of_head (by decide)).append _,
      hend.append _⟩

end Pattern

/-! ## Characters of texts -/

section Texts

variable {α : Type} {K L : Char → Prop}

/-- The characters of all texts of a fragment belong to a class. -/
def Fragment.TextsIn (L : Char → Prop) (f : Fragment α) : Prop := ∀ t ∈ f.texts, AllIn L t

theorem textsIn_flatMap {fragments : List (Fragment α)} :
    (∀ t ∈ fragmentTexts fragments, AllIn L t) ↔ ∀ f ∈ fragments, f.TextsIn L := by
  simp only [fragmentTexts, List.mem_flatMap, forall_exists_index, and_imp, Fragment.TextsIn]
  exact forall_comm.trans (forall_congr' fun f => forall_comm)

/-- Labels whose letters belong to one class are shown in the characters of another. -/
structure Spacing.Renders (c : Spacing α) (K L : Char → Prop) : Prop where
  printable : HasPrintable K
  letters : ∀ s, AllIn K s → AllIn L s
  shown : ∀ s, AllIn (Quoting K) s → AllIn L (c.shown s)

namespace Spacing

variable (c : Spacing α)

/-- A printable text of the layout itself. -/
theorem Renders.allIn {c : Spacing α} (hc : c.Renders K L) {s : List Char} (h : AllPrintable s) :
    AllIn L s :=
  hc.letters s (hc.printable.all h)

/-- Curly quotes and ellipses are shown as themselves or in printable characters. -/
theorem renders_quoting (hK : HasPrintable K) : c.Renders K (Quoting K) where
  printable := hK
  letters _ h d hd := .inl (h d hd)
  shown s h := by
    unfold Spacing.shown
    split_ifs
    · intro d hd
      obtain ⟨e, he, hd⟩ := List.mem_flatMap.1 hd
      unfold asciiChar at hd
      split_ifs at hd
      · exact .inl (hK.all (allPrintable_of_all (by decide)) d hd)
      · exact .inl (hK.all (allPrintable_of_all (by decide)) d hd)
      · exact List.mem_singleton.1 hd ▸ h e he
    · exact h

/-- In ASCII they are replaced. -/
theorem renders_ascii (hc : c.asciiText = true) (hK : HasPrintable K) : c.Renders K K where
  printable := hK
  letters _ h := h
  shown s h d hd := by
    rw [Spacing.shown, if_pos hc] at hd
    obtain ⟨e, he, hd⟩ := List.mem_flatMap.1 hd
    unfold asciiChar at hd
    split_ifs at hd with hquote hellipsis
    · exact hK.all (allPrintable_of_all (by decide)) d hd
    · exact hK.all (allPrintable_of_all (by decide)) d hd
    · obtain rfl := List.mem_singleton.1 hd
      refine (h d he).resolve_right fun hmem => ?_
      simp only [List.mem_cons, List.not_mem_nil, or_false] at hmem
      obtain rfl | rfl | rfl := hmem
      · exact hquote (.inl rfl)
      · exact hquote (.inr rfl)
      · exact hellipsis rfl

end Spacing

variable [Scalar α] {c : Spacing α} {m : Measure α}

section Rendering

variable (hc : c.Renders K L)
include hc

namespace Railroad

omit hc in
theorem textsIn_labelBox (className : String) {text : List Char} (h : AllIn L text) :
    (labelBox c m className text).TextsIn L := by
  rw [Fragment.TextsIn, texts_labelBox]
  exact List.forall_mem_singleton.2 h

theorem textsIn_literalBox {value : List Char} (h : AllIn K value) : (literalBox c m value).TextsIn L :=
  textsIn_labelBox _ (hc.shown _ (literalLabel_allIn hc.printable h))

end Railroad

namespace Pattern

theorem ClassAtom.textsIn {atom : ClassAtom} (h : AllIn K atom.letters) :
    (atom.fragment c m).TextsIn L := by
  cases atom with
  | literal span value => exact Railroad.textsIn_literalBox hc h
  | escape span meaning => exact Railroad.textsIn_labelBox _ (hc.letters _ h)

theorem Member.textsIn {member : Member} (h : AllIn K (member.views.flatMap View.letters)) :
    (member.fragment c m).TextsIn L := by
  cases member with
  | single atom =>
    obtain ⟨hatom, -⟩ := List.forall_mem_append.1 h
    exact ClassAtom.textsIn hc hatom
  | range span first last =>
    obtain ⟨-, hends⟩ := List.forall_mem_append.1 h
    obtain ⟨hfirst, hends⟩ := List.forall_mem_append.1 hends
    obtain ⟨hlast, -⟩ := List.forall_mem_append.1 hends
    rw [Fragment.TextsIn, Member.fragment, Railroad.texts_range]
    exact List.forall_mem_cons.2 ⟨hc.allIn (allPrintable_of_all (by decide)),
      List.forall_mem_append.2 ⟨ClassAtom.textsIn hc hfirst, ClassAtom.textsIn hc hlast⟩⟩

theorem runFragments_textsIn {run : Option (List Char)} (h : ∀ value ∈ run, AllIn K value) :
    ∀ f ∈ runFragments c m run, f.TextsIn L := by
  cases run with
  | none => exact fun f hf => absurd hf List.not_mem_nil
  | some value => exact List.forall_mem_singleton.2 (Railroad.textsIn_literalBox hc (h value rfl))

omit hc in
/-- The letters of several nodes, one by one. -/
theorem allIn_flatMap {β : Type} {views : β → List View} {parts : List β} :
    AllIn K ((parts.flatMap views).flatMap View.letters) ↔
      ∀ p ∈ parts, AllIn K ((views p).flatMap View.letters) := by
  simp only [List.flatMap_assoc, AllIn, List.mem_flatMap (l := parts), forall_exists_index,
    and_imp]
  exact forall_comm.trans (forall_congr' fun p => forall_comm)

theorem itemFragments_textsIn {items : List Node}
    (h : ∀ i ∈ items, ∀ n, (i.fragment c m n).TextsIn L)
    (hletters : ∀ i ∈ items, AllIn K (i.views.flatMap View.letters)) (n : Nat)
    {run : Option (List Char)} (hrun : ∀ value ∈ run, AllIn K value) :
    ∀ f ∈ itemFragments c m n run items, f.TextsIn L := by
  induction items generalizing n run with
  | nil => exact runFragments_textsIn hc hrun
  | cons item rest ih =>
    obtain ⟨hitem, hrest⟩ := List.forall_mem_cons.1 h
    obtain ⟨hown, hmore⟩ := List.forall_mem_cons.1 hletters
    obtain ⟨span, value, rfl⟩ | hother := item.literal_or_other
    · refine ih hrest hmore n fun whole hwhole => ?_
      obtain rfl := Option.some.inj hwhole
      obtain ⟨hvalue, -⟩ := List.forall_mem_append.1 hown
      refine List.forall_mem_append.2 ⟨?_, hvalue⟩
      cases run with
      | none => exact AllIn.nil
      | some front => exact hrun front rfl
    · rw [itemFragments_cons_other c m n run rest hother]
      exact List.forall_mem_append.2 ⟨runFragments_textsIn hc hrun,
        List.forall_mem_cons.2
          ⟨hitem n, ih hrest hmore _ fun _ hnone => absurd hnone (Option.not_mem_none _)⟩⟩

/-- A construct has texts in the class if its parts do. -/
theorem treeClosed_textsIn (m : Measure α) : TreeClosed
    (fun node => AllIn K (node.views.flatMap View.letters) → ∀ n, (node.fragment c m n).TextsIn L)
    (fun a => AllIn K (a.views.flatMap View.letters) → ∀ n, (a.fragment c m n).TextsIn L)
    (fun s => AllIn K (s.views.flatMap View.letters) → ∀ n, (s.fragment c m n).TextsIn L) where
  literal span value h n := Railroad.textsIn_literalBox hc (List.forall_mem_append.1 h).1
  escape span meaning h n :=
    Railroad.textsIn_labelBox _ (hc.letters _ (List.forall_mem_append.1 h).1)
  anchor span edge _ n := Railroad.textsIn_labelBox _ (hc.allIn edge.label_printable)
  wildcard span _ n :=
    Railroad.textsIn_labelBox _ (hc.allIn (allPrintable_of_all (by decide)))
  charset span negated members h n := by
    have hmembers := allIn_flatMap.1 (List.forall_mem_append.1 h).2
    rw [Fragment.TextsIn, Node.fragment, Railroad.texts_charset]
    exact List.forall_mem_cons.2 ⟨hc.allIn (charsetCaption_printable negated),
      textsIn_flatMap.2 (List.forall_mem_map.2 fun member hmember =>
        Member.textsIn hc (hmembers member hmember))⟩
  quantified span atom repetition hatom h n := by
    have hinner := hatom (List.forall_mem_append.1 h).2 n
    rw [Fragment.TextsIn, Node.texts_quantified]
    refine List.forall_mem_append.2 ⟨fun t ht => ?_, hinner⟩
    obtain ⟨label, hlabel, rfl⟩ := Option.map_eq_some_iff.1 (Option.mem_toList.1 ht)
    split at hlabel
    · exact hc.shown _ (quoting_of_plain hc.printable (Repetition.label_seen hlabel).1)
    · cases hlabel
  group span kind content hcontent h n := by
    obtain ⟨hname, hinner⟩ := List.forall_mem_append.1 h
    rw [Fragment.TextsIn, Node.texts_group]
    refine List.forall_mem_append.2 ⟨fun caption hcaption => ?_, hcontent hinner _⟩
    exact hc.letters _ (GroupKind.caption_allIn hc.printable hname (Option.mem_toList.1 hcaption))
  ofBranches span branches hbranches h n := by
    rw [Alternation.views_eq, List.flatMap_cons] at h
    have hparts := allIn_flatMap.1 (List.forall_mem_append.1 h).2
    rw [Fragment.TextsIn, Alternation.texts_fragment]
    exact textsIn_flatMap.2 (DrawnClosed.branchFragments (fun b hb => hbranches b hb (hparts b hb)) n)
  ofItems span items hitems h n := by
    rw [Sequence.views_eq, List.flatMap_cons] at h
    have hparts := allIn_flatMap.1 (List.forall_mem_append.1 h).2
    rw [Fragment.TextsIn, Sequence.texts_fragment]
    exact textsIn_flatMap.2 (itemFragments_textsIn hc (fun i hi => hitems i hi (hparts i hi)) hparts n
      fun _ hnone => absurd hnone (Option.not_mem_none _))

/-- The characters of the texts of a drawing. -/
theorem Root.texts_allIn (m : Measure α) {root : Root}
    (hletters : AllIn K (root.alternation.views.flatMap View.letters))
    (hflags : ∀ d ∈ root.flags, d.isAlpha = true) : (root.drawing c m).fragment.TextsIn L := by
  have hcontent := (treeClosed_textsIn hc m).alternation root.alternation hletters 0
  rw [Root.drawing, Fragment.TextsIn, Railroad.texts_drawing]
  refine List.forall_mem_append.2 ⟨fun t ht => ?_, hcontent⟩
  obtain ⟨caption, hcaption, rfl⟩ := Option.map_eq_some_iff.1 (Option.mem_toList.1 ht)
  exact hc.shown _ (quoting_of_plain hc.printable (flagsCaption_seen hflags hcaption).1)

end Pattern

end Rendering

/-- The drawing of a printable tree has plain texts. -/
theorem Pattern.Root.texts_plain (c : Spacing α) (m : Measure α) {root : Root}
    (hletters : AllPrintable (root.alternation.views.flatMap View.letters))
    (hflags : ∀ d ∈ root.flags, d.isAlpha = true) :
    ∀ t ∈ (root.drawing c m).fragment.texts, PlainText t :=
  Root.texts_allIn (c.renders_quoting fun _ h => h) m hletters hflags

end Texts

/-! ## Texts that are held -/

section Held

variable {α : Type} [Scalar α] {c : Spacing α} {m : Measure α}

/-- The frame of a label stands around a text. -/
def Framed (c : Spacing α) (shapes : List (Shape α)) (origin : Point α) (extent : Extent α) : Prop :=
  origin = ⟨c.labelPaddingX, c.labelPaddingY⟩ ∧ ∃ radius dashed,
    .rect ⟨0, 0, extent.width + 2 * c.labelPaddingX, extent.height + 2 * c.labelPaddingY⟩ radius dashed
      "label" ∈ shapes

/-- A shape that is a text is as wide as it is measured, and its ends can be seen or stand in a frame. -/
def Shape.Held (c : Spacing α) (m : Measure α) (shapes : List (Shape α)) : Shape α → Prop
  | .text origin extent words _ => extent = m.extent words ∧ (Blunt words ∨ Framed c shapes origin extent)
  | _ => True

/-- All texts of the fragment itself are held. -/
def Fragment.Held (c : Spacing α) (m : Measure α) (f : Fragment α) : Prop :=
  ∀ s ∈ f.shapes, s.Held c m f.shapes

theorem Shape.held_of_text? {shapes : List (Shape α)} {s : Shape α} (h : s.text? = none) :
    s.Held c m shapes := by
  cases s with
  | text origin extent text className => exact nomatch h
  | _ => trivial

/-- There is nothing to be held in a fragment without texts of its own. -/
theorem Fragment.held_of_shapeTexts {f : Fragment α} (h : shapeTexts f.shapes = []) : f.Held c m :=
  fun s hs => Shape.held_of_text? (List.filterMap_eq_nil_iff.1 h s hs)

namespace Railroad

theorem held_labelBox (className : String) (text : List Char) :
    (labelBox c m className text).Held c m :=
  List.forall_mem_cons.2 ⟨trivial, List.forall_mem_singleton.2
    ⟨rfl, .inr ⟨rfl, c.labelRadius, false, .head _⟩⟩⟩

theorem held_sequence {parts : List (Fragment α)} (h : ∀ f ∈ parts, f.Held c m) :
    (sequence c parts).Held c m := by
  cases parts with
  | nil => exact fun s hs => absurd hs List.not_mem_nil
  | cons first rest =>
    cases rest with
    | nil => exact h first (.head _)
    | cons second more => exact Fragment.held_of_shapeTexts (shapeTexts_rowConnectors _ _)

theorem held_alternatives (branches : List (Fragment α)) : (alternatives c branches).Held c m := by
  intro s hs
  obtain ⟨p, -, hs⟩ := List.mem_flatMap.1 hs
  exact Shape.held_of_text? (List.filterMap_eq_nil_iff.1 (shapeTexts_branchConnectors _ _ _ _) s hs)

theorem held_range (first last : Fragment α) : (range c m first last).Held c m :=
  List.forall_mem_singleton.2
    ⟨rfl, .inl ⟨begins_of_head (by decide), ends_of_getLast (by decide)⟩⟩

theorem held_charset (negated : Bool) (members : List (Fragment α)) :
    (charset c m negated members).Held c m :=
  List.forall_mem_cons.2
    ⟨⟨rfl, .inl (charsetCaption_blunt negated)⟩, List.forall_mem_singleton.2 trivial⟩

theorem held_frame {caption : List Char} (h : Blunt caption) (content : Fragment α) :
    (frame c m caption content).Held c m :=
  List.forall_mem_cons.2 ⟨⟨rfl, .inl h⟩, List.forall_mem_singleton.2 trivial⟩

theorem held_repetition (r : Repetition) (inner : Fragment α) :
    (repetition c m r inner).Held c m := by
  have hskip : ∀ s ∈ skipShapes c m r inner, s.text? = none := by
    unfold skipShapes
    cases r.canSkip with
    | false => exact fun s hs => absurd hs List.not_mem_nil
    | true =>
      cases r.greedy with
      | false => exact List.forall_mem_cons.2 ⟨rfl, List.forall_mem_singleton.2 rfl⟩
      | true => exact List.forall_mem_singleton.2 rfl
  have hloop : ∀ s ∈ loopShapes c r inner, s.text? = none := by
    unfold loopShapes
    cases r.canRepeat with
    | false => exact fun s hs => absurd hs List.not_mem_nil
    | true =>
      cases r.greedy with
      | false => exact List.forall_mem_singleton.2 rfl
      | true => exact List.forall_mem_cons.2 ⟨rfl, List.forall_mem_singleton.2 rfl⟩
  have hcaption (shapes : List (Shape α)) : ∀ s ∈ captionShapes c m r inner, s.Held c m shapes := by
    unfold captionShapes lapCaption
    cases hlabel : (if r.canRepeat then r.label else none) with
    | none => exact fun s hs => absurd hs List.not_mem_nil
    | some label =>
      refine List.forall_mem_singleton.2 ⟨rfl, .inl (c.shown_blunt ?_)⟩
      split at hlabel
      · exact (Repetition.label_seen hlabel).2
      · cases hlabel
  unfold Fragment.Held
  rw [shapes_repetition]
  refine List.forall_mem_cons.2 ⟨trivial, List.forall_mem_cons.2 ⟨trivial, ?_⟩⟩
  exact List.forall_mem_append.2 ⟨List.forall_mem_append.2
    ⟨fun s hs => Shape.held_of_text? (hskip s hs), fun s hs => Shape.held_of_text? (hloop s hs)⟩,
      hcaption _⟩

theorem held_drawing {flags : List Char} (hflags : ∀ d ∈ flags, d.isAlpha = true)
    (content : Fragment α) : (drawing c m flags content).fragment.Held c m := by
  unfold drawing
  cases hcaption : flagsCaption flags with
  | none => exact Fragment.held_of_shapeTexts rfl
  | some caption =>
    exact List.forall_mem_cons.2 ⟨⟨rfl, .inl (c.shown_blunt (flagsCaption_seen hflags hcaption).2)⟩,
      fun s hs => Shape.held_of_text? (List.filterMap_eq_nil_iff.1 rfl s hs)⟩

theorem drawnClosed_held (c : Spacing α) (m : Measure α) : DrawnClosed c m (Fragment.Held c m) where
  label className _ text := held_labelBox className text
  sequence _ h := held_sequence h
  alternatives branches _ := held_alternatives branches
  range first last _ _ := held_range first last
  charset negated members _ := held_charset negated members
  frame _ _ _ content hcaption _ := held_frame (GroupKind.caption_blunt hcaption) content
  repetition r inner _ := held_repetition r inner

end Railroad

/-- All texts of a drawing are held, if its flags are letters. -/
theorem Pattern.Root.held (c : Spacing α) (m : Measure α) {root : Root}
    (hflags : ∀ d ∈ root.flags, d.isAlpha = true) :
    ∀ f ∈ (root.drawing c m).fragment.descendants, f.Held c m :=
  (Railroad.drawnClosed_held c m).drawing root fun content _ => Railroad.held_drawing hflags content

end Held

end RegexDiagram
