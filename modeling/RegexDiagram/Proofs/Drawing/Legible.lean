import RegexDiagram.Proofs.Drawing.Lettering

/-!
# Letters that can be read in a drawing

A drawing leaves out no letter of its tree: control characters are spelled out, curly quotes and ellipses
may be replaced, and every other letter stands in one of the texts as it is (`Root.told`).
-/

namespace RegexDiagram

open Pattern

/-! ## Bare characters -/

/-- A character that every drawing shows as itself. -/
def Bare (c : Char) : Prop := isControl c = false ∧ c ∉ ['“', '”', '…']

theorem Bare.mem_spelledChar {c : Char} (h : Bare c) : c ∈ spelledChar c := by
  have hcontrol {d : Char} (hd : isControl d = true) : c ≠ d := by
    rintro rfl
    exact Bool.noConfusion (h.1.symm.trans hd)
  rw [spelledChar, if_neg (hcontrol (by decide)), if_neg (hcontrol (by decide)), if_neg (hcontrol (by decide)),
    h.1, if_neg Bool.false_ne_true]
  exact .head _

theorem Bare.mem_shown {α : Type} {c : Char} (h : Bare c) (spacing : Spacing α) {text : List Char}
    (hc : c ∈ text) : c ∈ spacing.shown text := by
  have hother := h.2
  simp only [List.mem_cons, List.not_mem_nil, or_false, not_or] at hother
  unfold Spacing.shown
  split
  · refine List.mem_flatMap.2 ⟨c, hc, ?_⟩
    rw [Spacing.asciiChar, if_neg (not_or.2 ⟨hother.1, hother.2.1⟩), if_neg hother.2.2]
    exact .head _
  · exact hc

/-- Every bare character of a text stands in one of the given texts. -/
def Told (s : List Char) (texts : List (List Char)) : Prop := ∀ c ∈ s, Bare c → ∃ t ∈ texts, c ∈ t

namespace Told

variable {s t : List Char} {texts more : List (List Char)}

theorem nil : Told [] texts := fun _ hc => absurd hc List.not_mem_nil

theorem append (hs : Told s texts) (ht : Told t texts) : Told (s ++ t) texts :=
  List.forall_mem_append.2 ⟨hs, ht⟩

theorem mono (h : Told s texts) (hsub : texts ⊆ more) : Told s more := fun c hc hbare =>
  (h c hc hbare).imp fun _ => And.imp_left (hsub ·)

theorem flatMap {β : Type} {parts : List β} {letters : β → List Char}
    (h : ∀ p ∈ parts, Told (letters p) texts) : Told (parts.flatMap letters) texts := fun c hc hbare => by
  obtain ⟨p, hp, hc⟩ := List.mem_flatMap.1 hc
  exact h p hp c hc hbare

theorem of_subset (h : s ⊆ t) : Told s [t] := fun _ hc _ => ⟨t, .head _, h hc⟩

end Told

theorem texts_subset {α : Type} {fragments : List (Fragment α)} {f : Fragment α} (hf : f ∈ fragments) :
    f.texts ⊆ fragmentTexts fragments :=
  fun _ ht => List.mem_flatMap.2 ⟨f, hf, ht⟩

theorem fragmentTexts_subset {α : Type} {some all : List (Fragment α)} (h : some ⊆ all) :
    fragmentTexts some ⊆ fragmentTexts all := fun t ht => by
  obtain ⟨f, hf, ht⟩ := List.mem_flatMap.1 ht
  exact texts_subset (h hf) ht

/-! ## Constructs -/

section Constructs

variable {α : Type} [Scalar α] (c : Spacing α) (m : Measure α)

theorem told_labelBox (className : String) (text : List Char) :
    Told text (Railroad.labelBox c m className text).texts := by
  rw [Railroad.texts_labelBox]
  exact .of_subset (List.Subset.refl text)

theorem told_literalBox (value : List Char) : Told value (Railroad.literalBox c m value).texts := by
  intro e he hbare
  have hlabel : e ∈ literalLabel value :=
    List.mem_append_left _ (List.mem_append_right _ (List.mem_flatMap.2 ⟨e, he, hbare.mem_spelledChar⟩))
  exact told_labelBox c m _ _ e (hbare.mem_shown c hlabel) hbare

namespace Pattern

theorem ClassAtom.told (atom : ClassAtom) : Told atom.letters (atom.fragment c m).texts := by
  cases atom with
  | literal span value => exact told_literalBox c m value
  | escape span meaning => exact told_labelBox c m _ _

theorem Member.told (member : Member) :
    Told (member.views.flatMap View.letters) (member.fragment c m).texts := by
  cases member with
  | single atom => exact (atom.told c m).append .nil
  | range span first last =>
    rw [Member.fragment, Railroad.texts_range]
    refine Told.append .nil (((first.told c m).mono ?_).append (((last.told c m).mono ?_).append .nil))
    · exact List.subset_cons_of_subset _ (List.subset_append_left _ _)
    · exact List.subset_cons_of_subset _ (List.subset_append_right _ _)

/-- A group that has a name has it in its caption. -/
theorem GroupKind.told (kind : GroupKind) (number : Nat) :
    Told kind.name (kind.caption number).toList := by
  cases kind with
  | named name =>
    exact .of_subset (List.subset_append_of_subset_left _ (List.subset_append_right _ _))
  | _ => exact .nil

theorem runFragments_told (run : Option (List Char)) :
    Told (run.getD []) (fragmentTexts (runFragments c m run)) := by
  cases run with
  | none => exact .nil
  | some value => exact (told_literalBox c m value).mono (texts_subset (.head _))

/-- Literals that run together and the items behind them. -/
theorem itemFragments_told {items : List Node}
    (h : ∀ i ∈ items, ∀ n, Told (i.views.flatMap View.letters) (i.fragment c m n).texts) (n : Nat)
    (run : Option (List Char)) :
    Told (run.getD [] ++ items.flatMap fun i => i.views.flatMap View.letters)
      (fragmentTexts (itemFragments c m n run items)) := by
  induction items generalizing n run with
  | nil => exact (runFragments_told c m run).append .nil
  | cons item rest ih =>
    obtain ⟨hitem, hrest⟩ := List.forall_mem_cons.1 h
    obtain ⟨span, value, rfl⟩ | hother := item.literal_or_other
    · have hletters : (Node.literal span value :: rest).flatMap (fun i => i.views.flatMap View.letters) =
          value ++ rest.flatMap fun i => i.views.flatMap View.letters := by
        rw [List.flatMap_cons]
        exact congrArg (· ++ _) (List.append_nil value)
      rw [hletters, ← List.append_assoc]
      exact ih hrest n (some (run.getD [] ++ value))
    · have hmore : Told (rest.flatMap fun i => i.views.flatMap View.letters)
          (fragmentTexts (itemFragments c m (n + item.captures) none rest)) := ih hrest _ none
      rw [itemFragments_cons_other c m n run rest hother]
      refine Told.append ((runFragments_told c m run).mono (fragmentTexts_subset (List.subset_append_left _ _)))
        (((hitem n).mono (texts_subset ?_)).append (hmore.mono (fragmentTexts_subset ?_)))
      · exact List.mem_append_right _ (.head _)
      · exact List.subset_append_of_subset_right _ (List.subset_cons_self _ _)

theorem branchFragments_told {branches : List Sequence}
    (h : ∀ b ∈ branches, ∀ n, Told (b.views.flatMap View.letters) (b.fragment c m n).texts) (n : Nat) :
    Told (branches.flatMap fun b => b.views.flatMap View.letters)
      (fragmentTexts (branchFragments c m n branches)) := by
  induction branches generalizing n with
  | nil => exact .nil
  | cons branch rest ih =>
    obtain ⟨hbranch, hrest⟩ := List.forall_mem_cons.1 h
    exact ((hbranch n).mono (texts_subset (.head _))).append
      ((ih hrest _).mono (fragmentTexts_subset (List.subset_cons_self _ _)))

/-- A construct tells its letters if its parts tell theirs. -/
theorem treeClosed_told : TreeClosed
    (fun node => ∀ n, Told (node.views.flatMap View.letters) (node.fragment c m n).texts)
    (fun a => ∀ n, Told (a.views.flatMap View.letters) (a.fragment c m n).texts)
    (fun s => ∀ n, Told (s.views.flatMap View.letters) (s.fragment c m n).texts) where
  literal _ value _ := (told_literalBox c m value).append .nil
  escape _ _ _ := (told_labelBox c m _ _).append .nil
  anchor _ _ _ := .nil
  wildcard _ _ := .nil
  charset span negated members n := by
    rw [Node.fragment, Railroad.texts_charset, Node.views, List.flatMap_cons, List.flatMap_assoc]
    refine Told.append .nil (Told.flatMap fun member hmember => (member.told c m).mono ?_)
    exact List.subset_cons_of_subset _ (texts_subset (List.mem_map_of_mem hmember))
  quantified span atom repetition hatom n := by
    rw [Node.texts_quantified]
    exact Told.append .nil ((hatom n).mono (List.subset_append_right _ _))
  group span kind content hcontent n := by
    rw [Node.texts_group, Node.views, List.flatMap_cons]
    exact ((GroupKind.told kind _).mono (List.subset_append_left _ _)).append
      ((hcontent _).mono (List.subset_append_right _ _))
  ofBranches span branches hbranches n := by
    rw [Alternation.texts_fragment, Alternation.views_eq, List.flatMap_cons, List.flatMap_assoc]
    exact Told.append .nil (branchFragments_told c m hbranches n)
  ofItems span items hitems n := by
    rw [Sequence.texts_fragment, Sequence.views_eq, List.flatMap_cons, List.flatMap_assoc]
    exact Told.append .nil (itemFragments_told c m hitems n none)

/-- Every letter of a tree stands in a text of its drawing, unless it is spelled out or replaced. -/
theorem Root.told (root : Root) :
    Told (root.alternation.views.flatMap View.letters) (root.drawing c m).fragment.texts := by
  rw [Root.drawing, Railroad.texts_drawing]
  exact ((treeClosed_told c m).alternation root.alternation 0).mono (List.subset_append_right _ _)

end Pattern

end Constructs

end RegexDiagram
