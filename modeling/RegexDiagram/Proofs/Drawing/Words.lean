import RegexDiagram.Proofs.Drawing.Texts
import RegexDiagram.Proofs.Pattern.Views
import RegexDiagram.Text.Terminal

/-!
# The words of a pattern

What a drawing of a tree says, told by a walk over the tree that draws nothing. The walk gives pieces in
the order of the tree; literals that stand side by side in a sequence share one, and a capturing group
leaves its number open. The numbers are filled in afterwards, from left to right.

`texts_depictRoot` says that a picture shows just these words. The layout counts groups while it
descends, merges literals as it meets them, and leaves wrappers out in several places; none of this
loses, repeats or moves a word.
-/

namespace RegexDiagram

namespace Pattern

/-! ## The walk -/

/-- Something a drawing says: words, or the caption of a capturing group, whose number is not known. -/
inductive Piece where
  | text (words : List Char)
  | capture (name : Option (List Char))
  deriving DecidableEq, Repr

/-- The caption of a group. A group without a number and without a meaning has none. -/
def GroupKind.pieces : GroupKind → List Piece
  | .nonCapturing => []
  | .capturing => [.capture none]
  | .named name => [.capture (some name)]
  | .lookahead false => [.text "positive lookahead".toList]
  | .lookahead true => [.text "negative lookahead".toList]
  | .lookbehind false => [.text "positive lookbehind".toList]
  | .lookbehind true => [.text "negative lookbehind".toList]

/-- The words of a single character or an escape of a class. -/
def ClassAtom.words : ClassAtom → List Char
  | .literal _ value => literalLabel value
  | .escape _ meaning => meaning.label

/-- The words of a class member; the hyphen of a range comes before its ends. -/
def Member.words : Member → List (List Char)
  | .single atom => [atom.words]
  | .range _ first last => [['-'], first.words, last.words]

/-- An item of a sequence: the characters of a literal that stands alone, or the pieces of another
item. -/
inductive Part where
  | literal (value : List Char)
  | other (pieces : List Piece)
  deriving DecidableEq, Repr

namespace Part

/-- A literal that stands alone. -/
def isLiteral : Part → Bool
  | .literal _ => true
  | .other _ => false

/-- The characters of a literal. -/
def value : Part → List Char
  | .literal value => value
  | .other _ => []

/-- The pieces of a sequence: every longest run of literals is one label. -/
def pieces : List Part → List Piece
  | [] => []
  | .other own :: rest => own ++ pieces rest
  | .literal value :: rest =>
    .text (literalLabel (value ++ (rest.takeWhile isLiteral).flatMap Part.value)) ::
      pieces (rest.dropWhile isLiteral)
termination_by parts => parts.length
decreasing_by
  · simp only [List.length_cons]
    omega
  · have hlength := (List.dropWhile_sublist isLiteral (l := rest)).length_le
    simp only [List.length_cons]
    omega

end Part

mutual

/-- The pieces of a node. A repetition of exactly once says nothing. -/
def Node.pieces : Node → List Piece
  | .literal _ value => [.text (literalLabel value)]
  | .escape _ meaning => [.text meaning.label]
  | .anchor _ edge => [.text edge.label]
  | .wildcard _ => [.text wildcardLabel]
  | .charset _ negated members =>
    .text (charsetCaption negated) :: (members.flatMap Member.words).map .text
  | .group _ kind content => kind.pieces ++ content.pieces
  | .quantified _ atom repetition =>
    if repetition.isOnce then atom.pieces
    else
      (if repetition.canRepeat then repetition.label.toList.map .text else []) ++ atom.pieces

/-- The pieces of an alternation, branch by branch. -/
def Alternation.pieces : Alternation → List Piece
  | ⟨_, branches⟩ => branchPieces branches

/-- The pieces of a sequence. -/
def Sequence.pieces : Sequence → List Piece
  | ⟨_, items⟩ => Part.pieces (itemParts items)

/-- The pieces of branches in order. -/
def branchPieces : List Sequence → List Piece
  | [] => []
  | branch :: rest => branch.pieces ++ branchPieces rest

/-- The items of a sequence in order. -/
def itemParts : List Node → List Part
  | [] => []
  | .literal _ value :: rest => .literal value :: itemParts rest
  | item :: rest => .other item.pieces :: itemParts rest

end

/-- The caption of a capturing group. -/
def captureCaption (number : Nat) (name : Option (List Char)) : List Char :=
  "group #".toList ++ decimal number ++
    (match name with
      | none => []
      | some name => [' ', '('] ++ name ++ [')'])

/-- The words of pieces, after `n` capturing groups: each group has the next number. -/
def numbered (n : Nat) : List Piece → List (List Char)
  | [] => []
  | .text words :: rest => words :: numbered n rest
  | .capture name :: rest => captureCaption (n + 1) name :: numbered (n + 1) rest

/-- What a drawing of a tree says: the flags, and then the pieces with groups numbered from one. -/
def Root.words (r : Root) : List (List Char) :=
  (flagsCaption r.flags).toList ++ numbered 0 r.alternation.pieces

/-! ## Numbers -/

/-- The capturing groups among pieces. -/
def captureCount : List Piece → Nat
  | [] => 0
  | .text _ :: rest => captureCount rest
  | .capture _ :: rest => captureCount rest + 1

theorem captureCount_append (first second : List Piece) :
    captureCount (first ++ second) = captureCount first + captureCount second := by
  induction first with
  | nil => exact (Nat.zero_add _).symm
  | cons piece rest ih =>
    cases piece with
    | text words => exact ih
    | capture name =>
      rw [List.cons_append, captureCount, captureCount, ih]
      omega

/-- The numbers go on where the pieces go on. -/
theorem numbered_append (n : Nat) (first second : List Piece) :
    numbered n (first ++ second) = numbered n first ++ numbered (n + captureCount first) second := by
  induction first generalizing n with
  | nil => rfl
  | cons piece rest ih =>
    cases piece with
    | text words => exact congrArg (List.cons words) (ih n)
    | capture name =>
      rw [List.cons_append, numbered, numbered, ih, captureCount, Nat.add_assoc, Nat.add_comm 1]
      rfl

theorem captureCount_text (words : List (List Char)) : captureCount (words.map .text) = 0 := by
  induction words with
  | nil => rfl
  | cons first rest ih => exact ih

theorem numbered_text (n : Nat) (words : List (List Char)) :
    numbered n (words.map .text) = words := by
  induction words with
  | nil => rfl
  | cons first rest ih => exact congrArg (List.cons first) ih

/-! ## Runs of literals -/

namespace Part

theorem pieces_nil : pieces [] = [] := by
  rw [pieces]

theorem pieces_other (own : List Piece) (rest : List Part) :
    pieces (.other own :: rest) = own ++ pieces rest := by
  rw [pieces]

/-- Two literals side by side are as good as one. -/
theorem pieces_merge (first second : List Char) (rest : List Part) :
    pieces (.literal first :: .literal second :: rest) =
      pieces (.literal (first ++ second) :: rest) := by
  rw [pieces, pieces, List.takeWhile_cons_of_pos rfl, List.dropWhile_cons_of_pos rfl,
    List.flatMap_cons, value, List.append_assoc]

/-- A run of literals ends before another item. -/
theorem pieces_run (value : List Char) (own : List Piece) (rest : List Part) :
    pieces (.literal value :: .other own :: rest) =
      .text (literalLabel value) :: (own ++ pieces rest) := by
  rw [pieces, List.takeWhile_cons_of_neg Bool.false_ne_true, List.dropWhile_cons_of_neg Bool.false_ne_true,
    List.flatMap_nil, List.append_nil, pieces_other]

theorem pieces_last (value : List Char) :
    pieces [.literal value] = [.text (literalLabel value)] := by
  rw [pieces, List.takeWhile_nil, List.dropWhile_nil, List.flatMap_nil, List.append_nil, pieces]

/-- The literals that were met last and the items behind them. -/
def after (run : Option (List Char)) (parts : List Part) : List Part :=
  match run with
  | none => parts
  | some value => .literal value :: parts

theorem pieces_after_literal (run : Option (List Char)) (value : List Char) (rest : List Part) :
    pieces (after run (.literal value :: rest)) =
      pieces (after (some (run.getD [] ++ value)) rest) := by
  cases run with
  | none => rfl
  | some first => exact pieces_merge first value rest

theorem pieces_after_other (run : Option (List Char)) (own : List Piece) (rest : List Part) :
    pieces (after run (.other own :: rest)) =
      pieces (after run []) ++ (own ++ pieces rest) := by
  cases run with
  | none => rw [after, after, pieces_other, pieces_nil, List.nil_append]
  | some value =>
    rw [after, after, pieces_run, pieces_last]
    rfl

end Part

/-! ## What is drawn is said -/

/-- A node is drawn with its words, wherever the numbers of its groups begin, and it has as many
numbers as groups. -/
def Node.Said {α : Type} [Scalar α] (c : Spacing α) (m : Measure α) (node : Node) : Prop :=
  captureCount node.pieces = node.captures ∧
    ∀ n, (node.fragment c m n).texts = numbered n node.pieces

/-- An alternation is drawn with its words. -/
def Alternation.Said {α : Type} [Scalar α] (c : Spacing α) (m : Measure α) (a : Alternation) : Prop :=
  captureCount a.pieces = a.captures ∧ ∀ n, (a.fragment c m n).texts = numbered n a.pieces

/-- A sequence is drawn with its words. -/
def Sequence.Said {α : Type} [Scalar α] (c : Spacing α) (m : Measure α) (s : Sequence) : Prop :=
  captureCount s.pieces = s.captures ∧ ∀ n, (s.fragment c m n).texts = numbered n s.pieces

section Said

variable {α : Type} {c : Spacing α}

/-- Unless the text has to be ASCII, it is shown as it is. -/
theorem shown_eq (hc : c.asciiText = false) (text : List Char) : c.shown text = text := by
  rw [Spacing.shown, hc]
  rfl

variable [Scalar α] {m : Measure α}

theorem texts_literalBox (hc : c.asciiText = false) (value : List Char) :
    (Railroad.literalBox c m value).texts = [literalLabel value] := by
  rw [Railroad.literalBox, Railroad.texts_labelBox, shown_eq hc]

theorem ClassAtom.texts_fragment (hc : c.asciiText = false) (atom : ClassAtom) :
    (atom.fragment c m).texts = [atom.words] := by
  cases atom with
  | literal span value => exact texts_literalBox hc value
  | escape span meaning => exact Railroad.texts_labelBox c m _ _

theorem Member.texts_fragment (hc : c.asciiText = false) (member : Member) :
    (member.fragment c m).texts = member.words := by
  cases member with
  | single atom => exact atom.texts_fragment hc
  | range span first last =>
    rw [Member.fragment, Railroad.texts_range, first.texts_fragment hc, last.texts_fragment hc]
    rfl

/-- The pieces of a group say its caption, under the number the layout gives it. -/
theorem GroupKind.numbered_pieces (kind : GroupKind) (n : Nat) :
    numbered n kind.pieces =
      (kind.caption (if kind.isCapturing then n + 1 else n)).toList := by
  cases kind with
  | nonCapturing => rfl
  | capturing => exact congrArg (fun s => [s]) (List.append_nil _)
  | named name =>
    refine congrArg (fun s => [s]) ?_
    simp only [List.append_assoc]
    rfl
  | lookahead negative => cases negative <;> rfl
  | lookbehind negative => cases negative <;> rfl

theorem GroupKind.captureCount_pieces (kind : GroupKind) :
    captureCount kind.pieces = if kind.isCapturing then 1 else 0 := by
  cases kind with
  | lookahead negative => cases negative <;> rfl
  | lookbehind negative => cases negative <;> rfl
  | _ => rfl

theorem itemParts_cons_other {item : Node} (rest : List Node)
    (h : ∀ span value, item ≠ .literal span value) :
    itemParts (item :: rest) = .other item.pieces :: itemParts rest := by
  cases item with
  | literal span value => exact absurd rfl (h span value)
  | _ => rfl

/-- Literals that were met last are drawn with one label. -/
theorem texts_runFragments (hc : c.asciiText = false) (n : Nat) (run : Option (List Char)) :
    captureCount (Part.pieces (Part.after run [])) = 0 ∧
      fragmentTexts (runFragments c m run) = numbered n (Part.pieces (Part.after run [])) := by
  cases run with
  | none =>
    rw [Part.after, Part.pieces_nil]
    exact ⟨rfl, rfl⟩
  | some value =>
    rw [Part.after, Part.pieces_last]
    exact ⟨rfl, (List.append_nil _).trans (texts_literalBox hc value)⟩

/-- Literals that were met last and the items behind them are drawn with their words. -/
theorem texts_itemFragments (hc : c.asciiText = false) {items : List Node}
    (h : ∀ i ∈ items, i.Said c m) (n : Nat) (run : Option (List Char)) :
    captureCount (Part.pieces (Part.after run (itemParts items))) = itemCaptures items ∧
      fragmentTexts (itemFragments c m n run items) =
        numbered n (Part.pieces (Part.after run (itemParts items))) := by
  induction items generalizing n run with
  | nil => exact texts_runFragments hc n run
  | cons item rest ih =>
    obtain ⟨⟨hcount, htexts⟩, hrest⟩ := List.forall_mem_cons.1 h
    obtain ⟨span, value, rfl⟩ | hother := item.literal_or_other
    · obtain ⟨hrestCount, hrestTexts⟩ := ih hrest n (some (run.getD [] ++ value))
      rw [itemParts, Part.pieces_after_literal]
      refine ⟨?_, hrestTexts⟩
      rw [hrestCount, itemCaptures, Node.captures, Nat.zero_add]
    · obtain ⟨hrunCount, hrunTexts⟩ := texts_runFragments (m := m) hc n run
      obtain ⟨hrestCount, hrestTexts⟩ := ih hrest (n + item.captures) none
      rw [Part.after] at hrestCount hrestTexts
      rw [itemParts_cons_other rest hother, itemFragments_cons_other c m n run rest hother,
        Part.pieces_after_other]
      constructor
      · rw [captureCount_append, captureCount_append, hrunCount, hcount, hrestCount, itemCaptures,
          Nat.zero_add]
      · rw [fragmentTexts, List.flatMap_append, List.flatMap_cons, numbered_append,
          numbered_append, hrunCount, Nat.add_zero, hcount, ← htexts, ← hrestTexts, ← hrunTexts]
        rfl

theorem texts_branchFragments {branches : List Sequence} (h : ∀ b ∈ branches, b.Said c m)
    (n : Nat) :
    captureCount (branchPieces branches) = branchCaptures branches ∧
      fragmentTexts (branchFragments c m n branches) = numbered n (branchPieces branches) := by
  induction branches generalizing n with
  | nil => exact ⟨rfl, rfl⟩
  | cons branch rest ih =>
    obtain ⟨⟨hcount, htexts⟩, hrest⟩ := List.forall_mem_cons.1 h
    obtain ⟨hrestCount, hrestTexts⟩ := ih hrest (n + branch.captures)
    rw [branchPieces, branchFragments, branchCaptures]
    constructor
    · rw [captureCount_append, hcount, hrestCount]
    · rw [numbered_append, hcount, ← htexts, ← hrestTexts]
      rfl

/-- A quantified atom says the caption of its loop, if it has one. -/
theorem Node.pieces_quantified (span : Span) (atom : Node) (r : Repetition) :
    Node.pieces (.quantified span atom r) =
      ((if r.canRepeat then r.label else none).toList).map Piece.text ++ atom.pieces := by
  rw [Node.pieces]
  split
  next honce =>
    rw [Repetition.not_canRepeat_of_isOnce honce]
    rfl
  next => cases r.canRepeat <;> rfl

/-- Every construct is drawn with its words if its parts are. -/
theorem treeClosed_said (hc : c.asciiText = false) :
    TreeClosed (Node.Said c m) (Alternation.Said c m) (Sequence.Said c m) where
  literal _ value := ⟨rfl, fun _ => texts_literalBox hc value⟩
  escape _ _ := ⟨rfl, fun _ => Railroad.texts_labelBox c m _ _⟩
  anchor _ _ := ⟨rfl, fun _ => Railroad.texts_labelBox c m _ _⟩
  wildcard _ := ⟨rfl, fun _ => Railroad.texts_labelBox c m _ _⟩
  charset _ negated members := by
    constructor
    · exact captureCount_text _
    · intro n
      rw [Node.fragment, Railroad.texts_charset, Node.pieces, numbered, numbered_text, fragmentTexts,
        List.flatMap_map]
      exact congrArg (fun f => _ :: members.flatMap f) (funext (Member.texts_fragment hc))
  quantified _ atom repetition h := by
    obtain ⟨hcount, htexts⟩ := h
    rw [Node.Said, Node.pieces_quantified, captureCount_append, captureCount_text, Nat.zero_add]
    refine ⟨hcount, fun n => ?_⟩
    rw [Node.texts_quantified, numbered_append, captureCount_text, Nat.add_zero, numbered_text,
      htexts, funext (shown_eq hc), Option.map_id']
  group _ kind content h := by
    obtain ⟨hcount, htexts⟩ := h
    constructor
    · rw [Node.pieces, Node.captures, captureCount_append, kind.captureCount_pieces, hcount]
    · intro n
      have hnumber : n + (if kind.isCapturing then 1 else 0) =
          if kind.isCapturing then n + 1 else n := by
        cases kind.isCapturing <;> rfl
      rw [Node.texts_group, Node.pieces, numbered_append, kind.captureCount_pieces, hnumber,
        kind.numbered_pieces, ← htexts]
  ofBranches span branches h := by
    constructor
    · exact (texts_branchFragments h 0).1
    · intro n
      rw [Alternation.texts_fragment]
      exact (texts_branchFragments h n).2
  ofItems span items h := by
    constructor
    · exact (texts_itemFragments hc h 0 none).1
    · intro n
      rw [Sequence.texts_fragment]
      exact (texts_itemFragments hc h n none).2

end Said

end Pattern

open Pattern

/-- **A picture shows the words of the pattern**, each once and in order, in whatever spacing and
measure, and nothing that the surface showed before. -/
theorem texts_depictRoot {α : Type} [Scalar α] (s : Svg.Surface α) (c : Spacing α) (m : Measure α)
    (root : Root) (hc : c.asciiText = false) :
    (s.depictRoot c m root).texts = root.words := by
  obtain ⟨-, htexts⟩ := (treeClosed_said (m := m) hc).alternation root.alternation
  rw [Svg.Surface.depictRoot, Svg.Surface.texts_depict, Root.drawing, Railroad.texts_drawing, htexts,
    funext (shown_eq hc), Option.map_id', Root.words]

/-- The picture of a group, in pixels. -/
theorem texts_depictRoot_pixels :
    (Spacing.pixels : Spacing Float).asciiText = false ∧
      (Svg.Surface.empty.depictRoot (Spacing.pixels : Spacing Float) .standardFont
        ⟨⟨"(a)".toList, 0⟩, [], .ofBranches 0 [.ofItems 0 [.group ⟨"(a)".toList, 0⟩ .capturing
          (.ofBranches 1 [.ofItems 1 [.literal ⟨['a'], 1⟩ ['a']]])]]⟩).texts =
        ["group #1".toList, "“a”".toList] := by
  refine ⟨rfl, ?_⟩
  rw [texts_depictRoot _ _ _ _ rfl]
  simp only [Root.words, Alternation.ofBranches, Sequence.ofItems, Alternation.pieces, branchPieces,
    Sequence.pieces, itemParts, Node.pieces, Part.pieces_other, Part.pieces_last, Part.pieces_nil]
  decide

end RegexDiagram
