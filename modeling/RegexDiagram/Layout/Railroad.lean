import RegexDiagram.Layout.Fragment
import RegexDiagram.Layout.Spacing
import RegexDiagram.Pattern.Label

/-!
# Railroads

The layout of a syntax tree. A construct is laid out from the fragments of its parts, so the walk
over the tree is a plain fold, and each construct has one function of its own, which says where the
parts go and which tracks join them.

Capturing groups are numbered in the order of their opening parentheses: every function is given
the number of groups that were opened before.
-/

namespace RegexDiagram

open Pattern

variable {α : Type} [Scalar α]

namespace Railroad

variable (c : Spacing α) (m : Measure α)

/-! ## Labels -/

def textShape (text : List Char) (origin : Point α) (className : String) : Shape α :=
  .text origin (m.extent text) text className

def labelBox (className : String) (text : List Char) : Fragment α :=
  let extent := m.extent text
  let width := extent.width + 2 * c.labelPaddingX
  let height := extent.height + 2 * c.labelPaddingY
  { className
    box := .sized width height 0 (width - c.strokeInset) (c.snapped (height / 2))
    shapes :=
      [.rect ⟨0, 0, width, height⟩ c.labelRadius false "label",
       .text ⟨c.labelPaddingX, c.labelPaddingY⟩ extent text "label"]
    children := [] }

def literalBox (value : List Char) : Fragment α :=
  labelBox c m "literal" (c.shown (literalLabel value))

def widest (fragments : List (Fragment α)) : α :=
  (fragments.map (·.box.width)).foldl Scalar.max 0

/-- Fragments one below the other from the height `y` on, with a gap after each, and the height
behind the last gap. -/
def stack (left : Fragment α → α) (y : α) : List (Fragment α) → List (Placed α) × α
  | [] => ([], y)
  | f :: rest =>
    let (placed, bottom) := stack left (y + (f.box.height + c.branchGap)) rest
    (⟨⟨left f, y⟩, f⟩ :: placed, bottom)

/-! ## Sequences -/

/-- Fragments side by side from the abscissa `x` on, with their tracks at one height, and the
abscissa behind the last gap. -/
def row (track : α) (x : α) : List (Fragment α) → List (Placed α) × α
  | [] => ([], x)
  | f :: rest =>
    let (placed, right) := row track (x + (f.box.width + c.sequenceGap)) rest
    (⟨⟨x, track - f.box.track⟩, f⟩ :: placed, right)

/-- The tracks between neighbours of a row. -/
def rowConnectors (track : α) : List (Placed α) → List (Shape α)
  | a :: b :: rest =>
    .track ⟨a.box.exit, track⟩ ⟨b.box.entry, track⟩ :: rowConnectors track (b :: rest)
  | _ => []

/-- The items of a sequence. A single item stands for itself, and an empty sequence keeps an empty
place. -/
def sequence (fragments : List (Fragment α)) : Fragment α :=
  match fragments with
  | [] => ⟨"sequence", .empty, [], []⟩
  | [only] => only
  | first :: second :: rest =>
    let all := first :: second :: rest
    let track := (all.map (·.box.trackOffset)).foldl Scalar.max 0
    let (placed, right) := row c track 0 all
    let height :=
      placed.foldl (fun h p => Scalar.max h (p.offset.y + p.fragment.box.height)) 0
    let width := right - c.sequenceGap
    let entry := (placed.head?.map (·.box.entry)).getD 0
    let exit := (placed.getLast?.map (·.box.exit)).getD 0
    { className := "sequence"
      box := .sized width height entry exit track
      shapes := rowConnectors track placed
      children := placed }

/-! ## Alternations -/

/-- The connectors from the middle line into a branch and back out of it. A branch on the line is
joined straight, one near to it by a double bend, and one farther away by two curves with an
upright run between them. -/
def branchConnectors (b : Box α) (mid right : α) : List (Shape α) :=
  let dy := b.track - mid
  let half := c.branchIndent / 2
  if Scalar.same dy 0 then
    [.track ⟨0, mid⟩ ⟨b.entry, b.track⟩, .track ⟨b.exit, b.track⟩ ⟨right, mid⟩]
  else if Scalar.less (Scalar.abs dy) c.nearThreshold then
    [.connector
      [.moveTo ⟨0, mid⟩, .quadTo ⟨half, mid⟩ ⟨half, mid + dy / 2⟩,
       .quadTo ⟨half, b.track⟩ ⟨c.branchIndent, b.track⟩, .lineTo ⟨b.entry, b.track⟩],
     .connector
      [.moveTo ⟨b.exit, b.track⟩, .lineTo ⟨right - c.branchIndent, b.track⟩,
       .quadTo ⟨right - half, b.track⟩ ⟨right - half, b.track - dy / 2⟩,
       .quadTo ⟨right - half, mid⟩ ⟨right, mid⟩]]
  else
    let widestRadius := Scalar.min c.curveRadius half
    let r := if c.snap then widestRadius else Scalar.min widestRadius (Scalar.abs dy / 2)
    let s := Scalar.sign dy
    [.connector
      [.moveTo ⟨0, mid⟩, .quadTo ⟨r, mid⟩ ⟨r, mid + s * r⟩, .lineTo ⟨r, b.track - s * r⟩,
       .quadTo ⟨r, b.track⟩ ⟨2 * r, b.track⟩, .lineTo ⟨b.entry, b.track⟩],
     .connector
      [.moveTo ⟨b.exit, b.track⟩, .lineTo ⟨right - 2 * r, b.track⟩,
       .quadTo ⟨right - r, b.track⟩ ⟨right - r, b.track - s * r⟩,
       .lineTo ⟨right - r, mid + s * r⟩, .quadTo ⟨right - r, mid⟩ ⟨right, mid⟩]]

/-- Branches one below the other, joined on both sides to a line through the middle. -/
def alternatives (branches : List (Fragment α)) : Fragment α :=
  let inner := widest branches
  let width := inner + 2 * c.branchIndent
  let right := width - c.strokeInset
  let left (f : Fragment α) := c.branchIndent + c.snapped ((inner - f.box.width) / 2)
  let (placed, bottom) := stack c left 0 branches
  let height := Scalar.max (bottom - c.branchGap) 0
  let mid := c.snapped (height / 2)
  { className := "alternation"
    box := .sized width height 0 right mid
    shapes := placed.flatMap fun p => branchConnectors c p.box mid right
    children := placed }

/-! ## Character classes -/

/-- A range of a class: its ends with a hyphen between them, centred on the tallest. -/
def range (first last : Fragment α) : Fragment α :=
  let hyphen := m.extent ['-']
  let gap := c.snapped (c.labelPaddingX / 2)
  let height := Scalar.max (Scalar.max first.box.height last.box.height) hyphen.height
  let hyphenX := first.box.width + gap
  let lastX := hyphenX + hyphen.width + gap
  let width := lastX + last.box.width
  { className := "charset-range"
    box := .sized width height 0 (width - c.strokeInset) (c.snapped (height / 2))
    shapes := [.text ⟨hyphenX, c.snapped ((height - hyphen.height) / 2)⟩ hyphen ['-'] "label"]
    children :=
      [⟨⟨0, c.snapped ((height - first.box.height) / 2)⟩, first⟩,
       ⟨⟨lastX, c.snapped ((height - last.box.height) / 2)⟩, last⟩] }

/-- A class: its members one below the other in a frame with a caption above. The caption may be
wider than the frame and does not widen it. -/
def charset (negated : Bool) (members : List (Fragment α)) : Fragment α :=
  let caption := charsetCaption negated
  let captionExtent := m.extent caption
  let inner := widest members
  let frameY := captionExtent.height + c.captionGap
  let left (f : Fragment α) := c.labelPaddingX + c.snapped ((inner - f.box.width) / 2)
  let (placed, bottom) := stack c left (frameY + c.labelPaddingY) members
  let bottom := if placed.isEmpty then bottom else bottom - c.branchGap
  let frameWidth := inner + 2 * c.labelPaddingX
  let frameHeight := bottom + c.labelPaddingY - frameY
  { className := "charset"
    box :=
      .sized (Scalar.max frameWidth captionExtent.width) (frameY + frameHeight) 0
        (frameWidth - c.strokeInset) (frameY + c.snapped (frameHeight / 2))
    shapes :=
      [.text ⟨0, 0⟩ captionExtent caption "caption",
       .rect ⟨0, frameY, frameWidth, frameHeight⟩ 0 false ""]
    children := placed }

/-! ## Groups -/

/-- A dashed frame around the content of a group, with a caption above. The track passes through
the frame: the group has the attachments of its content. -/
def frame (caption : List Char) (content : Fragment α) : Fragment α :=
  let captionExtent := m.extent caption
  let inner := content.box
  let pad := c.groupPadding
  let frameWidth := Scalar.max captionExtent.width (inner.width + 2 * pad)
  let frameHeight := inner.height + 2 * pad
  let frameY := captionExtent.height + c.captionGap
  let offset : Point α := ⟨c.snapped ((frameWidth - inner.width) / 2), frameY + pad⟩
  let placed := inner.translate offset.x offset.y
  { className := "subexp"
    box := .sized frameWidth (frameY + frameHeight) placed.entry placed.exit placed.track
    shapes :=
      [.text ⟨0, 0⟩ captionExtent caption "caption",
       .rect ⟨0, frameY, frameWidth, frameHeight⟩ 0 true ""]
    children := [⟨offset, content⟩] }

/-! ## Repetitions -/

/-- The path above a repetition that leaves it out. -/
def skipPath (r track right : α) : Shape α :=
  .connector
    [.moveTo ⟨0, track⟩, .quadTo ⟨r, track⟩ ⟨r, track - r⟩, .lineTo ⟨r, r⟩,
     .quadTo ⟨r, 0⟩ ⟨2 * r, 0⟩, .lineTo ⟨right - 2 * r, 0⟩,
     .quadTo ⟨right - r, 0⟩ ⟨right - r, r⟩, .lineTo ⟨right - r, track - r⟩,
     .quadTo ⟨right - r, track⟩ ⟨right, track⟩]

/-- The path below a repetition that leads from its end back to its start. -/
def loopPath (r track bottom left right : α) : Shape α :=
  .connector
    [.moveTo ⟨right, track⟩, .quadTo ⟨right + r, track⟩ ⟨right + r, track + r⟩,
     .lineTo ⟨right + r, bottom - r⟩, .quadTo ⟨right + r, bottom⟩ ⟨right, bottom⟩,
     .lineTo ⟨left, bottom⟩, .quadTo ⟨left - r, bottom⟩ ⟨left - r, bottom - r⟩,
     .lineTo ⟨left - r, track + r⟩, .quadTo ⟨left - r, track⟩ ⟨left, track⟩]

/-- A repeated fragment: a path above it where it can be left out, a path below it where it can be
taken again, and a caption for the number of times. An arrowhead marks the way that is not
preferred: leaving a lazy repetition out, or taking a greedy one again. -/
def repetition (repetition : Repetition) (inner : Fragment α) : Fragment α :=
  let b := inner.box
  let r := c.curveRadius
  let skips := repetition.canSkip
  let loops := repetition.canRepeat
  let dx := 2 * r
  let dy := if skips then Scalar.max r (2 * r - b.track) else 0
  let track := dy + b.track
  let left := dx + b.entry
  let innerRight := dx + b.exit
  let bottom := Scalar.max (dy + b.height - c.strokeInset + r) (track + 2 * r)
  let label := (if loops then repetition.label else none).map fun label =>
    let text := c.shown label
    let extent := m.extent text
    let origin : Point α :=
      ⟨Scalar.max (innerRight + r - extent.width) 0, bottom + c.strokeInset + c.captionGap⟩
    (origin, extent, text)
  let width := b.width + 2 * dx
  let height := dy + b.height
  let height := if loops then Scalar.max height (bottom + c.strokeInset) else height
  let (width, height) :=
    match label with
    | some (origin, extent, _) =>
      (Scalar.max width (origin.x + extent.width), Scalar.max height (origin.y + extent.height))
    | none => (width, height)
  let right := width - c.strokeInset
  let skipShapes : List (Shape α) :=
    if skips then
      skipPath r track right ::
        (if repetition.greedy then [] else [.arrow ⟨c.snapped (right / 2), 0⟩ .right])
    else []
  let loopShapes : List (Shape α) :=
    if loops then
      loopPath r track bottom left innerRight ::
        (if repetition.greedy then [.arrow ⟨c.snapped ((left + innerRight) / 2), bottom⟩ .left]
         else [])
    else []
  let labelShapes : List (Shape α) :=
    match label with
    | some (origin, extent, text) => [.text origin extent text "repeat-label"]
    | none => []
  { className := "quantified"
    box := .sized width height 0 right track
    shapes :=
      [.track ⟨0, track⟩ ⟨left, track⟩, .track ⟨innerRight, track⟩ ⟨right, track⟩] ++
        skipShapes ++ loopShapes ++ labelShapes
    children := [⟨⟨dx, dy⟩, inner⟩] }

/-! ## Drawings -/

/-- A whole drawing: the terminals at both ends of the content, and the flags above. -/
def drawing (flags : List Char) (content : Fragment α) : Drawing α :=
  let b := content.box
  let caption := (flagsCaption flags).map fun caption =>
    let text := c.shown caption
    (text, m.extent text)
  let (flagShapes, top, leastWidth) :=
    match caption with
    | some (text, extent) =>
      ([Shape.text ⟨c.margin, c.margin⟩ extent text "flags"],
       c.margin + (extent.height + c.captionGap), extent.width + 2 * c.margin)
    | none => ([], c.margin, 0)
  let offset : Point α := ⟨c.margin + 2 * c.terminalRadius + c.terminalStub, top⟩
  let track := top + b.track
  let startX := c.margin + c.terminalRadius
  let right := Scalar.max b.exit (b.width - c.strokeInset)
  let endX := offset.x + right + c.terminalStub
  let width :=
    Scalar.max (endX + 2 * c.terminalRadius + c.strokeInset + c.margin) leastWidth
  let height := top + b.height + c.margin
  let terminal (x : α) : Shape α := .circle ⟨x, track⟩ c.terminalRadius "terminal"
  { width, height
    fragment :=
      { className := "root"
        box := .sized width height startX endX track
        shapes :=
          flagShapes ++
            [.track ⟨startX + c.terminalRadius, track⟩ ⟨offset.x + b.entry, track⟩,
             .track ⟨offset.x + b.exit, track⟩ ⟨endX, track⟩,
             terminal startX, terminal (endX + c.terminalRadius)]
        children := [⟨offset, content⟩] } }

end Railroad

/-! ## The walk over the tree -/

namespace Pattern

mutual

/-- The number of capturing groups in a node. -/
def Node.captures : Node → Nat
  | .quantified _ atom _ => atom.captures
  | .group _ kind content => (if kind.isCapturing then 1 else 0) + content.captures
  | .literal .. | .escape .. | .charset .. | .anchor .. | .wildcard _ => 0

def Alternation.captures : Alternation → Nat
  | ⟨_, branches⟩ => branchCaptures branches

def Sequence.captures : Sequence → Nat
  | ⟨_, items⟩ => itemCaptures items

def branchCaptures : List Sequence → Nat
  | [] => 0
  | branch :: rest => branch.captures + branchCaptures rest

def itemCaptures : List Node → Nat
  | [] => 0
  | item :: rest => item.captures + itemCaptures rest

end

variable (c : Spacing α) (m : Measure α)

/-- A single character or an escape of a class. -/
def ClassAtom.fragment : ClassAtom → Fragment α
  | .literal _ value => Railroad.literalBox c m value
  | .escape _ meaning => Railroad.labelBox c m "charset-escape" meaning.label

def Member.fragment : Member → Fragment α
  | .single atom => atom.fragment c m
  | .range _ first last => Railroad.range c m (first.fragment c m) (last.fragment c m)

/-- The label of literals that stand side by side, if there are any. -/
def runFragments (run : Option (List Char)) : List (Fragment α) :=
  (run.map (Railroad.literalBox c m)).toList

mutual

/-- A node, after `n` groups. -/
def Node.fragment (n : Nat) : Node → Fragment α
  | .literal _ value => Railroad.literalBox c m value
  | .escape _ meaning => Railroad.labelBox c m "escape" meaning.label
  | .anchor _ edge => Railroad.labelBox c m "anchor" edge.label
  | .wildcard _ => Railroad.labelBox c m "any-character" wildcardLabel
  | .charset _ negated members =>
    Railroad.charset c m negated (members.map (Member.fragment c m))
  | .group _ kind content =>
    let number := if kind.isCapturing then n + 1 else n
    match kind.caption number with
    | some caption => Railroad.frame c m caption (content.fragment number)
    | none => content.fragment number
  | .quantified _ atom repetition =>
    if repetition.isOnce then atom.fragment n
    else Railroad.repetition c m repetition (atom.fragment n)

/-- An alternation, after `n` groups. A single branch stands for itself. -/
def Alternation.fragment (n : Nat) : Alternation → Fragment α
  | ⟨_, [only]⟩ => only.fragment n
  | ⟨_, branches⟩ => Railroad.alternatives c (branchFragments n branches)

def Sequence.fragment (n : Nat) : Sequence → Fragment α
  | ⟨_, items⟩ => Railroad.sequence c (itemFragments n none items)

/-- Branches in order, after `n` groups. -/
def branchFragments (n : Nat) : List Sequence → List (Fragment α)
  | [] => []
  | branch :: rest => branch.fragment n :: branchFragments (n + branch.captures) rest

/-- Items in order, after `n` groups. Literals side by side share one label; `run` holds the
characters of those that were met last. -/
def itemFragments (n : Nat) (run : Option (List Char)) : List Node → List (Fragment α)
  | [] => runFragments c m run
  | .literal _ value :: rest => itemFragments n (some (run.getD [] ++ value)) rest
  | item :: rest =>
    runFragments c m run ++ item.fragment n :: itemFragments (n + item.captures) none rest

end

def Root.drawing (r : Root) : Drawing α :=
  Railroad.drawing c m r.flags (r.alternation.fragment c m 0)

end Pattern

end RegexDiagram
