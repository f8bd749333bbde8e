import RegexDiagram.Pattern.Outline
import RegexDiagram.Proofs.Pattern.Controls
import RegexDiagram.Proofs.Pattern.Culprits

/-!
# Listings

A listing should have one line for each node of a tree, indented by the listed nodes it lies in. `Outcome.listing`
says so of the tree alone: it goes through the nodes with those above them (`View.lineages`) and leaves out the
alternations with a single branch. `Outcome.outlineLines_eq` shows that the printers, which walk the tree side by
side, write these lines.

As a text the lines can only be told apart if none of them has a line feed. Texts of the pattern stand between
quotes, where a line feed is spelled out. Only the names of back references and properties are written as they
are, and `read_outline` says that nothing but a line feed in such a name breaks a line.
-/

namespace RegexDiagram.Pattern

/-! ## Nodes and those above them -/

/-- A node of a tree and the nodes it lies in, from the inside out. -/
structure Lineage where
  node : View
  above : List View

namespace View

/-- The nodes right below a node, from left to right. -/
def children : View → List View
  | .root r => [.alternation r.alternation]
  | .alternation a => a.branches.map .sequence
  | .sequence s => s.items.map .node
  | .node (.quantified _ atom _) => [.node atom]
  | .node (.charset _ _ members) => members.map .member
  | .node (.group _ _ content) => [.alternation content]
  | .member (.range _ first last) => [.member (.single first), .member (.single last)]
  | _ => []

/-- A node and all nodes below it. -/
def subtree : View → List View
  | .root r => r.descendants
  | .alternation a => a.views
  | .sequence s => s.views
  | .node n => n.views
  | .member m => m.views

/-- A node comes before the nodes below it. -/
theorem subtree_eq (v : View) : v.subtree = v :: v.children.flatMap subtree := by
  cases v with
  | root r => rw [children, List.flatMap_singleton, subtree, subtree, Root.descendants]
  | alternation a => rw [children, List.flatMap_map, subtree, Alternation.views_eq]; rfl
  | sequence s => rw [children, List.flatMap_map, subtree, Sequence.views_eq]; rfl
  | node n =>
    cases n with
    | quantified => rw [children, List.flatMap_singleton, subtree, subtree, Node.views]
    | charset => rw [children, List.flatMap_map, subtree, Node.views]; rfl
    | group => rw [children, List.flatMap_singleton, subtree, subtree, Node.views]
    | _ => rfl
  | member m => cases m <;> rfl

theorem length_subtree_lt {v child : View} (h : child ∈ v.children) :
    child.subtree.length < v.subtree.length := by
  have hle := (List.sublist_flatten_of_mem (List.mem_map_of_mem (f := subtree) h)).length_le
  rw [subtree_eq v, List.length_cons, List.flatMap_def]
  exact Nat.lt_succ_of_le hle

/-- A node and all nodes below it, each with the nodes above it. -/
def lineages (above : List View) (v : View) : List Lineage :=
  ⟨v, above⟩ :: v.children.attach.flatMap fun child => child.1.lineages (v :: above)
termination_by v.subtree.length
decreasing_by exact length_subtree_lt child.2

theorem lineages_eq (above : List View) (v : View) :
    v.lineages above = ⟨v, above⟩ :: v.children.flatMap (lineages (v :: above)) := by
  rw [lineages, List.flatMap_subtype fun _ _ => rfl, List.unattach_attach]

theorem lineages_node (above : List View) (v : View) : (v.lineages above).map (·.node) = v.subtree := by
  induction above, v using lineages.induct with
  | case1 above v ih =>
    rw [lineages_eq, subtree_eq, List.map_cons, List.map_flatMap]
    exact congrArg (v :: ·) (List.flatMap_congr fun child hchild => ih ⟨child, hchild⟩)

end View

/-- The nodes of a tree, each with those above it. -/
def Root.lineages (r : Root) : List Lineage := (View.root r).lineages []

/-! ## The lines -/

/-- An alternation with a single branch is not listed. -/
def View.isListed : View → Bool
  | .alternation a => a.branches.length ≠ 1
  | _ => true

/-- What a listing calls a node. -/
def View.listedName : View → List Char
  | .node (.quantified _ _ repetition) => "repeat ".toList ++ repetition.text
  | .node (.escape _ meaning) | .member (.single (.escape _ meaning)) => OutlineLine.escapeName meaning
  | .node (.charset _ negated _) => (if negated then "charset (inverted)" else "charset").toList
  | .node (.group _ kind _) => "group (".toList ++ kind.description ++ [')']
  | v => v.kind.title.toList

/-- How far in a node is listed: one step for each listed node above it. -/
def listedDepth (above : List View) : Nat := above.countP View.isListed

/-- The line of a node: what it is, its text and where it begins. -/
def Lineage.line (l : Lineage) : OutlineLine := .ofSpan (listedDepth l.above) l.node.listedName l.node.span

/-- The lines of a node and the nodes below it. -/
def View.listing (above : List View) (v : View) : List OutlineLine :=
  ((v.lineages above).filter (·.node.isListed)).map Lineage.line

/-- The root, its flags if there are any, the listed nodes below the root in the order of the tree, and the
anomalies. -/
def Outcome.listing (o : Outcome) : List OutlineLine :=
  ⟨0, "root ".toList ++ quoted o.root.span.text⟩ ::
    ((if o.root.flags = [] then [] else [⟨1, "flags ".toList ++ quoted o.root.flags⟩]) ++
      (o.root.lineages.tail.filter (·.node.isListed)).map Lineage.line ++
      o.anomalies.map fun a => ⟨0, "warning: ".toList ++ a.message.toList⟩)

/-! ## The printers -/

theorem branchOutlines_eq (depth : Nat) (branches : List Sequence) :
    branchOutlines depth branches = branches.flatMap (Sequence.outline depth) := by
  induction branches with
  | nil => rfl
  | cons branch rest ih => rw [branchOutlines, ih, List.flatMap_cons]

theorem itemOutlines_eq (depth : Nat) (items : List Node) :
    itemOutlines depth items = items.flatMap (Node.outline depth) := by
  induction items with
  | nil => rfl
  | cons item rest ih => rw [itemOutlines, ih, List.flatMap_cons]

namespace View

theorem listing_eq (above : List View) (v : View) :
    v.listing above = (if v.isListed then [Lineage.line ⟨v, above⟩] else []) ++
      v.children.flatMap (listing (v :: above)) := by
  rw [listing, lineages_eq, List.filter_cons, List.filter_flatMap]
  split
  next => rw [List.map_cons, List.map_flatMap]; rfl
  next => rw [List.map_flatMap]; rfl

/-- A listed node stands above those below it, one step to the left. -/
theorem listing_of_isListed {v : View} (h : v.isListed = true) (above : List View) :
    v.listing above = Lineage.line ⟨v, above⟩ :: v.children.flatMap (listing (v :: above)) := by
  rw [listing_eq, if_pos h, List.singleton_append]

/-- A node without any below it has its own line only. -/
theorem listing_leaf {v : View} (h : v.isListed = true) (hchildren : v.children = []) (above : List View) :
    v.listing above = [Lineage.line ⟨v, above⟩] := by
  rw [listing_of_isListed h, hchildren, List.flatMap_nil]

end View

/-- Below a listed node the lines are one step farther in. -/
theorem listedDepth_cons {v : View} (h : v.isListed = true) (above : List View) :
    listedDepth (v :: above) = listedDepth above + 1 :=
  List.countP_cons_of_pos h

theorem ClassAtom.outline_eq (above : List View) (atom : ClassAtom) :
    [OutlineLine.ofAtom (listedDepth above) atom] = (View.member (.single atom)).listing above := by
  rw [View.listing_leaf rfl rfl]
  cases atom <;> rfl

theorem Member.outline_eq (above : List View) (m : Member) :
    m.outline (listedDepth above) = (View.member m).listing above := by
  cases m with
  | single atom => exact ClassAtom.outline_eq above atom
  | range span first last =>
    rw [View.listing_of_isListed rfl, View.children, List.flatMap_cons, List.flatMap_singleton,
      ← ClassAtom.outline_eq, ← ClassAtom.outline_eq, listedDepth_cons rfl]
    rfl

/-- Every printer writes the lines of what it is given. -/
theorem treeClosed_outline : TreeClosed
    (fun n => ∀ above : List View, n.outline (listedDepth above) = (View.node n).listing above)
    (fun a => ∀ above : List View, a.outline (listedDepth above) = (View.alternation a).listing above)
    (fun s => ∀ above : List View, s.outline (listedDepth above) = (View.sequence s).listing above) where
  literal span value above := by rw [View.listing_leaf rfl rfl]; rfl
  escape span meaning above := by rw [View.listing_leaf rfl rfl]; rfl
  anchor span edge above := by rw [View.listing_leaf rfl rfl]; rfl
  wildcard span above := by rw [View.listing_leaf rfl rfl]; rfl
  charset span negated members above := by
    have hdepth := listedDepth_cons (v := .node (.charset span negated members)) rfl above
    rw [View.listing_of_isListed rfl, View.children, List.flatMap_map, Node.outline, ← hdepth]
    exact congrArg (List.cons _) (List.flatMap_congr fun m _ => Member.outline_eq _ m)
  quantified span atom repetition ih above := by
    rw [View.listing_of_isListed rfl, View.children, List.flatMap_singleton, ← ih, listedDepth_cons rfl]
    rfl
  group span kind content ih above := by
    rw [View.listing_of_isListed rfl, View.children, List.flatMap_singleton, ← ih, listedDepth_cons rfl]
    rfl
  ofBranches span branches ih above := by
    match branches with
    | [branch] =>
      -- the branch stands in place of the alternation, no step farther in
      have hdepth : listedDepth (View.alternation ⟨span, [branch]⟩ :: above) = listedDepth above :=
        List.countP_cons_of_neg Bool.false_ne_true
      rw [View.listing_eq, View.children, List.map_singleton, List.flatMap_singleton,
        ← ih branch (List.mem_singleton_self _), hdepth]
      rfl
    | [] =>
      rw [View.listing_leaf rfl rfl]
      rfl
    | first :: second :: rest =>
      have hlisted : (View.alternation ⟨span, first :: second :: rest⟩).isListed = true := by
        simp [View.isListed]
      rw [View.listing_of_isListed hlisted, View.children, List.flatMap_map,
        show Alternation.outline _ ⟨span, first :: second :: rest⟩ = _ :: branchOutlines _ _ from rfl,
        branchOutlines_eq, ← listedDepth_cons hlisted]
      exact congrArg (List.cons _) (List.flatMap_congr fun b hb => ih b hb _)
  ofItems span items ih above := by
    have hdepth := listedDepth_cons (v := .sequence ⟨span, items⟩) rfl above
    rw [View.listing_of_isListed rfl, View.children, List.flatMap_map, Sequence.outline, itemOutlines_eq, ← hdepth]
    exact congrArg (List.cons _) (List.flatMap_congr fun i hi => ih i hi _)

/-- A listing has the lines it should have. -/
theorem Outcome.outlineLines_eq (o : Outcome) : o.outlineLines = o.listing := by
  have hinner : (View.alternation o.root.alternation).listing [.root o.root] = o.root.alternation.outline 1 :=
    (treeClosed_outline.alternation _ [.root o.root]).symm
  have htail : o.root.lineages.tail = (View.alternation o.root.alternation).lineages [.root o.root] := by
    rw [Root.lineages, View.lineages_eq, List.tail_cons, View.children, List.flatMap_singleton]
  rw [listing, htail, outlineLines, Root.outline, ← hinner, List.append_assoc, List.append_assoc,
    List.singleton_append, List.append_assoc]
  rfl

/-- The listing is its lines, each with a line feed behind it. -/
theorem Outcome.outline_eq (o : Outcome) : o.outline = endLines (o.listing.map (·.text)) := by
  rw [outline, outlineLines_eq, endLines, List.flatMap_map]

/-! ## Line feeds -/

theorem feed_notMem {text : List Char} (h : AllPrintable text) : '\n' ∉ text :=
  fun hmem => absurd (h _ hmem) (by decide)

theorem feed_notMem_append {first second : List Char} (h : '\n' ∉ first) (h' : '\n' ∉ second) :
    '\n' ∉ first ++ second :=
  fun hmem => (List.mem_append.1 hmem).elim h h'

/-- Between quotes a line feed is spelled out. -/
theorem feed_notMem_quoted (text : List Char) : '\n' ∉ quoted text := by
  have hchar (c : Char) : '\n' ∉ quotedChar c := by
    unfold quotedChar
    split_ifs with hquote hbackslash hfeed hreturn htab hnull hprintable
    · decide
    · decide
    · decide
    · decide
    · decide
    · decide
    · exact fun hmem => hfeed (List.mem_singleton.1 hmem).symm
    · exact feed_notMem_append (feed_notMem_append (by decide)
        (feed_notMem fun d hd => (toDigits_seen 16 c.toNat d hd).1)) (by decide)
  -- a quote, the characters one by one, and a quote
  refine feed_notMem_append (feed_notMem_append (by decide) fun hmem => ?_) (by decide)
  obtain ⟨c, -, hc⟩ := List.mem_flatMap.1 hmem
  exact hchar c hc

theorem feed_notMem_blanks (depth : Nat) : '\n' ∉ List.replicate (2 * depth) ' ' :=
  fun hmem => absurd (List.eq_of_mem_replicate hmem) (by decide)

/-- The line of a node is broken just if its name is. -/
theorem feed_mem_ofSpan (depth : Nat) (name : List Char) (span : Span) :
    '\n' ∈ (OutlineLine.ofSpan depth name span).text ↔ '\n' ∈ name := by
  have hplace : '\n' ∉ decimal span.offset := feed_notMem (decimal_printable _)
  simp [OutlineLine.text, OutlineLine.ofSpan, hplace, feed_notMem_quoted]

theorem Repetition.feed_notMem_text (r : Repetition) : '\n' ∉ r.text := by
  have hdecimal (n : Nat) : '\n' ∉ decimal n := feed_notMem (decimal_printable n)
  refine feed_notMem_append (feed_notMem_append (feed_notMem_append (by decide) ?_) (by decide)) ?_
  · split
    · exact feed_notMem_append (hdecimal _) (by decide)
    · split
      · exact hdecimal _
      · exact feed_notMem_append (feed_notMem_append (hdecimal _) (by decide)) (hdecimal _)
  · split <;> decide

theorem GroupKind.feed_notMem_description (kind : GroupKind) : '\n' ∉ kind.description := by
  cases kind with
  | named name =>
    exact feed_notMem_append (feed_notMem_append (by decide) (feed_notMem_quoted name)) (by decide)
  | lookahead negative | lookbehind negative => cases negative <;> decide
  | _ => decide

theorem NodeKind.feed_notMem_title (kind : NodeKind) : '\n' ∉ kind.title.toList := by
  cases kind <;> decide

/-- An escape is called by its label, and of the label only the name can have a line feed. -/
theorem Meaning.Worded.feed_mem_escapeName {meaning : Meaning} (h : meaning.Worded) :
    '\n' ∈ OutlineLine.escapeName meaning ↔ '\n' ∈ meaning.name := by
  have hfeed : ¬ Printable '\n' := by decide
  have hfront : '\n' ∉ "escape (".toList := by decide
  have hback : '\n' ∉ [')'] := by decide
  constructor
  · intro hmem
    have hlabel := ((List.mem_append.1 hmem).resolve_right hback)
    exact (h _ ((List.mem_append.1 hlabel).resolve_left hfront)).resolve_right hfeed
  · intro hmem
    have hlabel := meaning.name_subset_label
    exact List.mem_append_left _ (List.mem_append_right _ (hlabel hmem))

namespace View

theorem feed_notMem_listedName {v : View} (h : v.meaning? = none) : '\n' ∉ v.listedName := by
  cases v with
  | node n =>
    cases n with
    | quantified _ _ repetition => exact feed_notMem_append (by decide) repetition.feed_notMem_text
    | escape => exact absurd h (Option.some_ne_none _)
    | charset _ negated =>
      have hcharset : '\n' ∉ (if negated then "charset (inverted)" else "charset").toList := by
        cases negated <;> decide
      exact hcharset
    | group _ kind =>
      exact feed_notMem_append (feed_notMem_append (by decide) kind.feed_notMem_description) (by decide)
    | _ => exact NodeKind.feed_notMem_title _
  | member m =>
    cases m with
    | single atom =>
      cases atom with
      | literal => exact NodeKind.feed_notMem_title _
      | escape => exact absurd h (Option.some_ne_none _)
    | range => exact NodeKind.feed_notMem_title _
  | _ => exact NodeKind.feed_notMem_title _

theorem listedName_of_meaning {v : View} {meaning : Meaning} (h : v.meaning? = some meaning) :
    v.listedName = OutlineLine.escapeName meaning := by
  unfold meaning? at h
  split at h
  · obtain rfl := Option.some.inj h
    rfl
  · obtain rfl := Option.some.inj h
    rfl
  · cases h

/-- The name of a node is broken just if it is that of an escape with a broken name. -/
theorem Worded.feed_mem_listedName {v : View} (h : v.Worded) :
    '\n' ∈ v.listedName ↔ ∃ meaning ∈ v.meaning?, '\n' ∈ meaning.name := by
  cases hmeaning : v.meaning? with
  | none => exact iff_of_false (feed_notMem_listedName hmeaning) fun ⟨_, hnone, _⟩ => by cases hnone
  | some meaning =>
    rw [listedName_of_meaning hmeaning, (h meaning hmeaning).feed_mem_escapeName]
    simp

end View

/-- A message says nothing of the pattern but letters and numbers. -/
theorem Anomaly.Kind.Blames.message_printable {before after : List Char} {c : Char} {kind : Anomaly.Kind}
    (h : kind.Blames before c after) : AllPrintable kind.message.toList := by
  cases kind with
  | unknownEscape letter | incompleteEscape letter =>
    show AllPrintable (_ ++ String.singleton letter).toList
    rw [String.toList_append, String.toList_singleton]
    exact List.forall_mem_append.2 ⟨allPrintable_of_all (by decide),
      List.forall_mem_singleton.2 (printable_of_isAlphanum h.2.2)⟩
  | _ => exact allPrintable_of_all (by decide)

theorem read_feed_notMem_message (input : List Char) {a : Anomaly} (h : a ∈ (read input).anomalies) :
    '\n' ∉ a.message.toList := by
  obtain ⟨before, c, after, -, -, hblames⟩ := read_blamed input a h
  have hplace : (toString a.offset).toList = decimal a.offset := Nat.toList_repr
  rw [Anomaly.message, String.toList_append, String.toList_append, hplace]
  exact feed_notMem_append (feed_notMem_append (feed_notMem hblames.message_printable) (by decide))
    (feed_notMem (decimal_printable _))

/-- The node is no escape with a line feed in its name. -/
def View.NamedOnLine (v : View) : Prop := ∀ meaning ∈ v.meaning?, '\n' ∉ meaning.name

theorem View.isListed_of_meaning {v : View} {meaning : Meaning} (h : meaning ∈ v.meaning?) : v.isListed = true := by
  cases v with
  | alternation => cases h
  | _ => rfl

theorem Root.lineages_node (r : Root) : r.lineages.map (·.node) = r.descendants := View.lineages_node [] (.root r)

theorem Root.lineages_cons (r : Root) : r.lineages = ⟨.root r, []⟩ :: r.lineages.tail := by
  rw [lineages, View.lineages_eq, List.tail_cons]

/-- The line of a node is broken just if the name of an escape is. -/
theorem read_line_feed (input : List Char) {l : Lineage} (h : l ∈ (read input).root.lineages) :
    '\n' ∉ l.line.text ↔ l.node.NamedOnLine := by
  have hnode : l.node ∈ (read input).root.descendants := by
    rw [← Root.lineages_node]
    exact List.mem_map_of_mem h
  rw [Lineage.line, feed_mem_ofSpan, (read_worded input _ hnode).feed_mem_listedName]
  exact ⟨fun hline meaning hmeaning hfeed => hline ⟨meaning, hmeaning, hfeed⟩,
    fun hnamed ⟨meaning, hmeaning, hfeed⟩ => hnamed meaning hmeaning hfeed⟩

/-- Every line of a listing is one line just if no name of a back reference or a property has a line feed. -/
theorem read_listing_lines (input : List Char) :
    (∀ l ∈ (read input).listing, '\n' ∉ l.text) ↔
      ∀ v ∈ (read input).root.descendants, v.NamedOnLine := by
  have hnodes : (∀ v ∈ (read input).root.descendants, v.NamedOnLine) ↔
      ∀ l ∈ (read input).root.lineages.tail, l.node.isListed = true → '\n' ∉ l.line.text := by
    have hlines {l : Lineage} (hl : l ∈ (read input).root.lineages.tail) :=
      read_line_feed input (List.mem_of_mem_tail hl)
    rw [← Root.lineages_node, List.forall_mem_map, Root.lineages_cons, List.forall_mem_cons, List.tail_cons]
    constructor
    · exact fun h l hl _ => (hlines hl).2 (h.2 l hl)
    · refine fun h => ⟨fun _ hnone => absurd hnone (Option.not_mem_none _), fun l hl meaning hmeaning => ?_⟩
      exact (hlines hl).1 (h l hl (View.isListed_of_meaning hmeaning)) meaning hmeaning
  have hquoted {depth : Nat} {front text : List Char} (hfront : '\n' ∉ front) :
      '\n' ∉ (OutlineLine.mk depth (front ++ quoted text)).text :=
    feed_notMem_append (feed_notMem_blanks depth) (feed_notMem_append hfront (feed_notMem_quoted text))
  have hflags : ∀ l ∈ if (read input).root.flags = [] then [] else
      [OutlineLine.mk 1 ("flags ".toList ++ quoted (read input).root.flags)], '\n' ∉ l.text := by
    split
    · exact fun _ hl => absurd hl List.not_mem_nil
    · exact List.forall_mem_singleton.2 (hquoted (by decide))
  have hwarnings : ∀ a ∈ (read input).anomalies,
      '\n' ∉ (OutlineLine.mk 0 ("warning: ".toList ++ a.message.toList)).text := fun a ha =>
    feed_notMem_append (feed_notMem_blanks 0) (feed_notMem_append (by decide) (read_feed_notMem_message input ha))
  simp only [Outcome.listing, List.forall_mem_cons, List.forall_mem_append, List.forall_mem_map, List.mem_filter,
    and_imp, hnodes]
  exact ⟨fun h => h.2.1.2, fun h => ⟨hquoted (by decide), ⟨hflags, h⟩, hwarnings⟩⟩

/-- **A listing has one line for each node**: the root, its flags if there are any, all other nodes but the
alternations with a single branch, each behind two blanks for every listed node above it, and the anomalies. They
are the lines of the text just if no name of a back reference or a property has a line feed. -/
theorem read_outline (input : List Char) :
    (read input).root.lineages.map (·.node) = (read input).root.descendants ∧
      (read input).outline = endLines ((read input).listing.map (·.text)) ∧
      (splitLines (read input).outline = (read input).listing.map (·.text) ++ [[]] ↔
        ∀ v ∈ (read input).root.descendants, v.NamedOnLine) := by
  have houtline := (read input).outline_eq
  refine ⟨Root.lineages_node _, houtline, ?_⟩
  rw [houtline, splitLines_endLines_iff, List.forall_mem_map, read_listing_lines]

/-- A property whose name has a line feed: its line is two. -/
theorem outline_broken : splitLines (read "\\p\x7ba\nb\x7d".toList).outline ≠
    (read "\\p\x7ba\nb\x7d".toList).listing.map (·.text) ++ [[]] := by
  intro hlines
  rw [Outcome.outline_eq, splitLines_endLines_iff, List.forall_mem_map, read_listing_lines] at hlines
  have hmeaning : .property false "a\nb".toList ∈
      (read "\\p\x7ba\nb\x7d".toList).root.descendants.filterMap View.meaning? := by decide +kernel
  obtain ⟨v, hv, hproperty⟩ := List.mem_filterMap.1 hmeaning
  exact absurd (hlines v hv _ hproperty) (by decide)

end RegexDiagram.Pattern
