import RegexDiagram.Proofs.Drawing.Joints
import RegexDiagram.Text.Terminal

/-!
# Routes

A route runs along the connectors of a drawing, over the boundaries of fragments, and passes stations on
its way: the labels and classes, where no connector is drawn. `Alternation.Passes` says which stations a
way through the tree has, for every choice of branches and every number of laps that a repetition leaves
open, without regard to the drawing.

`Root.unbroken` says that the railroad of every tree is unbroken: the connectors of all fragments meet
(`Fragment.Joined`), and each way through the tree is a route from the first terminal to the second.
-/

namespace RegexDiagram

open Pattern

/-! ## Routes -/

/-- A point of a fragment, where it lies if the corner of the fragment lies at `origin`. -/
def Point.absolute (origin p : Point ℚ) : Point ℚ := origin.translate p.x p.y

/-- What a track passes without a connector. -/
def stationNames : List String := "charset" :: labelNames

/-- From one point of a drawing to another along its connectors and through its stations, with the texts
of each station. -/
inductive Route (drawn : List (Placed ℚ)) : Point ℚ → Point ℚ → List (List (List Char)) → Prop
  | stay (p : Point ℚ) : Route drawn p p []
  | track {place : Placed ℚ} {s : Shape ℚ} {p q r : Point ℚ} {stops : List (List (List Char))}
      (hplace : place ∈ drawn) (hshape : s ∈ place.fragment.shapes) (hjoins : s.Joins p q)
      (h : Route drawn (place.offset.absolute q) r stops) :
      Route drawn (place.offset.absolute p) r stops
  | station {place : Placed ℚ} {r : Point ℚ} {stops : List (List (List Char))}
      (hplace : place ∈ drawn) (hstation : place.fragment.className ∈ stationNames)
      (h : Route drawn (place.offset.absolute place.fragment.box.finish) r stops) :
      Route drawn (place.offset.absolute place.fragment.box.start) r (place.fragment.texts :: stops)

/-- Each item of the second list is related to one of the first. -/
theorem exists_of_forall₂ {α β : Type} {R : α → β → Prop} {xs : List α} {ys : List β}
    (h : List.Forall₂ R xs ys) : ∀ y ∈ ys, ∃ x ∈ xs, R x y := by
  induction h with
  | nil => exact fun y hy => absurd hy List.not_mem_nil
  | cons hxy _ ih =>
    refine List.forall_mem_cons.2 ⟨⟨_, .head _, hxy⟩, fun y hy => ?_⟩
    obtain ⟨x, hx, hr⟩ := ih y hy
    exact ⟨x, .tail _ hx, hr⟩

theorem Route.trans {drawn : List (Placed ℚ)} {p q r : Point ℚ} {stops more : List (List (List Char))}
    (h : Route drawn p q stops) (h' : Route drawn q r more) : Route drawn p r (stops ++ more) := by
  induction h with
  | stay p => exact h'
  | track hplace hshape hjoins _ ih => exact .track hplace hshape hjoins (ih h')
  | station hplace hstation _ ih => exact .station hplace hstation (ih h')

namespace Fragment

/-- There is a route through the fragment with these stops, wherever it is drawn. -/
def Leads (f : Fragment ℚ) (stops : List (List (List Char))) : Prop :=
  ∀ origin drawn, f.placements origin ⊆ drawn →
    Route drawn (origin.absolute f.box.start) (origin.absolute f.box.finish) stops

variable {f : Fragment ℚ} {origin : Point ℚ} {drawn : List (Placed ℚ)} {stops : List (List (List Char))}

theorem mem_placements (f : Fragment ℚ) (origin : Point ℚ) : ⟨origin, f⟩ ∈ f.placements origin := by
  rw [placements_eq]
  exact .head _

theorem leads_station (h : f.className ∈ stationNames) : f.Leads [f.texts] := fun origin _ hdrawn =>
  .station (hdrawn (f.mem_placements origin)) h (.stay _)

/-- A connector of the fragment is a route without stops. -/
theorem route_connector (hdrawn : f.placements origin ⊆ drawn) {s : Shape ℚ} {p q : Point ℚ}
    (hshape : s ∈ f.shapes) (h : s.Joins p q) :
    Route drawn (origin.absolute p) (origin.absolute q) [] :=
  .track (hdrawn (f.mem_placements origin)) hshape h (.stay _)

/-- A route through a child runs in the fragment from the start to the end of the child. -/
theorem route_child (hdrawn : f.placements origin ⊆ drawn) {p : Placed ℚ} (hchild : p ∈ f.children)
    (h : p.fragment.Leads stops) :
    Route drawn (origin.absolute p.box.start) (origin.absolute p.box.finish) stops := by
  have hunder : p.under origin ⊆ drawn := by
    rw [placements_eq] at hdrawn
    exact fun _ hplace => hdrawn (.tail _ (List.mem_flatMap.2 ⟨p, hchild, hplace⟩))
  have hroute := h _ _ hunder
  have hmove (q : Point ℚ) : (origin.translate p.offset.x p.offset.y).absolute q =
      origin.absolute (q.translate p.offset.x p.offset.y) :=
    congrArg₂ Point.mk (by simp only [Point.translate]; linarith)
      (by simp only [Point.translate]; linarith)
  rw [hmove, hmove] at hroute
  exact hroute

/-! ## Constructs -/

/-- Neighbours that are joined lead from the first to the last. -/
theorem route_neighbours (hdrawn : f.placements origin ⊆ drawn) {placed : List (Placed ℚ)}
    {shapes : List (Shape ℚ)} {ways : List (List (List (List Char)))}
    (hplaced : placed ⊆ f.children) (hshapes : shapes ⊆ f.shapes)
    (hjoins : List.Forall₂ (fun s pair => s.Joins pair.1.box.finish pair.2.box.start) shapes
      (placed.zip placed.tail))
    (hways : List.Forall₂ (fun p way => p.fragment.Leads way) placed ways) {first last : Placed ℚ}
    (hfirst : placed.head? = some first) (hlast : placed.getLast? = some last) :
    Route drawn (origin.absolute first.box.start) (origin.absolute last.box.finish) ways.flatten := by
  induction hways generalizing shapes first with
  | nil => exact nomatch hfirst
  | @cons p way rest more hway hmore ih =>
    obtain rfl := Option.some.inj hfirst
    have hown := route_child hdrawn (hplaced (.head _)) hway
    cases hmore with
    | nil =>
      obtain rfl := Option.some.inj hlast
      exact hown.trans (.stay _)
    | @cons next way' rest' more' hnext hrest =>
      cases hjoins with
      | @cons s _ shapes' _ hs htail =>
        have hconnector := route_connector hdrawn (hshapes (.head _)) hs
        have hbehind := ih (fun _ h => hplaced (.tail _ h)) (fun _ h => hshapes (.tail _ h)) htail rfl
          (by rwa [List.getLast?_cons_cons] at hlast)
        exact hown.trans (hconnector.trans hbehind)

/-- Through children in series one after the other. -/
theorem InSeries.leads (h : f.InSeries) {ways : List (List (List (List Char)))}
    (hways : List.Forall₂ (fun p way => p.fragment.Leads way) f.children ways) :
    f.Leads ways.flatten := by
  intro origin drawn hdrawn
  cases hhead : f.children.head? with
  | none =>
    have hempty := List.head?_eq_none_iff.1 hhead
    rw [hempty] at hways
    cases hways
    rw [h.empty hempty]
    exact .stay _
  | some first =>
    obtain ⟨last, hlast⟩ : ∃ last, f.children.getLast? = some last :=
      Option.isSome_iff_exists.1
        (List.getLast?_isSome.2 (List.ne_nil_of_mem (List.mem_of_mem_head? hhead)))
    rw [← h.first first hhead, ← h.last last hlast]
    exact route_neighbours hdrawn (fun _ h => h) (fun _ h => h) h.connectors hways hhead hlast

/-- Through one of several branches. -/
theorem InParallel.leads (h : f.InParallel) {p : Placed ℚ} (hchild : p ∈ f.children)
    (hway : p.fragment.Leads stops) : f.Leads stops := by
  intro origin drawn hdrawn
  obtain ⟨connectors, hshapes, hjoins⟩ := h
  obtain ⟨pair, hpair, hthere, hback⟩ := exists_of_forall₂ hjoins p hchild
  have hmem (s : Shape ℚ) (hs : s ∈ [pair.1, pair.2]) : s ∈ f.shapes :=
    hshapes ▸ List.mem_flatMap.2 ⟨pair, hpair, hs⟩
  have hto := route_connector hdrawn (hmem _ (.head _)) hthere
  have hfrom := route_connector hdrawn (hmem _ (.tail _ (.head _))) hback
  have hroute := hto.trans ((route_child hdrawn hchild hway).trans hfrom)
  rwa [List.nil_append, List.append_nil] at hroute

/-- Through the child of a fragment with its attachments. -/
theorem Surrounds.leads (h : f.Surrounds) (hways : ∀ p ∈ f.children, p.fragment.Leads stops) :
    f.Leads stops := by
  intro origin drawn hdrawn
  obtain ⟨child, hchildren, hstart, hfinish⟩ := h
  have hchild : child ∈ f.children := hchildren ▸ .head _
  rw [← hstart, ← hfinish]
  exact route_child hdrawn hchild (hways child hchild)

/-- From terminal to terminal through what is between them. -/
theorem Terminates.route {radius : ℚ} (h : f.Terminates radius) (hdrawn : f.placements origin ⊆ drawn)
    (hways : ∀ p ∈ f.children, p.fragment.Leads stops) :
    Route drawn (origin.absolute ⟨f.box.entry + radius, f.box.track⟩)
      (origin.absolute f.box.finish) stops := by
  obtain ⟨child, captions, leadIn, leadOut, hchildren, -, hshapes, hin, hout⟩ := h
  have hchild : child ∈ f.children := hchildren ▸ .head _
  have hmem (s : Shape ℚ) (hs : s ∈ [leadIn, leadOut]) : s ∈ f.shapes := by
    rw [hshapes]
    exact List.mem_append_right _ (List.mem_append_left _ hs)
  have hto := route_connector hdrawn (hmem _ (.head _)) hin
  have hfrom := route_connector hdrawn (hmem _ (.tail _ (.head _))) hout
  have hroute := hto.trans ((route_child hdrawn hchild (hways child hchild)).trans hfrom)
  rwa [List.nil_append, List.append_nil] at hroute

end Fragment

namespace Pattern.Repetition

/-- The drawing of the repetition leaves this number of laps open. -/
def Permits (r : Repetition) (laps : Nat) : Prop :=
  (laps = 0 → r.canSkip = true) ∧ (1 < laps → r.canRepeat = true)

/-- No number of laps within the bounds is excluded. -/
theorem permits_of_bounds {r : Repetition} {laps : Nat} (hmin : r.min ≤ laps)
    (hmax : ∀ max ∈ r.max, laps ≤ max) : r.Permits laps := by
  refine ⟨fun hzero => ?_, fun hmore => ?_⟩
  · exact beq_iff_eq.2 (Nat.le_zero.1 (hzero ▸ hmin))
  · unfold canRepeat
    split
    next => rfl
    next max heq => exact decide_eq_true (hmore.trans_le (hmax max heq))

/-- What is repeated exactly once is passed once. -/
theorem Permits.eq_one {r : Repetition} {laps : Nat} (h : r.Permits laps) (honce : r.isOnce = true) :
    laps = 1 := by
  obtain ⟨hzero, hmore⟩ := h
  obtain ⟨hmin, hmax⟩ := by simpa [isOnce] using honce
  simp only [canSkip, hmin, canRepeat, hmax] at hzero hmore
  by_contra hne
  obtain h | h : laps = 0 ∨ 1 < laps := by omega
  · exact absurd (hzero h) (by decide)
  · exact absurd (hmore h) (by decide)

end Pattern.Repetition

namespace Railroad

variable {c : Spacing ℚ} {m : Measure ℚ} {stops : List (List (List Char))}

theorem leads_labelBox {className : String} (hname : className ∈ labelNames) (text : List Char) :
    (labelBox c m className text).Leads [[text]] := by
  have hleads := Fragment.leads_station (f := labelBox c m className text) (.tail _ hname)
  rwa [texts_labelBox] at hleads

theorem leads_charset (negated : Bool) (members : List (Fragment ℚ)) :
    (charset c m negated members).Leads [charsetCaption negated :: fragmentTexts members] := by
  have hleads := Fragment.leads_station (f := charset c m negated members) (.head _)
  rwa [texts_charset] at hleads

theorem leads_sequence {parts : List (Fragment ℚ)} {ways : List (List (List (List Char)))}
    (hways : List.Forall₂ Fragment.Leads parts ways) : (sequence c parts).Leads ways.flatten := by
  match parts, hways with
  | [], .nil => exact (inSeries_sequence fun _ h => by cases h).leads .nil
  | [only], .cons hway .nil =>
    rw [List.flatten_cons, List.flatten_nil, List.append_nil]
    exact hway
  | first :: second :: rest, hways =>
    refine (inSeries_sequence fun _ h => by cases h).leads (List.forall₂_map_left_iff.1 ?_)
    simp only [sequence]
    rw [row_fragments]
    exact hways

theorem leads_alternatives {branches : List (Fragment ℚ)} {branch : Fragment ℚ}
    (hbranch : branch ∈ branches) (hway : branch.Leads stops) :
    (alternatives c branches).Leads stops := by
  have hchild : branch ∈ (alternatives c branches).children.map (·.fragment) := by
    simp only [alternatives, stack_fragments]
    exact hbranch
  obtain ⟨p, hp, rfl⟩ := List.mem_map.1 hchild
  exact (inParallel_alternatives branches).leads hp hway

theorem leads_frame {content : Fragment ℚ} (caption : List Char) (hway : content.Leads stops) :
    (frame c m caption content).Leads stops :=
  (surrounds_frame caption content).leads (List.forall_mem_singleton.2 hway)

/-! ## Laps -/

section Laps

variable {r : Repetition} {inner : Fragment ℚ} {origin : Point ℚ} {drawn : List (Placed ℚ)}

theorem route_lap (hdrawn : (repetition c m r inner).placements origin ⊆ drawn)
    (hway : inner.Leads stops) :
    Route drawn (origin.absolute ⟨lapLeft c inner, lapTrack c r inner⟩)
      (origin.absolute ⟨lapRight c inner, lapTrack c r inner⟩) stops := by
  have hchild : ⟨lapCorner c r inner, inner⟩ ∈ (repetition c m r inner).children := by
    rw [children_repetition]
    exact .head _
  have hlap := Fragment.route_child hdrawn hchild hway
  rwa [start_lap, finish_lap] at hlap

/-- One lap after the other, if there is a path back. -/
theorem route_laps (hdrawn : (repetition c m r inner).placements origin ⊆ drawn)
    {way : List (List (List Char))} {ways : List (List (List (List Char)))}
    (hways : ∀ w ∈ way :: ways, inner.Leads w) (hrepeat : ways ≠ [] → r.canRepeat = true) :
    Route drawn (origin.absolute ⟨lapLeft c inner, lapTrack c r inner⟩)
      (origin.absolute ⟨lapRight c inner, lapTrack c r inner⟩) (way :: ways).flatten := by
  obtain ⟨hway, hmore⟩ := List.forall_mem_cons.1 hways
  have hlap := route_lap hdrawn hway
  induction ways generalizing way with
  | nil => exact hlap.trans (.stay _)
  | cons next rest ih =>
    have hback := Fragment.route_connector hdrawn
      (loopPath_mem (hrepeat (List.cons_ne_nil _ _))) (joins_loopPath _ _ _ _ _)
    have hrest := ih hmore (fun _ => hrepeat (List.cons_ne_nil _ _)) (hmore next (.head _))
      (List.forall_mem_cons.1 hmore).2 (route_lap hdrawn (hmore next (.head _)))
    exact hlap.trans (hback.trans hrest)

theorem leads_repetition {ways : List (List (List (List Char)))} (hpermits : r.Permits ways.length)
    (hways : ∀ w ∈ ways, inner.Leads w) : (repetition c m r inner).Leads ways.flatten := by
  intro origin drawn hdrawn
  rw [start_repetition, finish_repetition]
  cases ways with
  | nil =>
    exact Fragment.route_connector hdrawn (skipPath_mem (hpermits.1 rfl)) (joins_skipPath _ _ _)
  | cons way rest =>
    have hlaps := route_laps hdrawn hways fun hne =>
      hpermits.2 (Nat.succ_lt_succ (List.length_pos_of_ne_nil hne))
    have hto := Fragment.route_connector hdrawn (leadIn_mem c m r inner) (Shape.joins_track _ _)
    have hfrom := Fragment.route_connector hdrawn (leadOut_mem c m r inner) (Shape.joins_track _ _)
    have hroute := hto.trans (hlaps.trans hfrom)
    rwa [List.nil_append, List.append_nil] at hroute

end Laps

end Railroad

/-! ## Ways through a tree -/

namespace Pattern

section Ways

variable (c : Spacing ℚ)

/-- The words on the box of a single character or an escape of a class. -/
def ClassAtom.shownWords : ClassAtom → List Char
  | .literal _ value => c.shown (literalLabel value)
  | .escape _ meaning => meaning.label

/-- The words on the boxes of a class member. -/
def Member.shownWords : Member → List (List Char)
  | .single atom => [atom.shownWords c]
  | .range _ first last => [['-'], first.shownWords c, last.shownWords c]

/-- The stop at literals that stand side by side, if there are any. -/
def runStops (run : Option (List Char)) : List (List (List Char)) :=
  (run.map fun value => [c.shown (literalLabel value)]).toList

mutual

/-- These are the stops of a way through a node. A repetition is passed as often as its drawing leaves
open, each time on a way of its own. -/
def Node.Passes : Node → List (List (List Char)) → Prop
  | .literal _ value, stops => stops = [[c.shown (literalLabel value)]]
  | .escape _ meaning, stops => stops = [[meaning.label]]
  | .anchor _ edge, stops => stops = [[edge.label]]
  | .wildcard _, stops => stops = [[wildcardLabel]]
  | .charset _ negated members, stops =>
    stops = [charsetCaption negated :: members.flatMap (Member.shownWords c)]
  | .group _ _ content, stops => content.Passes stops
  | .quantified _ atom repetition, stops =>
    ∃ ways : List (List (List (List Char))),
      repetition.Permits ways.length ∧ stops = ways.flatten ∧ ∀ way ∈ ways, atom.Passes way

/-- These are the stops of a way through an alternation: through one of its branches. -/
def Alternation.Passes : Alternation → List (List (List Char)) → Prop
  | ⟨_, branches⟩, stops => branchesPass branches stops

/-- These are the stops of a way through a sequence. -/
def Sequence.Passes : Sequence → List (List (List Char)) → Prop
  | ⟨_, items⟩, stops => itemsPass none items stops

/-- These are the stops of a way through one of the branches. -/
def branchesPass : List Sequence → List (List (List Char)) → Prop
  | [], _ => False
  | branch :: rest, stops => branch.Passes stops ∨ branchesPass rest stops

/-- These are the stops of a way through the items in order; `run` holds the literals that were met
last. -/
def itemsPass (run : Option (List Char)) : List Node → List (List (List Char)) → Prop
  | [], stops => stops = runStops c run
  | .literal _ value :: rest, stops => itemsPass (some (run.getD [] ++ value)) rest stops
  | item :: rest, stops =>
    ∃ own more, stops = runStops c run ++ (own ++ more) ∧ item.Passes own ∧ itemsPass none rest more

end

end Ways

theorem Member.texts_fragment_shown (c : Spacing ℚ) (m : Measure ℚ) (member : Member) :
    (member.fragment c m).texts = member.shownWords c := by
  have hatom (atom : ClassAtom) : (atom.fragment c m).texts = [atom.shownWords c] := by
    cases atom <;> exact Railroad.texts_labelBox c m _ _
  cases member with
  | single atom => exact hatom atom
  | range span first last =>
    rw [Member.fragment, Railroad.texts_range, hatom, hatom]
    rfl

section Leads

variable {c : Spacing ℚ} {m : Measure ℚ}

/-- A way goes through an item that is no literal behind the label of the literals in front of it. -/
theorem itemsPass_cons_other (run : Option (List Char)) {item : Node} (rest : List Node)
    (h : ∀ span value, item ≠ .literal span value) {stops : List (List (List Char))} :
    itemsPass c run (item :: rest) stops ↔ ∃ own more, stops = runStops c run ++ (own ++ more) ∧
      item.Passes c own ∧ itemsPass c none rest more := by
  cases item with
  | literal span value => exact absurd rfl (h span value)
  | _ => exact Iff.rfl

theorem leads_runFragments (run : Option (List Char)) :
    List.Forall₂ Fragment.Leads (runFragments c m run) ((runStops c run).map fun stop => [stop]) := by
  cases run with
  | none => exact .nil
  | some value => exact .cons (Railroad.leads_labelBox (.head _) _) .nil

theorem leads_itemFragments {items : List Node}
    (hitems : ∀ i ∈ items, ∀ n stops, i.Passes c stops → (i.fragment c m n).Leads stops) {n : Nat}
    {run : Option (List Char)} {stops : List (List (List Char))} (h : itemsPass c run items stops) :
    ∃ ways, stops = ways.flatten ∧
      List.Forall₂ Fragment.Leads (itemFragments c m n run items) ways := by
  have hrun (run : Option (List Char)) :
      ((runStops c run).map fun stop => [stop]).flatten = runStops c run := by
    cases run <;> rfl
  induction items generalizing n run stops with
  | nil => exact ⟨_, h.trans (hrun run).symm, leads_runFragments run⟩
  | cons item rest ih =>
    obtain ⟨hitem, hrest⟩ := List.forall_mem_cons.1 hitems
    obtain ⟨span, value, rfl⟩ | hother := item.literal_or_other
    · exact ih hrest h
    · obtain ⟨own, more, rfl, hown, hmore⟩ := (itemsPass_cons_other run rest hother).1 h
      obtain ⟨ways, rfl, hways⟩ := ih hrest (n := n + item.captures) hmore
      refine ⟨((runStops c run).map fun stop => [stop]) ++ own :: ways, ?_, ?_⟩
      · rw [List.flatten_append, hrun, List.flatten_cons]
      · rw [itemFragments_cons_other c m n run rest hother]
        exact List.rel_append (leads_runFragments run) (.cons (hitem n own hown) hways)

theorem leads_branchFragments {branches : List Sequence}
    (hbranches : ∀ b ∈ branches, ∀ n stops, b.Passes c stops → (b.fragment c m n).Leads stops)
    {n : Nat} {stops : List (List (List Char))} (h : branchesPass c branches stops) :
    ∃ f ∈ branchFragments c m n branches, f.Leads stops := by
  induction branches generalizing n with
  | nil => exact h.elim
  | cons branch rest ih =>
    obtain ⟨hbranch, hrest⟩ := List.forall_mem_cons.1 hbranches
    obtain h | h := h
    · exact ⟨_, .head _, hbranch n stops h⟩
    · obtain ⟨f, hf, hleads⟩ := ih hrest (n := n + branch.captures) h
      exact ⟨f, .tail _ hf, hleads⟩

/-- Every way through a construct is a route through its drawing if that is so of its parts. -/
theorem treeClosed_leads (c : Spacing ℚ) (m : Measure ℚ) :
    TreeClosed (fun node => ∀ n stops, node.Passes c stops → (node.fragment c m n).Leads stops)
      (fun a => ∀ n stops, a.Passes c stops → (a.fragment c m n).Leads stops)
      (fun s => ∀ n stops, s.Passes c stops → (s.fragment c m n).Leads stops) where
  literal span value n stops h := by
    rw [h]
    exact Railroad.leads_labelBox (.head _) _
  escape span meaning n stops h := by
    rw [h]
    exact Railroad.leads_labelBox (by decide) _
  anchor span edge n stops h := by
    rw [h]
    exact Railroad.leads_labelBox (by decide) _
  wildcard span n stops h := by
    rw [h]
    exact Railroad.leads_labelBox (by decide) _
  charset span negated members n stops h := by
    have hwords : members.flatMap (Member.shownWords c) =
        fragmentTexts (members.map (Member.fragment c m)) := by
      rw [fragmentTexts, List.flatMap_map]
      exact congrArg members.flatMap (funext fun member => (member.texts_fragment_shown c m).symm)
    rw [h, hwords]
    exact Railroad.leads_charset negated _
  quantified span atom repetition hatom n stops h := by
    obtain ⟨ways, hpermits, rfl, hways⟩ := h
    have hleads := fun way hway => hatom n way (hways way hway)
    rw [Node.fragment]
    split
    next honce =>
      obtain ⟨way, rfl⟩ := List.length_eq_one_iff.1 (hpermits.eq_one honce)
      rw [List.flatten_singleton]
      exact hleads way (.head _)
    next => exact Railroad.leads_repetition hpermits hleads
  group span kind content hcontent n stops h := by
    rw [Node.fragment]
    split
    · exact Railroad.leads_frame _ (hcontent _ stops h)
    · exact hcontent _ stops h
  ofBranches span branches hbranches n stops h := by
    obtain ⟨f, hf, hleads⟩ := leads_branchFragments hbranches (n := n) h
    -- a single branch is drawn as it is
    cases branches with
    | nil => exact absurd hf List.not_mem_nil
    | cons first rest =>
      cases rest with
      | nil =>
        rw [Alternation.fragment, ← List.mem_singleton.1 hf]
        exact hleads
      | cons second rest => exact Railroad.leads_alternatives hf hleads
  ofItems span items hitems n stops h := by
    obtain ⟨ways, rfl, hways⟩ := leads_itemFragments hitems h
    exact Railroad.leads_sequence hways

end Leads

/-! ## Existence of ways -/

theorem exists_itemsPass {c : Spacing ℚ} {items : List Node}
    (hitems : ∀ i ∈ items, ∃ stops, i.Passes c stops) (run : Option (List Char)) :
    ∃ stops, itemsPass c run items stops := by
  induction items generalizing run with
  | nil => exact ⟨_, rfl⟩
  | cons item rest ih =>
    obtain ⟨⟨own, hown⟩, hrest⟩ := List.forall_mem_cons.1 hitems
    obtain ⟨span, value, rfl⟩ | hother := item.literal_or_other
    · exact ih hrest _
    · obtain ⟨more, hmore⟩ := ih hrest none
      exact ⟨_, (itemsPass_cons_other run rest hother).2 ⟨own, more, rfl, hown, hmore⟩⟩

theorem treeClosed_exists_passes (c : Spacing ℚ) :
    TreeClosed (fun node => Branched node.views → ∃ stops, node.Passes c stops)
      (fun a => Branched a.views → ∃ stops, a.Passes c stops)
      (fun s => Branched s.views → ∃ stops, s.Passes c stops) where
  literal _ _ _ := ⟨_, rfl⟩
  escape _ _ _ := ⟨_, rfl⟩
  charset _ _ _ _ := ⟨_, rfl⟩
  anchor _ _ _ := ⟨_, rfl⟩
  wildcard _ _ := ⟨_, rfl⟩
  quantified span atom repetition hatom h := by
    -- one lap is always open
    obtain ⟨way, hway⟩ := hatom fun a ha => h a (.tail _ ha)
    exact ⟨_, [way], ⟨fun h => absurd h Nat.one_ne_zero, fun h => absurd h (lt_irrefl 1)⟩, rfl,
      List.forall_mem_singleton.2 hway⟩
  group span kind content hcontent h := by
    obtain ⟨stops, hstops⟩ := hcontent fun a ha => h a (.tail _ ha)
    exact ⟨stops, hstops⟩
  ofBranches span branches hbranches h := by
    cases branches with
    | nil => exact absurd rfl (h ⟨span, []⟩ (.head _))
    | cons first rest =>
      obtain ⟨stops, hstops⟩ := hbranches first (.head _) fun a ha =>
        h a (.tail _ (List.mem_append_left _ ha))
      exact ⟨stops, .inl hstops⟩
  ofItems span items hitems h :=
    exists_itemsPass (fun i hi => hitems i hi fun a ha => h a (by
      rw [Sequence.views_eq]
      exact .tail _ (List.mem_flatMap.2 ⟨i, hi, ha⟩))) none

/-- There is a way through every tree whose alternations have branches. -/
theorem exists_passes (c : Spacing ℚ) (a : Alternation) (h : Branched a.views) :
    ∃ stops, a.Passes c stops :=
  (treeClosed_exists_passes c).alternation a h

/-- **The railroad is never broken**: the connectors of every fragment meet the attachments of its box
and of its children, the terminals stand at both ends, and every way through the tree is a route
from the first terminal to the second. -/
theorem Root.unbroken (root : Root) (c : Spacing ℚ) (m : Measure ℚ) :
    let f := (root.drawing c m).fragment
    (∀ g ∈ f.descendants, g.Joined) ∧ f.Terminates c.terminalRadius ∧
      ∀ stops, root.alternation.Passes c stops →
        Route (f.placements .origin) ⟨f.box.entry + c.terminalRadius, f.box.track⟩ f.box.finish
          stops := by
  have hterminates := Railroad.terminates_drawing (c := c) (m := m) root.flags
    (root.alternation.fragment c m 0)
  refine ⟨(Railroad.drawnClosed_joined c m).drawing root fun content _ =>
    Railroad.joined_drawing root.flags content, hterminates, fun stops h => ?_⟩
  have hleads := (treeClosed_leads c m).alternation root.alternation 0 stops h
  have hroute := hterminates.route (List.Subset.refl (Fragment.placements .origin _))
    (List.forall_mem_singleton.2 hleads)
  have horigin (p : Point ℚ) : Point.absolute .origin p = p :=
    congrArg₂ Point.mk (by simp only [Point.origin, rational_zero, zero_add])
      (by simp only [Point.origin, rational_zero, zero_add])
  rwa [horigin, horigin] at hroute

/-- A way through a repeated choice: two laps, each on another branch. -/
theorem unbroken_twoLaps :
    let choice := Node.group ⟨"(?:a|b)".toList, 0⟩ .nonCapturing (.ofBranches 3
      [.ofItems 3 [.literal ⟨['a'], 3⟩ ['a']], .ofItems 5 [.literal ⟨['b'], 5⟩ ['b']]])
    let root : Root := ⟨⟨"(?:a|b)*".toList, 0⟩, [], .ofBranches 0
      [.ofItems 0 [.quantified ⟨"(?:a|b)*".toList, 0⟩ choice ⟨0, none, true⟩]]⟩
    let f := (root.drawing (.pixels : Spacing ℚ) .standardFont).fragment
    Route (f.placements .origin) ⟨f.box.entry + (Spacing.pixels : Spacing ℚ).terminalRadius, f.box.track⟩
      f.box.finish [["“b”".toList], ["“a”".toList]] := by
  refine (Root.unbroken _ .pixels .standardFont).2.2 _ (.inl ?_)
  refine ⟨[["“b”".toList], ["“a”".toList]], [], rfl, ?_, rfl⟩
  refine ⟨[[["“b”".toList]], [["“a”".toList]]], ⟨fun h => absurd h (by decide), fun _ => rfl⟩, rfl, ?_⟩
  exact List.forall_mem_cons.2 ⟨.inr (.inl rfl), List.forall_mem_singleton.2 (.inl rfl)⟩

end Pattern

end RegexDiagram
