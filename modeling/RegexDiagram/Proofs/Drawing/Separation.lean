import RegexDiagram.Proofs.Drawing.Laps
import RegexDiagram.Proofs.Drawing.Parts
import RegexDiagram.Text.Terminal

/-!
# Separation

A whole drawing is orderly in every fragment, so whatever any two of its shapes need lies apart and
inside the drawing: `Fragment.rooms` lists what all of them need, where it lies in the drawing, and
`Fragment.rooms_apart` goes from the fragments to the list by induction over the drawing.

`Root.separate` says what that is for texts, in pictures and in character cells: no text meets another
text or a fragment inside its own, and all lie on the canvas.
-/

namespace RegexDiagram

open Pattern

namespace Railroad

variable {c : Spacing ℚ} {m : Measure ℚ}

/-! ## Drawings -/

section Drawings

variable {flags : List Char} {content : Fragment ℚ}

/-- The flags as they are shown, with their extent. -/
def flagsLine (c : Spacing ℚ) (m : Measure ℚ) (flags : List Char) : Option (List Char × Extent ℚ) :=
  (flagsCaption flags).map fun caption => (c.shown caption, m.extent (c.shown caption))

/-- The height below the flags. -/
def flagsBottom (c : Spacing ℚ) (m : Measure ℚ) (flags : List Char) : ℚ :=
  match flagsLine c m flags with
  | some (_, extent) => c.margin + (extent.height + c.captionGap)
  | none => c.margin

/-- The width that the flags need. -/
def flagsWidth (c : Spacing ℚ) (m : Measure ℚ) (flags : List Char) : ℚ :=
  match flagsLine c m flags with
  | some (_, extent) => extent.width + 2 * c.margin
  | none => 0

/-- Where the content of a drawing lies, from the left. -/
def contentLeft (c : Spacing ℚ) : ℚ := c.margin + 2 * c.terminalRadius + c.terminalStub

/-- Where the track of a drawing ends. -/
def trackEnd (c : Spacing ℚ) (content : Fragment ℚ) : ℚ :=
  contentLeft c + max content.box.exit (content.box.width - c.strokeInset) + c.terminalStub

theorem drawing_width :
    (drawing c m flags content).width =
      max (trackEnd c content + 2 * c.terminalRadius + c.strokeInset + c.margin)
        (flagsWidth c m flags) := by
  rw [drawing, flagsWidth, flagsLine]
  cases flagsCaption flags with
  | none => simp only [Option.map_none, rational_zero]; rfl
  | some caption => rfl

theorem drawing_height (c : Spacing ℚ) (m : Measure ℚ) (flags : List Char) (content : Fragment ℚ) :
    (drawing c m flags content).height = flagsBottom c m flags + content.box.height + c.margin := by
  rw [drawing, flagsBottom, flagsLine]
  cases flagsCaption flags <;> rfl

theorem box_drawing :
    (drawing c m flags content).fragment.box =
      .sized (drawing c m flags content).width (drawing c m flags content).height
        (c.margin + c.terminalRadius) (trackEnd c content)
        (flagsBottom c m flags + content.box.track) := by
  rw [drawing, flagsBottom, flagsLine]
  cases flagsCaption flags <;> rfl

theorem children_drawing :
    (drawing c m flags content).fragment.children =
      [⟨⟨contentLeft c, flagsBottom c m flags⟩, content⟩] := by
  rw [drawing, flagsBottom, flagsLine]
  cases flagsCaption flags <;> rfl

theorem room_drawing :
    (drawing c m flags content).fragment.room c.strokeInset =
      ((flagsLine c m flags).toList.map fun line =>
        ⟨c.margin, c.margin, line.2.width, line.2.height⟩) ++
      [⟨c.margin + c.terminalRadius, flagsBottom c m flags + content.box.track, c.strokeInset,
          c.strokeInset⟩,
       ⟨trackEnd c content + c.terminalRadius, flagsBottom c m flags + content.box.track,
          c.strokeInset, c.strokeInset⟩] := by
  rw [drawing, flagsBottom, flagsLine]
  cases flagsCaption flags <;> rfl

/-- The flags lie above everything else. -/
theorem flags_above (content : Fragment ℚ) (hc : c.Ample) {text : List Char} {extent : Extent ℚ}
    (h : flagsLine c m flags = some (text, extent)) :
    c.margin + extent.height ≤ flagsBottom c m flags ∧
      c.margin + extent.width + c.margin ≤ (drawing c m flags content).width := by
  have hgap := hc.caption
  rw [drawing_width, flagsBottom, flagsWidth, h]
  have hle := le_max_right (trackEnd c content + 2 * c.terminalRadius + c.strokeInset + c.margin)
    (extent.width + 2 * c.margin)
  exact ⟨by simp only; linarith, by simp only; linarith⟩

theorem margin_le_flagsBottom (flags : List Char) (hc : c.Ample) (hm : m.NonNegative) :
    c.margin ≤ flagsBottom c m flags := by
  unfold flagsBottom flagsLine
  have hgap := hc.caption
  cases flagsCaption flags with
  | none => exact le_rfl
  | some caption =>
    have hheight := (hm.extent (c.shown caption)).2
    simp only [Option.map_some]
    linarith

/-- The terminals stand on both sides of the content, inside the margins. -/
theorem terminals_beside (m : Measure ℚ) (flags : List Char) (content : Fragment ℚ) (hc : c.Ample) :
    c.margin + c.terminalRadius + c.strokeInset ≤ contentLeft c ∧
      contentLeft c + content.box.exit ≤ trackEnd c content ∧
      contentLeft c + content.box.width ≤ trackEnd c content ∧
      trackEnd c content + 2 * c.terminalRadius + c.strokeInset + c.margin ≤
        (drawing c m flags content).width := by
  have hwidth : trackEnd c content + 2 * c.terminalRadius + c.strokeInset + c.margin ≤
      (drawing c m flags content).width := drawing_width ▸ le_max_left _ _
  have hleft : contentLeft c = c.margin + 2 * c.terminalRadius + c.terminalStub := rfl
  have hend : trackEnd c content =
    contentLeft c + max content.box.exit (content.box.width - c.strokeInset) + c.terminalStub := rfl
  have hexit := le_max_left content.box.exit (content.box.width - c.strokeInset)
  have hright := le_max_right content.box.exit (content.box.width - c.strokeInset)
  obtain ⟨hstroke, hradius, hstub⟩ := And.intro hc.stroke (And.intro hc.terminal hc.stub)
  refine ⟨?_, ?_, ?_, hwidth⟩ <;> linarith

/-- The content keeps the margins on all sides. -/
theorem content_margins (flags : List Char) (content : Fragment ℚ) (hc : c.Ample) (hm : m.NonNegative) :
    c.margin ≤ contentLeft c ∧ c.margin ≤ flagsBottom c m flags ∧
      contentLeft c + content.box.width + c.margin ≤ (drawing c m flags content).width ∧
      flagsBottom c m flags + content.box.height + c.margin ≤ (drawing c m flags content).height := by
  obtain ⟨hstart, -, hend, hwidth⟩ := terminals_beside m flags content hc
  obtain ⟨hstroke, hradius⟩ := And.intro hc.stroke hc.terminal
  refine ⟨?_, margin_le_flagsBottom flags hc hm, ?_, (drawing_height c m flags content).ge⟩ <;> linarith

theorem attached_drawing (hc : c.Ample) (hm : m.NonNegative) (h : content.box.Attached) :
    (drawing c m flags content).fragment.box.Attached := by
  obtain ⟨hstart, hexit, hend, hwidth⟩ := terminals_beside m flags content hc
  obtain ⟨-, hflags, -, hheight⟩ := content_margins flags content hc hm
  obtain ⟨hstroke, hradius, hmargin⟩ := And.intro hc.stroke (And.intro hc.terminal hc.margin)
  obtain ⟨htop, hbottom⟩ := And.intro h.top h.bottom
  have hcontent := h.width_nonneg
  rw [box_drawing]
  constructor <;> simp only [Box.sized, rational_zero] <;> linarith

theorem area_drawing :
    (drawing c m flags content).fragment.box.area =
      ⟨0, 0, (drawing c m flags content).width, (drawing c m flags content).height⟩ := by
  rw [box_drawing, Box.sized, Box.area, rational_zero]

theorem area_content (h : content.box.Attached) :
    (Placed.box ⟨⟨contentLeft c, flagsBottom c m flags⟩, content⟩).area =
      ⟨contentLeft c, flagsBottom c m flags, content.box.width, content.box.height⟩ :=
  Placed.area_box h

theorem room_drawing_clear (hc : c.Ample) (hm : m.NonNegative) (h : content.box.Attached) :
    ∀ a ∈ (drawing c m flags content).fragment.room c.strokeInset,
      a.Within (drawing c m flags content).fragment.box.area ∧
        a.Apart (Placed.box ⟨⟨contentLeft c, flagsBottom c m flags⟩, content⟩).area := by
  obtain ⟨hstart, hexit, hend, hwidth⟩ := terminals_beside m flags content hc
  obtain ⟨-, hflags, -, hheight⟩ := content_margins flags content hc hm
  obtain ⟨hstroke, hradius, hmargin⟩ := And.intro hc.stroke (And.intro hc.terminal hc.margin)
  obtain ⟨htop, hbottom⟩ := And.intro h.top h.bottom
  have hcontent := h.width_nonneg
  rw [room_drawing, area_drawing, area_content h]
  refine List.forall_mem_append.2 ⟨?_, List.forall_mem_cons.2 ⟨⟨?_, ?_⟩,
    List.forall_mem_singleton.2 ⟨?_, ?_⟩⟩⟩
  · cases hline : flagsLine c m flags with
    | none => exact fun a ha => absurd ha List.not_mem_nil
    | some line =>
      obtain ⟨habove, hright⟩ := flags_above content hc hline
      refine List.forall_mem_singleton.2 ⟨?_, Rect.apart_of_above habove⟩
      rw [Rect.within_mk]
      refine ⟨?_, ?_, ?_, ?_⟩ <;> linarith
  · rw [Rect.within_mk]
    refine ⟨?_, ?_, ?_, ?_⟩ <;> linarith
  · exact Rect.apart_of_beside hstart
  · rw [Rect.within_mk]
    refine ⟨?_, ?_, ?_, ?_⟩ <;> linarith
  · refine Rect.Apart.symm (Rect.apart_of_beside ?_)
    simp only [Rect.right]
    linarith

theorem apart_room_drawing (hc : c.Ample) (h : content.box.Attached) :
    ((drawing c m flags content).fragment.room c.strokeInset).Pairwise Rect.Apart := by
  obtain ⟨hstart, hexit, hend, hwidth⟩ := terminals_beside m flags content hc
  have hradius := hc.terminal
  have hcontent := h.width_nonneg
  have htop := h.top
  rw [room_drawing]
  refine List.pairwise_append.2 ⟨?_, ?_, ?_⟩
  · cases flagsLine c m flags with
    | none => exact .nil
    | some line => exact List.pairwise_singleton _ _
  · refine .cons (List.forall_mem_singleton.2 (Rect.apart_of_beside ?_)) (List.pairwise_singleton _ _)
    simp only [Rect.right]
    linarith
  · cases hline : flagsLine c m flags with
    | none => exact fun a ha => absurd ha List.not_mem_nil
    | some line =>
      obtain ⟨habove, -⟩ := flags_above content hc hline
      refine List.forall_mem_singleton.2 (List.forall_mem_cons.2 ⟨?_, List.forall_mem_singleton.2 ?_⟩)
      all_goals
        refine Rect.apart_of_above ?_
        simp only [Rect.bottom]
        linarith

theorem orderly_drawing (hc : c.Ample) (hm : m.NonNegative) (h : content.box.Attached) :
    (drawing c m flags content).fragment.Orderly c.strokeInset := by
  refine ⟨attached_drawing hc hm h, ?_, ?_, ?_, apart_room_drawing hc h⟩
  · rw [children_drawing]
    refine List.forall_mem_singleton.2 ?_
    obtain ⟨hleft, htop, hright, hbottom⟩ := content_margins flags content hc hm
    have hmargin := hc.positive
    rw [area_drawing, area_content h, Rect.within_mk]
    refine ⟨?_, ?_, ?_, ?_⟩ <;> linarith
  · rw [children_drawing]
    exact List.pairwise_singleton _ _
  · rw [children_drawing]
    simp only [List.forall_mem_singleton]
    exact room_drawing_clear hc hm h

/-- A drawing is never empty. -/
theorem drawing_positive (hc : c.Ample) (hm : m.NonNegative) (h : content.box.Attached) :
    0 < (drawing c m flags content).width ∧ 0 < (drawing c m flags content).height := by
  obtain ⟨hleft, htop, hright, hbottom⟩ := content_margins flags content hc hm
  have hpositive := hc.positive
  obtain ⟨hwidth, hheight⟩ := And.intro h.width_nonneg h.height_nonneg
  exact ⟨by linarith, by linarith⟩

end Drawings

/-! ## Every construct -/

theorem drawnClosed_orderly (hc : c.Ample) (hm : m.NonNegative) :
    DrawnClosed c m (Fragment.Orderly c.strokeInset) where
  label className _ text := orderly_labelBox hc hm className text
  sequence parts hparts := by
    have hattached := fun f hf => (hparts f hf).attached
    match parts, hparts, hattached with
    | [], _, _ => exact orderly_sequence_nil
    | [only], hparts, _ => exact hparts only (.head _)
    | first :: second :: rest, _, hattached => exact orderly_sequence hc hattached
  alternatives _ h := orderly_alternatives hc fun f hf => (h f hf).attached
  range _ _ hfirst hlast := orderly_range hc hm hfirst.attached hlast.attached
  charset _ _ h := orderly_charset hc hm fun f hf => (h f hf).attached
  frame _ _ _ _ _ h := orderly_frame hc hm h.attached
  repetition _ _ h := orderly_repetition hc h.attached

end Railroad

/-! ## All of a drawing -/

namespace Fragment

/-- What all shapes of a fragment and of the fragments in it need, if its corner lies at `origin`. -/
def rooms (stroke : ℚ) (origin : Point ℚ) (f : Fragment ℚ) : List (Rect ℚ) :=
  (f.placements origin).flatMap fun p => (p.fragment.room stroke).map (·.moved p.offset)

theorem rooms_eq (stroke : ℚ) (origin : Point ℚ) (f : Fragment ℚ) :
    f.rooms stroke origin = (f.room stroke).map (·.moved origin) ++
      f.children.flatMap fun p =>
        p.fragment.rooms stroke (origin.translate p.offset.x p.offset.y) := by
  rw [rooms, placements_eq, List.flatMap_cons, List.flatMap_assoc]
  rfl

/-- The area of a child, by its parent and by itself. -/
theorem area_child (origin : Point ℚ) (p : Placed ℚ) :
    p.fragment.box.area.moved (origin.translate p.offset.x p.offset.y) = p.box.area.moved origin := by
  simp only [Rect.moved, Point.translate, Box.area, Placed.box, Box.translate, Rect.mk.injEq, and_true]
  constructor <;> linarith

/-- If every fragment is orderly, everything lies apart and inside the outermost fragment. -/
theorem rooms_apart {stroke : ℚ} {f : Fragment ℚ} (h : ∀ g ∈ f.descendants, g.Orderly stroke)
    (origin : Point ℚ) :
    (f.rooms stroke origin).Pairwise Rect.Apart ∧
      ∀ r ∈ f.rooms stroke origin, r.Within (f.box.area.moved origin) := by
  induction f using Fragment.induct generalizing origin with
  | h f ih =>
    obtain ⟨hf, hchildren⟩ := forall_descendants.1 h
    -- what a child needs lies inside the child
    have hchild (p : Placed ℚ) (hp : p ∈ f.children) :=
      ih p hp (hchildren _ (List.mem_map_of_mem hp)) (origin.translate p.offset.x p.offset.y)
    have hinside (p : Placed ℚ) (hp : p ∈ f.children) (r : Rect ℚ)
        (hr : r ∈ p.fragment.rooms stroke (origin.translate p.offset.x p.offset.y)) :
        r.Within (p.box.area.moved origin) :=
      area_child origin p ▸ (hchild p hp).2 r hr
    rw [rooms_eq]
    constructor
    · refine List.pairwise_append.2 ⟨?_, List.pairwise_flatMap.2 ⟨fun p hp => (hchild p hp).1, ?_⟩, ?_⟩
      · exact List.pairwise_map.2 (hf.apart.imp fun hapart => Rect.apart_moved hapart origin)
      · exact hf.siblings.imp_of_mem fun hp hq hapart r hr s hs =>
          (Rect.apart_moved hapart origin).mono (hinside _ hp r hr) (hinside _ hq s hs)
      · intro r hr s hs
        obtain ⟨own, hown, rfl⟩ := List.mem_map.1 hr
        obtain ⟨p, hp, hs⟩ := List.mem_flatMap.1 hs
        exact (Rect.apart_moved ((hf.own own hown).2 p hp) origin).mono ⟨le_rfl, le_rfl, le_rfl, le_rfl⟩
          (hinside p hp s hs)
    · refine List.forall_mem_append.2 ⟨?_, fun r hr => ?_⟩
      · exact List.forall_mem_map.2 fun own hown => Rect.within_moved (hf.own own hown).1 origin
      · obtain ⟨p, hp, hr⟩ := List.mem_flatMap.1 hr
        exact (hinside p hp r hr).trans (Rect.within_moved (hf.inside p hp) origin)

end Fragment

/-! ## Texts -/

/-- The area of a text. -/
def Shape.textArea? : Shape ℚ → Option (Rect ℚ)
  | .text origin extent _ _ => some ⟨origin.x, origin.y, extent.width, extent.height⟩
  | _ => none

namespace Fragment

/-- The areas of the texts of a fragment, in its own coordinates. -/
def textAreas (f : Fragment ℚ) : List (Rect ℚ) := f.shapes.filterMap Shape.textArea?

/-- The areas of all texts in a fragment whose corner lies at `origin`. -/
def allTextAreas (origin : Point ℚ) (f : Fragment ℚ) : List (Rect ℚ) :=
  (f.placements origin).flatMap fun p => p.fragment.textAreas.map (·.moved p.offset)

theorem textAreas_sublist (stroke : ℚ) (f : Fragment ℚ) : f.textAreas.Sublist (f.room stroke) := by
  rw [textAreas, room]
  induction f.shapes with
  | nil => exact .slnil
  | cons shape rest ih =>
    rw [List.flatMap_cons]
    cases shape with
    | text origin extent text className => exact ih.cons_cons _
    | _ => exact List.sublist_append_of_sublist_right ih

theorem allTextAreas_sublist (stroke : ℚ) (origin : Point ℚ) (f : Fragment ℚ) :
    (f.allTextAreas origin).Sublist (f.rooms stroke origin) := by
  rw [allTextAreas, rooms]
  induction f.placements origin with
  | nil => exact .slnil
  | cons p rest ih => exact ((textAreas_sublist stroke p.fragment).map _).append ih

/-- A fragment keeps its texts and its children apart, all inside its box. -/
structure Tidy (f : Fragment ℚ) : Prop where
  attached : f.box.Attached
  inside : ∀ p ∈ f.children, p.box.area.Within f.box.area
  siblings : f.children.Pairwise fun p q => p.box.area.Apart q.box.area
  texts : ∀ r ∈ f.textAreas, r.Within f.box.area ∧ ∀ p ∈ f.children, r.Apart p.box.area

theorem Orderly.tidy {stroke : ℚ} {f : Fragment ℚ} (h : f.Orderly stroke) : f.Tidy :=
  ⟨h.attached, h.inside, h.siblings, fun r hr => h.own r ((textAreas_sublist stroke f).subset hr)⟩

end Fragment

/-! ## Built-in measures -/

theorem Measure.nonNegative_font [TerminalWidths] {advance lineHeight : ℚ} (hadvance : 0 ≤ advance)
    (hheight : 0 ≤ lineHeight) (ascent : ℚ) : (font advance lineHeight ascent).NonNegative := by
  intro text extent h
  rw [font] at h
  cases hcontrol : refuseControl text with
  | error failure =>
    rw [hcontrol] at h
    exact nomatch h
  | ok _ =>
    rw [hcontrol] at h
    obtain rfl := Except.ok.inj h
    exact ⟨mul_nonneg (Nat.cast_nonneg _) hadvance, hheight⟩

theorem Measure.nonNegative_standardFont [TerminalWidths] : (standardFont : Measure ℚ).NonNegative :=
  nonNegative_font (by rw [rational_numeral]; norm_num) (by rw [rational_numeral]; norm_num) _

/-- The cells of a terminal are a font as wide as it is high. -/
theorem Measure.cells_eq_font [TerminalWidths] : (cells : Measure ℚ) = font 1 1 0 := by
  funext text
  have hwidth : (Scalar.ofNat (columns text) : ℚ) = Scalar.ofNat (columns text) * 1 := (mul_one _).symm
  simp only [cells, font, rational_one, rational_zero]
  exact congrArg (fun width => refuseControl text >>= fun _ => pure (Extent.mk width 1 0)) hwidth

theorem Measure.nonNegative_cells [TerminalWidths] : (cells : Measure ℚ).NonNegative :=
  cells_eq_font ▸ nonNegative_font zero_le_one zero_le_one 0

namespace Pattern

/-- Every fragment of a drawing is orderly. -/
theorem Root.orderly (root : Root) {c : Spacing ℚ} {m : Measure ℚ} (hc : c.Ample)
    (hm : m.NonNegative) :
    ∀ f ∈ (root.drawing c m).fragment.descendants, f.Orderly c.strokeInset :=
  (Railroad.drawnClosed_orderly hc hm).drawing root fun _ hcontent =>
    Railroad.orderly_drawing hc hm hcontent.attached

/-- The canvas is the box of the outermost fragment. -/
theorem Root.area_drawing (root : Root) (c : Spacing ℚ) (m : Measure ℚ) :
    (root.drawing c m).fragment.box.area.moved .origin =
      ⟨0, 0, (root.drawing c m).width, (root.drawing c m).height⟩ := by
  rw [drawing, Railroad.area_drawing]
  simp only [Rect.moved, Point.origin, rational_zero, add_zero]

theorem Root.drawing_positive (root : Root) {c : Spacing ℚ} {m : Measure ℚ} (hc : c.Ample)
    (hm : m.NonNegative) : 0 < (root.drawing c m).width ∧ 0 < (root.drawing c m).height :=
  Railroad.drawing_positive hc hm
    ((Railroad.drawnClosed_orderly hc hm).alternation root.alternation 0).attached

/-- **Nothing in a drawing runs into anything else.** In pictures and in character cells, and with any
measure, every fragment keeps its texts and its children apart and inside its box; no two texts of the
drawing overlap, and all of them lie on the canvas, which is never empty. -/
theorem Root.separate (root : Root) {c : Spacing ℚ} {m : Measure ℚ}
    (hc : c = .pixels ∨ c = .cells ∨ c = .asciiCells) (hm : m.NonNegative) :
    let d := root.drawing c m
    (∀ f ∈ d.fragment.descendants, f.Tidy) ∧
      (d.fragment.allTextAreas .origin).Pairwise Rect.Apart ∧
      (∀ r ∈ d.fragment.allTextAreas .origin, r.Within ⟨0, 0, d.width, d.height⟩) ∧
      0 < d.width ∧ 0 < d.height := by
  have hample : c.Ample := by
    obtain rfl | rfl | rfl := hc
    · exact Spacing.ample_pixels
    · exact Spacing.ample_cells
    · exact Spacing.ample_asciiCells
  have horderly := root.orderly hample hm
  have hsublist := (root.drawing c m).fragment.allTextAreas_sublist c.strokeInset .origin
  obtain ⟨hapart, hwithin⟩ := Fragment.rooms_apart horderly .origin
  rw [root.area_drawing c m] at hwithin
  exact ⟨fun f hf => (horderly f hf).tidy, hapart.sublist hsublist,
    fun r hr => hwithin r (hsublist.subset hr), root.drawing_positive hample hm⟩

/-- The texts of a repeated class, in pixels. -/
theorem separate_pixels :
    let root : Root := ⟨⟨"[a-z]+".toList, 0⟩, [], .ofBranches 0 [.ofItems 0
      [.quantified ⟨"[a-z]+".toList, 0⟩ (.charset ⟨"[a-z]".toList, 0⟩ false
        [.range ⟨"a-z".toList, 1⟩ (.literal ⟨['a'], 1⟩ ['a']) (.literal ⟨['z'], 3⟩ ['z'])])
        ⟨1, none, true⟩]]⟩
    let d := root.drawing (.pixels : Spacing ℚ) .standardFont
    (Measure.standardFont : Measure ℚ).NonNegative ∧
      (d.fragment.allTextAreas .origin).Pairwise Rect.Apart ∧ 0 < d.width := by
  intro root d
  obtain ⟨-, hapart, -, hwidth, -⟩ := root.separate (.inl rfl) Measure.nonNegative_standardFont
  exact ⟨Measure.nonNegative_standardFont, hapart, hwidth⟩

end Pattern

end RegexDiagram
