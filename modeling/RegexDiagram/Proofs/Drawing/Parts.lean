import RegexDiagram.Proofs.Drawing.Joints
import RegexDiagram.Proofs.Drawing.Room

/-!
# The order of labels, sequences, alternations, classes and groups

Each of these constructs is orderly if its parts have their attachments between their edges. The
quantities that a construct is laid out from have names of their own here, as far as a box, an offset
and a text share them.
-/

namespace RegexDiagram.Railroad

open Pattern

variable {c : Spacing ℚ} {m : Measure ℚ}

/-! ## Labels -/

theorem orderly_labelBox (hc : c.Ample) (hm : m.NonNegative) (className : String)
    (text : List Char) : (labelBox c m className text).Orderly c.strokeInset := by
  obtain ⟨hw, hh⟩ := hm.extent text
  obtain ⟨hstroke, hx, hy⟩ := And.intro hc.stroke (And.intro hc.labelX hc.labelY)
  have hmiddle := c.snapped_le (((m.extent text).height + 2 * c.labelPaddingY) / 2)
  have hmiddle' : 0 ≤ c.snapped (((m.extent text).height + 2 * c.labelPaddingY) / 2) :=
    c.snapped_nonneg (by linarith)
  have hroom : (labelBox c m className text).room c.strokeInset =
      [⟨0, 0 + c.strokeInset, c.strokeInset, c.strokeInset⟩,
       ⟨0 + ((m.extent text).width + 2 * c.labelPaddingX) - c.strokeInset, 0 + c.strokeInset,
        c.strokeInset, c.strokeInset⟩,
       ⟨c.labelPaddingX, c.labelPaddingY, (m.extent text).width, (m.extent text).height⟩] := rfl
  have harea : (labelBox c m className text).box.area =
      ⟨0, 0, (m.extent text).width + 2 * c.labelPaddingX,
        (m.extent text).height + 2 * c.labelPaddingY⟩ := rfl
  constructor
  · constructor <;> simp only [labelBox, Box.sized, rational_zero, rational_numeral] <;> linarith
  · exact fun p hp => absurd hp List.not_mem_nil
  · exact .nil
  · refine fun r hr => ⟨?_, fun p hp => absurd hp List.not_mem_nil⟩
    rw [hroom] at hr
    rw [harea]
    simp only [List.mem_cons, List.not_mem_nil, or_false] at hr
    rcases hr with rfl | rfl | rfl <;> rw [Rect.within_mk] <;> refine ⟨?_, ?_, ?_, ?_⟩ <;> linarith
  · rw [hroom]
    refine .cons (List.forall_mem_cons.2 ⟨Rect.apart_of_beside ?_,
      List.forall_mem_singleton.2 (Rect.apart_of_beside ?_)⟩)
      (.cons (List.forall_mem_singleton.2 (Rect.Apart.symm (Rect.apart_of_beside ?_)))
        (List.pairwise_singleton _ _))
    all_goals
      simp only [Rect.right]
      linarith

/-! ## Sequences -/

theorem room_rowConnectors (track : ℚ) (stroke : ℚ) (placed : List (Placed ℚ)) :
    (rowConnectors track placed).flatMap (Shape.room stroke) = [] :=
  List.flatMap_eq_nil_iff.2 fun s hs => by
    obtain ⟨p, q, rfl⟩ := track_of_mem_rowConnectors hs
    rfl

/-- The height at which the tracks of a row run. -/
def rowTrack (fragments : List (Fragment ℚ)) : ℚ :=
  (fragments.map (·.box.trackOffset)).foldl Scalar.max 0

theorem le_rowTrack {f : Fragment ℚ} {fragments : List (Fragment ℚ)} (hf : f ∈ fragments)
    (h : f.box.Attached) : f.box.track ≤ rowTrack fragments := by
  have hle : f.box.track - f.box.y ≤ rowTrack fragments :=
    le_foldl_max_of_mem (List.mem_map_of_mem hf) _
  rwa [h.y, sub_zero] at hle

/-- The height of a row. -/
def rowHeight (placed : List (Placed ℚ)) : ℚ :=
  placed.foldl (fun h p => Scalar.max h (p.offset.y + p.fragment.box.height)) 0

theorem le_rowHeight {p : Placed ℚ} {placed : List (Placed ℚ)} (h : p ∈ placed) :
    p.offset.y + p.fragment.box.height ≤ rowHeight placed := by
  rw [rowHeight, ← List.foldl_map (f := fun p : Placed ℚ => p.offset.y + p.fragment.box.height)
    (g := Scalar.max)]
  exact le_foldl_max_of_mem (List.mem_map_of_mem h) _

/-- The items of a sequence where they are placed, and the abscissa behind the last gap. -/
def series (c : Spacing ℚ) (fragments : List (Fragment ℚ)) : List (Placed ℚ) × ℚ :=
  row c (rowTrack fragments) 0 fragments

section Series

variable {first second : Fragment ℚ} {rest : List (Fragment ℚ)}

theorem box_sequence :
    (sequence c (first :: second :: rest)).box =
      .sized ((series c (first :: second :: rest)).2 - c.sequenceGap)
        (rowHeight (series c (first :: second :: rest)).1) (first.box.entry + 0)
        (((series c (first :: second :: rest)).1.getLast?.map (·.box.exit)).getD 0)
        (rowTrack (first :: second :: rest)) := rfl

/-- The last item of a sequence lies behind the first. -/
theorem series_last (hc : c.Ample) (h : ∀ f ∈ first :: second :: rest, f.box.Attached) :
    ∃ last ∈ (series c (first :: second :: rest)).1,
      (series c (first :: second :: rest)).1.getLast? = some last ∧
        first.box.width ≤ last.offset.x := by
  have hcons : (series c (first :: second :: rest)).1 =
      ⟨⟨0, rowTrack (first :: second :: rest) - first.box.track⟩, first⟩ ::
        (row c (rowTrack (first :: second :: rest)) (0 + (first.box.width + c.sequenceGap))
          (second :: rest)).1 := rfl
  obtain ⟨last, hlast⟩ : ∃ last, (row c (rowTrack (first :: second :: rest))
      (0 + (first.box.width + c.sequenceGap)) (second :: rest)).1.getLast? = some last :=
    ⟨_, List.getLast?_eq_some_getLast (List.cons_ne_nil _ _)⟩
  have hordered := (spaced_row hc (rowTrack (first :: second :: rest)) 0 h).ordered
  rw [← series, hcons] at hordered
  have hbehind := (List.pairwise_cons.1 hordered).1 last (List.mem_of_getLast? hlast)
  simp only [zero_add] at hbehind
  refine ⟨last, hcons ▸ .tail _ (List.mem_of_getLast? hlast), ?_, by linarith [hc.sequence]⟩
  rw [hcons, List.getLast?_cons, hlast]
  rfl

theorem attached_sequence (hc : c.Ample) (h : ∀ f ∈ first :: second :: rest, f.box.Attached) :
    (sequence c (first :: second :: rest)).box.Attached := by
  obtain ⟨last, hmem, hlast, hbehind⟩ := series_last hc h
  have hfirst := h first (.head _)
  have hspaced := spaced_row hc (rowTrack (first :: second :: rest)) 0 h
  have hlastAttached := h _ (row_placed _ _ _ last hmem).1
  have hlastBetween := hspaced.between last hmem
  have hfirstMem : ⟨⟨0, rowTrack (first :: second :: rest) - first.box.track⟩, first⟩ ∈
      (series c (first :: second :: rest)).1 := .head _
  have hheight := le_rowHeight hfirstMem
  have htrack := le_rowTrack (List.mem_cons_self (l := second :: rest)) hfirst
  obtain ⟨hentry, hpassage, hwidth⟩ :=
    And.intro hfirst.entry (And.intro hfirst.passage hfirst.exit)
  obtain ⟨hentry', hpassage', hwidth'⟩ :=
    And.intro hlastAttached.entry (And.intro hlastAttached.passage hlastAttached.exit)
  have hbottom := hfirst.bottom
  have htop := hfirst.top
  rw [box_sequence, hlast]
  rw [← series] at hlastBetween
  simp only at hheight
  constructor <;>
    simp only [Box.sized, Option.map_some, Option.getD_some, Placed.box, Box.translate, rational_zero] <;>
    linarith

theorem orderly_sequence (hc : c.Ample) (h : ∀ f ∈ first :: second :: rest, f.box.Attached) :
    (sequence c (first :: second :: rest)).Orderly c.strokeInset := by
  have hspaced := spaced_row hc (rowTrack (first :: second :: rest)) 0 h
  have hplaced := row_placed (c := c) (rowTrack (first :: second :: rest)) 0 (first :: second :: rest)
  have hattached := fun p hp => h _ (hplaced p hp).1
  have hroom : (sequence c (first :: second :: rest)).room c.strokeInset = [] :=
    room_rowConnectors _ _ _
  constructor
  · exact attached_sequence hc h
  · intro p hp
    have hbetween := hspaced.between p hp
    have hoffset := (hplaced p hp).2
    have htrack := le_rowTrack (hplaced p hp).1 (hattached p hp)
    have hheight : p.offset.y + p.fragment.box.height ≤
        rowHeight (series c (first :: second :: rest)).1 := le_rowHeight hp
    rw [Placed.area_box (hattached p hp), box_sequence, Box.area, Rect.within_mk]
    rw [← series] at hbetween
    simp only [Box.sized, rational_zero]
    refine ⟨hbetween.1, ?_, ?_, ?_⟩ <;> linarith
  · exact hspaced.apart_beside hc.sequence hattached
  · rw [hroom]
    exact fun r hr => absurd hr List.not_mem_nil
  · rw [hroom]
    exact .nil

end Series

/-- An empty sequence keeps an empty place. -/
theorem orderly_sequence_nil : (sequence c []).Orderly c.strokeInset := by
  refine ⟨?_, fun p hp => absurd hp List.not_mem_nil, .nil, fun r hr => absurd hr List.not_mem_nil,
    .nil⟩
  constructor <;>
    simp only [sequence, Box.empty, Box.ofRect, rational_zero, rational_numeral] <;> norm_num

/-! ## Columns -/

theorem snapped_centred (c : Spacing ℚ) {size room : ℚ} (h : size ≤ room) :
    0 ≤ c.snapped ((room - size) / 2) ∧ c.snapped ((room - size) / 2) + size ≤ room := by
  have hle := c.snapped_le ((room - size) / 2)
  exact ⟨c.snapped_nonneg (by linarith), by linarith⟩

/-- Fragments in a column, each of them centred, and the height behind the last gap. -/
def column (c : Spacing ℚ) (pad y : ℚ) (fragments : List (Fragment ℚ)) : List (Placed ℚ) × ℚ :=
  stack c (fun f => pad + c.snapped ((widest fragments - f.box.width) / 2)) y fragments

section Column

variable {pad y : ℚ} {fragments : List (Fragment ℚ)}

theorem mem_of_column {p : Placed ℚ} (hp : p ∈ (column c pad y fragments).1) :
    p.fragment ∈ fragments :=
  (stack_placed _ y fragments p hp).1

theorem column_between {p : Placed ℚ} (hp : p ∈ (column c pad y fragments).1) :
    pad ≤ p.offset.x ∧ p.offset.x + p.fragment.box.width ≤ pad + widest fragments := by
  obtain ⟨hmem, hoffset⟩ := stack_placed _ y fragments p hp
  obtain ⟨hnonneg, hle⟩ := snapped_centred c (le_widest hmem)
  rw [hoffset]
  exact ⟨by linarith, by linarith⟩

end Column

/-! ## Alternations -/

theorem room_branchConnectors (stroke : ℚ) (b : Box ℚ) (mid right : ℚ) :
    (branchConnectors c b mid right).flatMap (Shape.room stroke) = [] :=
  List.flatMap_eq_nil_iff.2 fun s hs => by
    obtain ⟨segments, rfl⟩ := connector_of_mem_branchConnectors hs
    rfl

section Alternatives

variable {branches : List (Fragment ℚ)}

/-- The height of branches in a column. -/
def branchesHeight (c : Spacing ℚ) (branches : List (Fragment ℚ)) : ℚ :=
  max ((column c c.branchIndent 0 branches).2 - c.branchGap) 0

theorem box_alternatives :
    (alternatives c branches).box =
      .sized (widest branches + 2 * c.branchIndent) (branchesHeight c branches) 0
        (widest branches + 2 * c.branchIndent - c.strokeInset)
        (c.snapped (branchesHeight c branches / 2)) := rfl

theorem orderly_alternatives (hc : c.Ample) (h : ∀ f ∈ branches, f.box.Attached) :
    (alternatives c branches).Orderly c.strokeInset := by
  have hroom : (alternatives c branches).room c.strokeInset = [] := by
    rw [Fragment.room, alternatives, List.flatMap_assoc]
    exact List.flatMap_eq_nil_iff.2 fun p _ => room_branchConnectors _ _ _ _
  have hchildren : (alternatives c branches).children = (column c c.branchIndent 0 branches).1 := rfl
  have hspaced : Spaced (·.offset.y) (·.fragment.box.height) c.branchGap 0
      (column c c.branchIndent 0 branches).2 (column c c.branchIndent 0 branches).1 :=
    spaced_stack hc _ 0 h
  have hinner := widest_nonneg branches
  have hindent := hc.indent
  have hstroke := hc.stroke
  have hbottom : (column c c.branchIndent 0 branches).2 - c.branchGap ≤ branchesHeight c branches :=
    le_max_left _ _
  have hheight : 0 ≤ branchesHeight c branches := le_max_right _ _
  obtain ⟨hmiddle, hmiddle'⟩ := c.snapped_half hheight
  constructor
  · rw [box_alternatives]
    constructor <;> simp only [Box.sized, rational_zero] <;> linarith
  · intro p hp
    rw [hchildren] at hp
    obtain ⟨hleft, hright⟩ := column_between hp
    obtain ⟨habove, hbelow⟩ := hspaced.between p hp
    rw [Placed.area_box (h _ (mem_of_column hp)), box_alternatives, Box.area, Rect.within_mk]
    simp only [Box.sized, rational_zero]
    refine ⟨?_, ?_, ?_, ?_⟩ <;> linarith
  · exact hspaced.apart_above hc.branch fun p hp => h _ (mem_of_column hp)
  · rw [hroom]
    exact fun r hr => absurd hr List.not_mem_nil
  · rw [hroom]
    exact .nil

end Alternatives

/-! ## Classes -/

section Classes

variable {members : List (Fragment ℚ)} {negated : Bool}

/-- The height below a caption. -/
def captionBottom (c : Spacing ℚ) (m : Measure ℚ) (caption : List Char) : ℚ :=
  (m.extent caption).height + c.captionGap

/-- The members of a class below its caption. -/
def memberColumn (c : Spacing ℚ) (m : Measure ℚ) (negated : Bool) (members : List (Fragment ℚ)) :
    List (Placed ℚ) × ℚ :=
  column c c.labelPaddingX (captionBottom c m (charsetCaption negated) + c.labelPaddingY) members

/-- The height of the frame of a class. -/
def classHeight (c : Spacing ℚ) (m : Measure ℚ) (negated : Bool) (members : List (Fragment ℚ)) : ℚ :=
  (if (memberColumn c m negated members).1.isEmpty then (memberColumn c m negated members).2
    else (memberColumn c m negated members).2 - c.branchGap) + c.labelPaddingY -
      captionBottom c m (charsetCaption negated)

theorem box_charset :
    (charset c m negated members).box =
      .sized (max (widest members + 2 * c.labelPaddingX) (m.extent (charsetCaption negated)).width)
        (captionBottom c m (charsetCaption negated) + classHeight c m negated members) 0
        (widest members + 2 * c.labelPaddingX - c.strokeInset)
        (captionBottom c m (charsetCaption negated) +
          c.snapped (classHeight c m negated members / 2)) := rfl

theorem spaced_memberColumn (m : Measure ℚ) (negated : Bool) (hc : c.Ample)
    (h : ∀ f ∈ members, f.box.Attached) :
    Spaced (·.offset.y) (·.fragment.box.height) c.branchGap
      (captionBottom c m (charsetCaption negated) + c.labelPaddingY)
      (memberColumn c m negated members).2 (memberColumn c m negated members).1 :=
  spaced_stack hc _ _ h

/-- The frame of a class ends below its members. -/
theorem members_above (m : Measure ℚ) (negated : Bool) (hc : c.Ample)
    (h : ∀ f ∈ members, f.box.Attached) :
    ∀ p ∈ (memberColumn c m negated members).1,
      p.offset.y + p.fragment.box.height ≤
        captionBottom c m (charsetCaption negated) + classHeight c m negated members := by
  intro p hp
  have hpad := hc.labelY
  have hstroke := hc.stroke
  have hbetween := ((spaced_memberColumn m negated hc h).between p hp).2
  have hplaced : (memberColumn c m negated members).1.isEmpty = false :=
    List.isEmpty_eq_false_iff.2 (List.ne_nil_of_mem hp)
  rw [classHeight, hplaced, if_neg Bool.false_ne_true]
  linarith

/-- The frame of a class has its padding above and below the members. -/
theorem padding_le_classHeight (m : Measure ℚ) (negated : Bool) (hc : c.Ample)
    (h : ∀ f ∈ members, f.box.Attached) : 2 * c.labelPaddingY ≤ classHeight c m negated members := by
  have hspaced := spaced_memberColumn m negated hc h
  cases hplaced : (memberColumn c m negated members).1 with
  | nil =>
    have hstart := hspaced.start_le
    rw [classHeight, hplaced, List.isEmpty_nil, if_pos rfl]
    linarith
  | cons first rest =>
    have hmem : first ∈ (memberColumn c m negated members).1 := hplaced ▸ .head _
    have hbetween := hspaced.between first hmem
    have hheight := (h _ (mem_of_column hmem)).height_nonneg
    rw [classHeight, hplaced, List.isEmpty_cons, if_neg Bool.false_ne_true]
    linarith

theorem classHeight_nonneg (m : Measure ℚ) (negated : Bool) (hc : c.Ample)
    (h : ∀ f ∈ members, f.box.Attached) : 0 ≤ classHeight c m negated members := by
  have hpadding := padding_le_classHeight m negated hc h
  linarith [hc.stroke, hc.labelY]

theorem orderly_charset (hc : c.Ample) (hm : m.NonNegative) (h : ∀ f ∈ members, f.box.Attached) :
    (charset c m negated members).Orderly c.strokeInset := by
  obtain ⟨hcaptionWidth, hcaptionHeight⟩ := hm.extent (charsetCaption negated)
  have hroom : (charset c m negated members).room c.strokeInset =
      [⟨0, 0, (m.extent (charsetCaption negated)).width,
        (m.extent (charsetCaption negated)).height⟩] := rfl
  have hchildren : (charset c m negated members).children =
      (memberColumn c m negated members).1 := rfl
  have hcaption : captionBottom c m (charsetCaption negated) =
    (m.extent (charsetCaption negated)).height + c.captionGap := rfl
  have hspaced := spaced_memberColumn m negated hc h
  have hinner := widest_nonneg members
  obtain ⟨hpadX, hpadY⟩ := And.intro hc.labelX hc.labelY
  obtain ⟨hstroke, hgap⟩ := And.intro hc.stroke hc.caption
  have hheight := classHeight_nonneg m negated hc h
  obtain ⟨hmiddle, hmiddle'⟩ := c.snapped_half hheight
  have hframe := le_max_left (widest members + 2 * c.labelPaddingX)
    (m.extent (charsetCaption negated)).width
  have hcaptionRight := le_max_right (widest members + 2 * c.labelPaddingX)
    (m.extent (charsetCaption negated)).width
  constructor
  · rw [box_charset]
    constructor <;> simp only [Box.sized, rational_zero] <;> linarith
  · intro p hp
    rw [hchildren] at hp
    obtain ⟨hleft, hright⟩ := column_between hp
    have habove := (hspaced.between p hp).1
    have hbelow := members_above m negated hc h p hp
    rw [Placed.area_box (h _ (mem_of_column hp)), box_charset, Box.area, Rect.within_mk]
    simp only [Box.sized, rational_zero]
    refine ⟨?_, ?_, ?_, ?_⟩ <;> linarith
  · exact hspaced.apart_above hc.branch fun p hp => h _ (mem_of_column hp)
  · rw [hroom]
    refine List.forall_mem_singleton.2 ⟨?_, fun p hp => ?_⟩
    · rw [box_charset, Box.area, Rect.within_mk]
      simp only [Box.sized, rational_zero]
      refine ⟨?_, ?_, ?_, ?_⟩ <;> linarith
    · have habove := (hspaced.between p hp).1
      rw [Placed.area_box (h _ (mem_of_column hp))]
      refine Rect.apart_of_above ?_
      simp only [Rect.bottom]
      linarith
  · rw [hroom]
    exact List.pairwise_singleton _ _

end Classes

/-! ## Ranges -/

section Ranges

variable {first last : Fragment ℚ}

/-- The height of a range. -/
def rangeHeight (m : Measure ℚ) (first last : Fragment ℚ) : ℚ :=
  max (max first.box.height last.box.height) (m.extent ['-']).height

/-- Where the hyphen of a range lies. -/
def hyphenLeft (c : Spacing ℚ) (first : Fragment ℚ) : ℚ :=
  first.box.width + c.snapped (c.labelPaddingX / 2)

/-- Where the last end of a range lies. -/
def lastLeft (c : Spacing ℚ) (m : Measure ℚ) (first : Fragment ℚ) : ℚ :=
  hyphenLeft c first + (m.extent ['-']).width + c.snapped (c.labelPaddingX / 2)

theorem range_eq :
    range c m first last =
      { className := "charset-range"
        box := .sized (lastLeft c m first + last.box.width) (rangeHeight m first last) 0
          (lastLeft c m first + last.box.width - c.strokeInset)
          (c.snapped (rangeHeight m first last / 2))
        shapes := [.text ⟨hyphenLeft c first,
          c.snapped ((rangeHeight m first last - (m.extent ['-']).height) / 2)⟩ (m.extent ['-']) ['-']
            "label"]
        children :=
          [⟨⟨0, c.snapped ((rangeHeight m first last - first.box.height) / 2)⟩, first⟩,
           ⟨⟨lastLeft c m first, c.snapped ((rangeHeight m first last - last.box.height) / 2)⟩,
            last⟩] } := rfl

theorem orderly_range (hc : c.Ample) (hm : m.NonNegative) (hfirst : first.box.Attached)
    (hlast : last.box.Attached) : (range c m first last).Orderly c.strokeInset := by
  obtain ⟨hhyphenWidth, hhyphenHeight⟩ := hm.extent ['-']
  have hheight : max first.box.height last.box.height ≤ rangeHeight m first last := le_max_left _ _
  obtain ⟨hfirstTop, hfirstBottom⟩ := snapped_centred c ((le_max_left _ _).trans hheight)
  obtain ⟨hlastTop, hlastBottom⟩ := snapped_centred c ((le_max_right _ _).trans hheight)
  obtain ⟨hhyphenTop, hhyphenBottom⟩ := snapped_centred c
    (show (m.extent ['-']).height ≤ rangeHeight m first last from le_max_right _ _)
  obtain ⟨hmiddle, hmiddle'⟩ := c.snapped_half
    (show 0 ≤ rangeHeight m first last from hhyphenHeight.trans (le_max_right _ _))
  obtain ⟨hgap, hstroke⟩ := And.intro hc.hyphen hc.stroke
  have hfirstWidth := hfirst.width_nonneg
  have hlastWidth := hlast.width_nonneg
  have hlastLeft : lastLeft c m first =
    first.box.width + c.snapped (c.labelPaddingX / 2) + (m.extent ['-']).width +
      c.snapped (c.labelPaddingX / 2) := rfl
  have hhyphenLeft : hyphenLeft c first = first.box.width + c.snapped (c.labelPaddingX / 2) := rfl
  rw [range_eq]
  constructor
  · constructor <;> simp only [Box.sized, rational_zero] <;> linarith
  · refine List.forall_mem_cons.2 ⟨?_, List.forall_mem_singleton.2 ?_⟩
    · rw [Placed.area_box hfirst, Box.area, Rect.within_mk]
      simp only [Box.sized, rational_zero]
      refine ⟨?_, ?_, ?_, ?_⟩ <;> linarith
    · rw [Placed.area_box hlast, Box.area, Rect.within_mk]
      simp only [Box.sized, rational_zero]
      refine ⟨?_, ?_, ?_, ?_⟩ <;> linarith
  · refine .cons (List.forall_mem_singleton.2 ?_) (List.pairwise_singleton _ _)
    rw [Placed.area_box hfirst, Placed.area_box hlast]
    refine Rect.apart_of_beside ?_
    simp only [Rect.right]
    linarith
  · refine List.forall_mem_singleton.2 ⟨?_, List.forall_mem_cons.2 ⟨?_, List.forall_mem_singleton.2 ?_⟩⟩
    · rw [Box.area, Rect.within_mk]
      simp only [Box.sized, rational_zero]
      refine ⟨?_, ?_, ?_, ?_⟩ <;> linarith
    · rw [Placed.area_box hfirst]
      refine (Rect.apart_of_beside ?_).symm
      simp only [Rect.right]
      linarith
    · rw [Placed.area_box hlast]
      refine Rect.apart_of_beside ?_
      simp only [Rect.right]
      linarith
  · exact List.pairwise_singleton _ _

end Ranges

/-! ## Groups -/

section Groups

variable {caption : List Char} {content : Fragment ℚ}

/-- The width of the frame of a group. -/
def frameWidth (c : Spacing ℚ) (m : Measure ℚ) (caption : List Char) (content : Fragment ℚ) : ℚ :=
  max (m.extent caption).width (content.box.width + 2 * c.groupPadding)

/-- Where the content of a group lies. -/
def frameCorner (c : Spacing ℚ) (m : Measure ℚ) (caption : List Char) (content : Fragment ℚ) : Point ℚ :=
  ⟨c.snapped ((frameWidth c m caption content - content.box.width) / 2),
    captionBottom c m caption + c.groupPadding⟩

theorem box_frame :
    (frame c m caption content).box =
      .sized (frameWidth c m caption content)
        (captionBottom c m caption + (content.box.height + 2 * c.groupPadding))
        (content.box.entry + (frameCorner c m caption content).x)
        (content.box.exit + (frameCorner c m caption content).x)
        (content.box.track + (frameCorner c m caption content).y) := rfl

theorem children_frame :
    (frame c m caption content).children = [⟨frameCorner c m caption content, content⟩] := rfl

theorem orderly_frame (hc : c.Ample) (hm : m.NonNegative) (h : content.box.Attached) :
    (frame c m caption content).Orderly c.strokeInset := by
  obtain ⟨hcaptionWidth, hcaptionHeight⟩ := hm.extent caption
  have hroom : (frame c m caption content).room c.strokeInset =
      [⟨0, 0, (m.extent caption).width, (m.extent caption).height⟩] := rfl
  have hcaption : captionBottom c m caption = (m.extent caption).height + c.captionGap := rfl
  obtain ⟨hpad, hgap⟩ := And.intro hc.group hc.caption
  have hcaptionRight : (m.extent caption).width ≤ frameWidth c m caption content := le_max_left _ _
  have hframe : content.box.width + 2 * c.groupPadding ≤ frameWidth c m caption content :=
    le_max_right _ _
  have hcorner : (frameCorner c m caption content).x =
    c.snapped ((frameWidth c m caption content - content.box.width) / 2) := rfl
  have hcornerTop : (frameCorner c m caption content).y =
    captionBottom c m caption + c.groupPadding := rfl
  obtain ⟨hleft, hright⟩ := snapped_centred c
    (show content.box.width ≤ frameWidth c m caption content by linarith)
  rw [← hcorner] at hleft hright
  obtain ⟨hentry, hpassage, hexit⟩ := And.intro h.entry (And.intro h.passage h.exit)
  obtain ⟨htop, hbottom⟩ := And.intro h.top h.bottom
  constructor
  · rw [box_frame]
    constructor <;> simp only [Box.sized, rational_zero] <;> linarith
  · rw [children_frame]
    refine List.forall_mem_singleton.2 ?_
    rw [Placed.area_box h, box_frame, Box.area, Rect.within_mk]
    simp only [Box.sized, rational_zero]
    refine ⟨?_, ?_, ?_, ?_⟩ <;> linarith
  · exact List.pairwise_singleton _ _
  · rw [hroom, children_frame]
    refine List.forall_mem_singleton.2 ⟨?_, List.forall_mem_singleton.2 ?_⟩
    · rw [box_frame, Box.area, Rect.within_mk]
      simp only [Box.sized, rational_zero]
      refine ⟨?_, ?_, ?_, ?_⟩ <;> linarith
    · rw [Placed.area_box h]
      refine Rect.apart_of_above ?_
      simp only [Rect.bottom]
      linarith
  · rw [hroom]
    exact List.pairwise_singleton _ _

end Groups

end RegexDiagram.Railroad
