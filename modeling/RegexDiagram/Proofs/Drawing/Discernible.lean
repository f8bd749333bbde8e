import RegexDiagram.Proofs.Drawing.Inset
import RegexDiagram.Proofs.Drawing.Texts
import RegexDiagram.Proofs.Pattern.Quantifiers
import RegexDiagram.Proofs.Text.Plain
import RegexDiagram.Text.Terminal

/-!
# Telling repetitions apart

What a repetition shows besides its content are the way around it, the way back, the arrows on them and the
caption. `Signs` collects this, and `Signs.repetition` reads the bounds and the greediness back from it
(`repetition_signs`): what one sign leaves out, another one says. A caption is treated as data first, so that
its words have to be read in one place only.

So no two quantifiers draw alike (`quantified_discernible`). Neither the distances nor the measure nor the
spelling of the ellipsis matter for that.
-/

namespace RegexDiagram

namespace Pattern

/-! ## Captions as data -/

/-- What a caption says about the passes after the first one. -/
inductive Caption where
  | once
  | exactly (passes : Nat)
  | atMostOnce
  | atMost (passes : Nat)
  | between (low high : Nat)
  | atLeast (low : Nat)
  deriving DecidableEq, Repr

namespace Caption

/-- The words of a caption, with dots between two numbers. -/
def words (dots : List Char) : Caption → List Char
  | once => "once".toList
  | exactly passes => decimal passes ++ " times".toList
  | atMostOnce => "at most once".toList
  | atMost passes => "at most ".toList ++ decimal passes ++ " times".toList
  | between low high => decimal low ++ dots ++ decimal high ++ " times".toList
  | atLeast low => decimal low ++ "+ times".toList

/-- What the words of a caption say: a number in front and what stands behind it, or a number in the middle,
or none. -/
def read (words : List Char) : Caption :=
  let low := words.takeWhile Char.isDigit
  let rest := words.dropWhile Char.isDigit
  let number := rest.filter Char.isDigit
  if low = [] then
    if number = [] then (if words = "once".toList then once else atMostOnce)
    else atMost (numeralValue 10 number)
  else if rest.head? = some ' ' then exactly (numeralValue 10 low)
  else if rest.head? = some '+' then atLeast (numeralValue 10 low)
  else between (numeralValue 10 low) (numeralValue 10 number)

/-- Dots as captions have them, in either character set. -/
def IsDots (dots : List Char) : Prop := dots = ['…'] ∨ dots = ['.', '.']

theorem filter_decimal (n : Nat) : (decimal n).filter Char.isDigit = decimal n :=
  List.filter_eq_self.2 (isNumber_decimal n).2

/-- A number in front of other words is read up to them. -/
theorem read_decimal (n : Nat) {c : Char} (hc : c.isDigit = false) (rest : List Char) :
    read (decimal n ++ c :: rest) =
      if c = ' ' then exactly n
      else if c = '+' then atLeast n
      else between n (numeralValue 10 (rest.filter Char.isDigit)) := by
  unfold read
  simp only [(isNumber_decimal n).takeWhile hc, (isNumber_decimal n).dropWhile hc, if_neg (isNumber_decimal n).1,
    List.head?_cons, Option.some.injEq, numeralValue_decimal,
    List.filter_cons_of_neg (ne_true_of_eq_false hc)]

/-- A number behind other words is read wherever it stands. -/
theorem read_letter {c : Char} (hc : c.isDigit = false) {rest number : List Char}
    (hnumber : rest.filter Char.isDigit = number) (hne : number ≠ []) :
    read (c :: rest) = atMost (numeralValue 10 number) := by
  have hletter := ne_true_of_eq_false hc
  unfold read
  simp only [List.takeWhile_cons_of_neg hletter, List.dropWhile_cons_of_neg hletter,
    List.filter_cons_of_neg hletter, hnumber, if_neg hne, if_true]

/-- The words of a caption say what it says. -/
theorem read_words {dots : List Char} (hdots : IsDots dots) (caption : Caption) :
    read (caption.words dots) = caption := by
  have htimes : " times".toList.filter Char.isDigit = [] := by decide
  cases caption with
  | once => rfl
  | exactly passes =>
    show read (decimal passes ++ ' ' :: "times".toList) = _
    rw [read_decimal passes (by decide), if_pos rfl]
  | atMostOnce => rfl
  | atMost passes =>
    have hfront : "t most ".toList.filter Char.isDigit = [] := by decide
    have hnumber : ("t most ".toList ++ decimal passes ++ " times".toList).filter Char.isDigit =
        decimal passes := by
      rw [List.filter_append, List.filter_append, filter_decimal, htimes, hfront, List.nil_append,
        List.append_nil]
    show read ('a' :: ("t most ".toList ++ decimal passes ++ " times".toList)) = _
    rw [read_letter (by decide) hnumber (isNumber_decimal passes).1, numeralValue_decimal]
  | between low high =>
    have hnumber : (decimal high ++ " times".toList).filter Char.isDigit = decimal high := by
      rw [List.filter_append, filter_decimal, htimes, List.append_nil]
    show read (decimal low ++ dots ++ decimal high ++ " times".toList) = _
    rw [List.append_assoc, List.append_assoc]
    obtain rfl | rfl := hdots
    · rw [List.singleton_append, read_decimal low (by decide), if_neg (by decide), if_neg (by decide), hnumber,
        numeralValue_decimal]
    · rw [List.cons_append, List.singleton_append, read_decimal low (by decide), if_neg (by decide),
        if_neg (by decide), List.filter_cons_of_neg (by decide), hnumber, numeralValue_decimal]
  | atLeast low =>
    show read (decimal low ++ '+' :: " times".toList) = _
    rw [read_decimal low (by decide), if_neg (by decide), if_pos rfl]

end Caption

namespace Repetition

/-- The caption of a repetition as data. -/
def caption (r : Repetition) : Option Caption :=
  let low := r.min - 1
  match r.max with
  | some max =>
    let high := max - 1
    if low = high then
      if high = 0 then none else if high = 1 then some .once else some (.exactly high)
    else if r.min ≤ 1 ∧ 2 ≤ max then if high = 1 then some .atMostOnce else some (.atMost high)
    else some (.between low high)
  | none => if low = 0 then none else some (.atLeast low)

theorem label_eq (r : Repetition) : r.label = r.caption.map (Caption.words ['…']) := by
  unfold label caption
  cases r.max with
  | none => simp only; split <;> rfl
  | some max =>
    simp only
    split
    · split
      · rfl
      · split <;> rfl
    · split
      · split <;> rfl
      · rfl

/-- A repetition that shows something: its bounds are in order, it is not empty, and it is not exactly
once. -/
structure Visible (r : Repetition) : Prop where
  ordered : ∀ max ∈ r.max, r.min ≤ max
  occurs : r.max ≠ some 0
  notOnce : r.isOnce = false

/-- The bounds of a repetition that has a way back, by its caption and whether there is a way around. -/
def boundsOf (around : Bool) : Option Caption → Bounds
  | none => ⟨if around then 0 else 1, none⟩
  | some .once => ⟨2, some 2⟩
  | some (.exactly passes) => ⟨passes + 1, some (passes + 1)⟩
  | some .atMostOnce => ⟨if around then 0 else 1, some 2⟩
  | some (.atMost passes) => ⟨if around then 0 else 1, some (passes + 1)⟩
  | some (.between low high) => ⟨low + 1, some (high + 1)⟩
  | some (.atLeast low) => ⟨low + 1, none⟩

/-- What can be repeated no further may be left out, for otherwise there is nothing to be seen. -/
theorem Visible.bounds_of_single {r : Repetition} (h : r.Visible) (hsingle : r.canRepeat = false) :
    r.min = 0 ∧ r.max = some 1 := by
  obtain ⟨min, max, greedy⟩ := r
  obtain ⟨hordered, hoccurs, hnotOnce⟩ := h
  cases max with
  | none => exact absurd hsingle (by decide : true ≠ false)
  | some max =>
    have hless : ¬ 1 < max := of_decide_eq_false hsingle
    have hle : min ≤ max := hordered max rfl
    have hne : max ≠ 0 := fun hzero => hoccurs (congrArg some hzero)
    obtain rfl : max = 1 := by omega
    have hmin : min ≠ 1 := by
      rintro rfl
      exact absurd hnotOnce (by decide : true ≠ false)
    exact ⟨show min = 0 by omega, rfl⟩

/-- A least count of one at most is known from the way around. -/
theorem min_eq_of_le {r : Repetition} (h : r.min ≤ 1) : (if r.canSkip then 0 else 1) = r.min := by
  unfold canSkip
  split
  next hzero => exact (beq_iff_eq.1 hzero).symm
  next hzero =>
    have hne : r.min ≠ 0 := fun h => hzero (beq_iff_eq.2 h)
    omega

/-- The caption and the way around say what the bounds are. -/
theorem Visible.boundsOf_caption {r : Repetition} (h : r.Visible) (hrepeat : r.canRepeat = true) :
    boundsOf r.canSkip r.caption = ⟨r.min, r.max⟩ := by
  have hskip := min_eq_of_le (r := r)
  obtain ⟨min, max, greedy⟩ := r
  cases max with
  | none =>
    unfold caption
    simp only
    split
    next hlow => exact congrArg (Bounds.mk · none) (hskip (show min ≤ 1 by omega))
    next hlow => exact congrArg (Bounds.mk · none) (show min - 1 + 1 = min by omega)
  | some max =>
    have hless : 1 < max := of_decide_eq_true hrepeat
    have hle : min ≤ max := h.ordered max rfl
    unfold caption
    simp only
    split_ifs with hsame hzero hone hmany hone
    · omega
    · refine congrArg₂ Bounds.mk ?_ (congrArg some ?_) <;> omega
    · refine congrArg₂ Bounds.mk ?_ (congrArg some ?_) <;> omega
    · exact congrArg₂ Bounds.mk (hskip hmany.1) (congrArg some (by omega))
    · exact congrArg₂ Bounds.mk (hskip hmany.1) (congrArg some (by omega))
    · refine congrArg₂ Bounds.mk ?_ (congrArg some ?_) <;> omega

/-- A repetition that is visible has a way around or a way back. -/
theorem Visible.shows {r : Repetition} (h : r.Visible) : r.canSkip = true ∨ r.canRepeat = true := by
  cases hrepeat : r.canRepeat with
  | true => exact .inr rfl
  | false => exact .inl (beq_iff_eq.2 (h.bounds_of_single hrepeat).1)

/-- The arrows of a repetition: on the way around if it is lazy, on the way back if it is greedy. -/
def arrows (r : Repetition) : List Direction :=
  (if r.canSkip && !r.greedy then [.right] else []) ++ (if r.canRepeat && r.greedy then [.left] else [])

/-- Where there is a way around its arrow tells a lazy repetition, and otherwise the other arrow a greedy
one. -/
theorem Visible.greedy_of_arrows {r : Repetition} (h : r.Visible) :
    (if r.canSkip then decide (Direction.right ∉ r.arrows) else decide (Direction.left ∈ r.arrows)) =
      r.greedy := by
  have hshows := h.shows
  unfold arrows
  generalize r.canSkip = skips at *
  generalize r.canRepeat = repeats at *
  generalize r.greedy = greedy
  revert skips repeats greedy
  decide

end Repetition

end Pattern

/-! ## Captions as they are shown -/

/-- The dots of captions. -/
def Spacing.dots {α : Type} (c : Spacing α) : List Char := if c.asciiText then ['.', '.'] else ['…']

open Pattern

theorem Spacing.isDots {α : Type} (c : Spacing α) : Caption.IsDots c.dots := by
  unfold Spacing.dots
  split
  · exact .inr rfl
  · exact .inl rfl

/-- Only the dots depend on the character set. -/
theorem Spacing.shown_words {α : Type} (c : Spacing α) (caption : Caption) :
    c.shown (caption.words ['…']) = caption.words c.dots := by
  unfold Spacing.shown Spacing.dots
  cases c.asciiText with
  | false => rfl
  | true =>
    have hnumber (n : Nat) : (decimal n).flatMap Spacing.asciiChar = decimal n :=
      flatMap_asciiChar (decimal_printable n)
    have htimes : " times".toList.flatMap Spacing.asciiChar = " times".toList := rfl
    have hfront : "at most ".toList.flatMap Spacing.asciiChar = "at most ".toList := rfl
    have hplus : "+ times".toList.flatMap Spacing.asciiChar = "+ times".toList := rfl
    have hdots : ['…'].flatMap Spacing.asciiChar = ['.', '.'] := rfl
    unfold Caption.words
    cases caption with
    | once => rfl
    | atMostOnce => rfl
    | _ => simp only [List.flatMap_append, hnumber, htimes, hfront, hplus, hdots, if_true]

/-! ## Signs -/

/-- The direction of an arrow. -/
def Shape.direction? {α : Type} : Shape α → Option Direction
  | .arrow _ direction => some direction
  | _ => none

namespace Railroad

/-- What a repetition shows besides its content. -/
structure Signs where
  /-- There is a way around the content. -/
  around : Bool
  /-- There is a way back. -/
  back : Bool
  arrows : List Direction
  captions : List (List Char)
  deriving DecidableEq, Repr

/-- The repetition that shows the signs. -/
def Signs.repetition (s : Signs) : Repetition :=
  let bounds : Bounds :=
    if s.back then Repetition.boundsOf s.around (s.captions.head?.map Caption.read) else ⟨0, some 1⟩
  ⟨bounds.min, bounds.max, if s.around then Direction.right ∉ s.arrows else Direction.left ∈ s.arrows⟩

variable {α : Type} [Scalar α] (c : Spacing α) (m : Measure α) (r : Repetition) (inner : Fragment α)

/-- The signs of a repetition as it is drawn. -/
def signs : Signs where
  around := !(skipShapes c m r inner).isEmpty
  back := !(loopShapes c r inner).isEmpty
  arrows := (repetition c m r inner).shapes.filterMap Shape.direction?
  captions := shapeTexts (repetition c m r inner).shapes

/-- The signs come from the bounds and the greediness alone. -/
theorem signs_eq :
    signs c m r inner =
      { around := r.canSkip
        back := r.canRepeat
        arrows := r.arrows
        captions := ((if r.canRepeat then r.label else none).map c.shown).toList } := by
  unfold signs
  simp only [shapes_repetition, skipShapes, loopShapes, captionShapes, lapCaption, Repetition.arrows]
  generalize r.label = label
  generalize r.canSkip = skips
  generalize r.canRepeat = loops
  generalize r.greedy = greedy
  cases loops with
  | false => cases skips <;> cases greedy <;> rfl
  | true => cases label <;> cases skips <;> cases greedy <;> rfl

omit [Scalar α] in
/-- The caption that is shown says what the caption of the repetition is. -/
theorem read_shown_label : (r.label.map c.shown).map Caption.read = r.caption := by
  rw [Repetition.label_eq, Option.map_map, Option.map_map]
  have hread (caption : Caption) : Caption.read (c.shown (caption.words ['…'])) = caption := by
    rw [c.shown_words, Caption.read_words c.isDots]
  cases r.caption with
  | none => rfl
  | some caption => exact congrArg some (hread caption)

/-- The signs of a repetition say what it is. -/
theorem repetition_signs {r : Repetition} (h : r.Visible) : (signs c m r inner).repetition = r := by
  have hbounds : (if r.canRepeat then
      Repetition.boundsOf r.canSkip
        (((if r.canRepeat then r.label else none).map c.shown).toList.head?.map Caption.read)
      else ⟨0, some 1⟩) = (⟨r.min, r.max⟩ : Bounds) := by
    cases hrepeat : r.canRepeat with
    | true =>
      rw [if_pos rfl, if_pos rfl, Option.head?_toList, read_shown_label]
      exact h.boundsOf_caption hrepeat
    | false =>
      obtain ⟨hmin, hmax⟩ := h.bounds_of_single hrepeat
      rw [if_neg Bool.false_ne_true, hmin, hmax]
  rw [signs_eq, Signs.repetition]
  simp only [hbounds]
  exact congrArg (Repetition.mk r.min r.max) h.greedy_of_arrows

/-! ## Ways in the drawing -/

section Ways

variable {c : Spacing ℚ} {m : Measure ℚ} {r : Repetition} {inner : Fragment ℚ}

/-- The paths of a repetition are the tracks to the content and from it, the way around, and the way
back. -/
theorem connector_repetition {segments : List (Segment ℚ)}
    (h : Shape.connector segments ∈ (repetition c m r inner).shapes) :
    (∃ p q, Shape.connector segments = .track p q) ∨
      (r.canSkip = true ∧ Shape.connector segments =
        skipPath c.curveRadius (lapTrack c r inner) (repetitionRight c m r inner)) ∨
      (r.canRepeat = true ∧ Shape.connector segments =
        loopPath c.curveRadius (lapTrack c r inner) (lapBottom c r inner) (lapLeft c inner)
          (lapRight c inner)) := by
  rw [shapes_repetition] at h
  obtain h | h := List.mem_cons.1 h
  · exact .inl ⟨_, _, h⟩
  obtain h | h := List.mem_cons.1 h
  · exact .inl ⟨_, _, h⟩
  obtain h | h := List.mem_append.1 h
  · obtain h | h := List.mem_append.1 h
    · refine .inr (.inl ⟨Bool.eq_true_of_not_eq_false fun hnone => ?_, connector_skipShapes h⟩)
      rw [skipShapes, hnone] at h
      exact absurd h List.not_mem_nil
    · refine .inr (.inr ⟨Bool.eq_true_of_not_eq_false fun hnone => ?_, connector_loopShapes h⟩)
      rw [loopShapes, hnone] at h
      exact absurd h List.not_mem_nil
  · exact absurd h (connector_captionShapes segments)

/-- A way around is to be seen just if the content may be left out. -/
theorem canSkip_iff (hradius : c.curveRadius ≠ 0) (m : Measure ℚ) (r : Repetition) (inner : Fragment ℚ) :
    r.canSkip = true ↔ ∃ row stop, skipPath c.curveRadius row stop ∈ (repetition c m r inner).shapes := by
  refine ⟨fun h => ⟨_, _, skipPath_mem h⟩, ?_⟩
  rintro ⟨row, stop, hpath⟩
  obtain ⟨p, q, htrack⟩ | ⟨hskip, -⟩ | ⟨-, hloop⟩ := connector_repetition hpath
  · exact absurd htrack (by simp [Shape.track, Shape.connector])
  · exact hskip
  · exact absurd hloop.symm (loopPath_ne_skipPath hradius)

/-- A way back is to be seen just if the content may occur again. -/
theorem canRepeat_iff (hradius : c.curveRadius ≠ 0) (m : Measure ℚ) (r : Repetition) (inner : Fragment ℚ) :
    r.canRepeat = true ↔ ∃ row bottom left right,
      loopPath c.curveRadius row bottom left right ∈ (repetition c m r inner).shapes := by
  refine ⟨fun h => ⟨_, _, _, _, loopPath_mem h⟩, ?_⟩
  rintro ⟨row, bottom, left, right, hpath⟩
  obtain ⟨p, q, htrack⟩ | ⟨-, hskip⟩ | ⟨hrepeat, -⟩ := connector_repetition hpath
  · exact absurd htrack loopPath_ne_track
  · exact absurd hskip (loopPath_ne_skipPath hradius)
  · exact hrepeat

/-- Where curves bend, repetitions with the same shapes show the same signs. -/
theorem signs_of_shapes (hradius : c.curveRadius ≠ 0) {r' : Repetition} {inner' : Fragment ℚ}
    (h : (repetition c m r inner).shapes = (repetition c m r' inner').shapes) :
    signs c m r inner = signs c m r' inner' := by
  have haround : r.canSkip = r'.canSkip := Bool.eq_iff_iff.2 (by
    rw [canSkip_iff hradius m r inner, h, ← canSkip_iff hradius])
  have hback : r.canRepeat = r'.canRepeat := Bool.eq_iff_iff.2 (by
    rw [canRepeat_iff hradius m r inner, h, ← canRepeat_iff hradius])
  have hread (r : Repetition) (inner : Fragment ℚ) : signs c m r inner =
      ⟨r.canSkip, r.canRepeat, (repetition c m r inner).shapes.filterMap Shape.direction?,
        shapeTexts (repetition c m r inner).shapes⟩ := by
    have hskips : (signs c m r inner).around = r.canSkip := congrArg Signs.around (signs_eq c m r inner)
    have hloops : (signs c m r inner).back = r.canRepeat := congrArg Signs.back (signs_eq c m r inner)
    rw [← hskips, ← hloops]
    rfl
  rw [hread, hread, haround, hback, h]

end Ways

/-! ## Quantifiers -/

/-- A quantifier that is visible is drawn as a repetition of what it stands behind. -/
theorem fragment_quantified {α : Type} [Scalar α] (c : Spacing α) (m : Measure α) {r : Repetition} (h : r.Visible)
    (span : Span) (atom : Node) (n : Nat) :
    (Node.quantified span atom r).fragment c m n = repetition c m r (atom.fragment c m n) := by
  rw [Node.fragment, h.notOnce]
  rfl

/-- **No two quantifiers draw alike.** If they show the same signs behind the same atom, then they are the
same, whatever the distances and the measure are. Over exact numbers, and where curves bend at all, the ways
need not be told from one another by what they are: quantifiers with the same shapes are the same. -/
theorem quantified_discernible {r r' : Repetition} (h : r.Visible) (h' : r'.Visible) (atom : Node) (n : Nat) :
    (∀ {α : Type} [Scalar α] (c : Spacing α) (m : Measure α),
      signs c m r (atom.fragment c m n) = signs c m r' (atom.fragment c m n) → r = r') ∧
      ∀ (c : Spacing ℚ) (m : Measure ℚ) (span span' : Span), c.curveRadius ≠ 0 →
        ((Node.quantified span atom r).fragment c m n).shapes =
          ((Node.quantified span' atom r').fragment c m n).shapes → r = r' := by
  have hsame {α : Type} [Scalar α] (c : Spacing α) (m : Measure α)
      (hsigns : signs c m r (atom.fragment c m n) = signs c m r' (atom.fragment c m n)) : r = r' := by
    rw [← repetition_signs c m (atom.fragment c m n) h, hsigns, repetition_signs c m _ h']
  refine ⟨hsame, fun c m span span' hradius hshapes => ?_⟩
  rw [fragment_quantified c m h, fragment_quantified c m h'] at hshapes
  exact hsame c m (signs_of_shapes hradius hshapes)

/-- A greedy and a lazy star behind the same letter look different. -/
theorem quantified_discernible_stars :
    ((Node.quantified ⟨['a', '*'], 0⟩ (.literal ⟨['a'], 0⟩ ['a']) ⟨0, none, true⟩).fragment
        (Spacing.cells (α := ℚ)) Measure.cells 0).shapes ≠
      ((Node.quantified ⟨['a', '*', '?'], 0⟩ (.literal ⟨['a'], 0⟩ ['a']) ⟨0, none, false⟩).fragment
        Spacing.cells Measure.cells 0).shapes := fun hshapes => by
  have hvisible (greedy : Bool) : (⟨0, none, greedy⟩ : Repetition).Visible :=
    ⟨fun _ hmax => absurd hmax (Option.not_mem_none _), (Option.some_ne_none 0).symm, rfl⟩
  have hradius : (Spacing.cells (α := ℚ)).curveRadius ≠ 0 := one_ne_zero
  have hsame := (quantified_discernible (hvisible true) (hvisible false) (.literal ⟨['a'], 0⟩ ['a']) 0).2
    Spacing.cells Measure.cells _ _ hradius hshapes
  exact absurd hsame (by decide)

end Railroad

end RegexDiagram
