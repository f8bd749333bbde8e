import RegexDiagram.Proofs.Canvas.Segments

/-!
# Calls

A grid is drawn on by calls: it grows, takes a character or a text, and lines through its cells. Each call
is a list of steps (`Call.apply_eq`), and a step does to a grid what it does to the cell in each place
alone (`Filled.cellAt_step`). So what a place shows after calls is what their steps make of its cell in
turn (`Filled.cellAt_perform`), and a call leaves all places alone that it does not draw in
(`Filled.cellAt_call`).
-/

namespace RegexDiagram.Canvas

variable {set : CharacterSet}

/-! ## Steps -/

/-- The least that is done to a grid. -/
inductive Step where
  | grow (width height : Nat)
  | put (x y : Nat) (c : Char)
  | merge (t : Touch)

namespace Step

def apply (set : CharacterSet) (g : Grid) : Step → Grid
  | grow width height => g.grow width height
  | put x y c => g.setChar x y c
  | merge t => g.touch set t

/-- What the step makes of the cell in a place. -/
def effect (set : CharacterSet) (x y : Nat) (cell : Cell) : Step → Cell
  | grow _ _ => cell
  | put x' y' c => if x = x' ∧ y = y' then ⟨c, 0, .solid⟩ else cell
  | merge t =>
    if t.sides ≠ 0 ∧ x = t.x ∧ y = t.y then Grid.Cell.merge set cell t.sides t.stroke else cell

/-- The step changes the cell in the place. -/
def Addresses (x y : Nat) : Step → Prop
  | grow _ _ => False
  | put x' y' _ => x = x' ∧ y = y'
  | merge t => t.sides ≠ 0 ∧ x = t.x ∧ y = t.y

/-- What is kept while a grid grows, and while a cell is changed, is kept by a step. -/
theorem apply_keeps {P : Grid → Prop} (hgrow : ∀ g, P g → ∀ width height, P (g.grow width height))
    (halter : ∀ g, P g → ∀ x y f, P (g.alter x y f)) {g : Grid} (h : P g) (step : Step) :
    P (step.apply set g) := by
  cases step with
  | grow width height => exact hgrow g h width height
  | put x y c => exact halter _ (hgrow g h (x + 1) (y + 1)) x y _
  | merge t =>
    rw [apply, Grid.touch, Grid.mergeLine]
    split
    · exact h
    · exact halter _ (hgrow g h (t.x + 1) (t.y + 1)) t.x t.y _

/-- It is kept by all steps of a run. -/
theorem foldl_keeps {P : Grid → Prop} (hgrow : ∀ g, P g → ∀ width height, P (g.grow width height))
    (halter : ∀ g, P g → ∀ x y f, P (g.alter x y f)) {g : Grid} (h : P g) (steps : List Step) :
    P (steps.foldl (apply set) g) :=
  List.foldlRecOn steps _ h fun _ hg step _ => apply_keeps hgrow halter hg step

theorem effect_of_not_addresses {step : Step} {x y : Nat} (h : ¬ step.Addresses x y) (cell : Cell) :
    step.effect set x y cell = cell := by
  cases step with
  | grow width height => rfl
  | put x' y' c => exact if_neg h
  | merge t => exact if_neg h

theorem foldl_effect_of_not_addresses {steps : List Step} {x y : Nat}
    (h : ∀ step ∈ steps, ¬ step.Addresses x y) (cell : Cell) :
    steps.foldl (effect set x y) cell = cell := by
  induction steps with
  | nil => rfl
  | cons step rest ih =>
    obtain ⟨hstep, hrest⟩ := List.forall_mem_cons.1 h
    rw [List.foldl_cons, effect_of_not_addresses hstep, ih hrest]

end Step

namespace Grid

variable {g : Grid}

theorem Filled.step (h : g.Filled) (step : Step) : (step.apply set g).Filled :=
  Step.apply_keeps (fun _ => Filled.grow) (fun _ => Filled.alter) h step

/-- A step does to a grid what it does in each place. -/
theorem Filled.cellAt_step (h : g.Filled) (step : Step) (x y : Nat) :
    (step.apply set g).cellAt x y = step.effect set x y (g.cellAt x y) := by
  cases step with
  | grow width height => exact g.cellAt_grow width height x y
  | put x' y' c => exact h.cellAt_setChar x' y' c x y
  | merge t =>
    rw [Step.apply, touch, Step.effect]
    by_cases hsides : t.sides = 0
    · rw [Grid.mergeLine, if_pos hsides, if_neg fun hplace => hplace.1 hsides]
    · rw [h.cellAt_mergeLine t.x t.y hsides]
      by_cases hplace : x = t.x ∧ y = t.y
      · rw [if_pos hplace, if_pos ⟨hsides, hplace⟩, hplace.1, hplace.2]
      · rw [if_neg hplace, if_neg fun h => hplace h.2]

theorem Filled.steps (h : g.Filled) (steps : List Step) : (steps.foldl (Step.apply set) g).Filled :=
  Step.foldl_keeps (fun _ => Filled.grow) (fun _ => Filled.alter) h steps

theorem Filled.cellAt_steps (h : g.Filled) (steps : List Step) (x y : Nat) :
    (steps.foldl (Step.apply set) g).cellAt x y = steps.foldl (Step.effect set x y) (g.cellAt x y) := by
  induction steps generalizing g with
  | nil => rfl
  | cons step rest ih => rw [List.foldl_cons, List.foldl_cons, ih (h.step step), h.cellAt_step]

end Grid

/-! ## Texts -/

/-- What the cells of a text hold: each character and behind it its further cells. -/
def textCells [TerminalWidths] (text : List Char) : List Char :=
  text.flatMap fun c => if charColumns c = 0 then [] else c :: List.replicate (charColumns c - 1) continuation

/-- Characters side by side, from a place on. -/
def spell (x y : Nat) : List Char → List Step
  | [] => []
  | c :: rest => .put x y c :: spell (x + 1) y rest

theorem spell_append (x y : Nat) (front back : List Char) :
    spell x y (front ++ back) = spell x y front ++ spell (x + front.length) y back := by
  induction front generalizing x with
  | nil => rfl
  | cons c rest ih =>
    have hplace : x + 1 + rest.length = x + (rest.length + 1) := by omega
    rw [List.cons_append, spell, ih, hplace]
    rfl

theorem spell_replicate (x y n : Nat) (c : Char) :
    spell x y (List.replicate n c) = (List.range' x n).map (Step.put · y c) := by
  induction n generalizing x with
  | zero => rfl
  | succ n ih => rw [List.replicate_succ, spell, ih, List.range'_succ, List.map_cons]

/-- A text is drawn character by character, each in the cells that it fills. -/
theorem foldl_spell_textCells [TerminalWidths] (set : CharacterSet) (g : Grid) (x y : Nat)
    (text : List Char) :
    (spell x y (textCells text)).foldl (Step.apply set) g = g.drawText x y text := by
  induction text generalizing g x with
  | nil => rfl
  | cons c rest ih =>
    rw [textCells, List.flatMap_cons, ← textCells, spell_append, List.foldl_append, ih, Grid.drawText]
    split
    · rfl
    next hcolumns =>
      have hlength : (c :: List.replicate (charColumns c - 1) continuation).length = charColumns c := by
        rw [List.length_cons, List.length_replicate]
        omega
      rw [hlength, spell, spell_replicate, List.foldl_cons, List.foldl_map]
      rfl

theorem addresses_spell {x y x' y' : Nat} {cells : List Char} :
    (∃ step ∈ spell x y cells, step.Addresses x' y') ↔ y' = y ∧ x ≤ x' ∧ x' < x + cells.length := by
  induction cells generalizing x with
  | nil =>
    rw [spell, List.length_nil]
    constructor
    · rintro ⟨step, hstep, -⟩
      exact absurd hstep List.not_mem_nil
    · omega
  | cons c rest ih =>
    rw [spell, List.exists_mem_cons_iff, ih, List.length_cons, Step.Addresses]
    omega

/-! ## Calls -/

/-- A call that draws on a grid. -/
inductive Call where
  | ensure (width height : Nat)
  | setChar (x y : Nat) (c : Char)
  | drawText (x y : Nat) (text : List Char)
  | mergeLine (x y sides : Nat) (stroke : Stroke)
  | draw (lines : Draw)

variable [TerminalWidths]

namespace Call

def apply (set : CharacterSet) (g : Grid) : Call → Grid
  | ensure width height => g.grow width height
  | setChar x y c => g.setChar x y c
  | drawText x y text => g.drawText x y text
  | mergeLine x y sides stroke => g.mergeLine set x y sides stroke
  | draw lines => lines.apply set g

/-- The steps that the call is made of. -/
def steps : Call → List Step
  | ensure width height => [.grow width height]
  | setChar x y c => [.put x y c]
  | drawText x y text => spell x y (textCells text)
  | mergeLine x y sides stroke => [.merge ⟨x, y, sides, stroke⟩]
  | draw lines => (lines.segments.flatMap LineSegment.touches).map .merge

theorem apply_eq (set : CharacterSet) (g : Grid) (call : Call) :
    call.apply set g = call.steps.foldl (Step.apply set) g := by
  cases call with
  | ensure width height => rfl
  | setChar x y c => rfl
  | drawText x y text => exact (foldl_spell_textCells set g x y text).symm
  | mergeLine x y sides stroke => rfl
  | draw lines =>
    have hdraw := g.drawAll_eq set [lines]
    rw [List.flatMap_singleton] at hdraw
    rw [steps, List.foldl_map]
    exact hdraw

/-- The call draws in the place. -/
def Addresses (x y : Nat) : Call → Prop
  | ensure _ _ => False
  | setChar x' y' _ => x = x' ∧ y = y'
  | drawText x' y' text => y = y' ∧ x' ≤ x ∧ x < x' + (textCells text).length
  | mergeLine x' y' sides _ => sides ≠ 0 ∧ x = x' ∧ y = y'
  | draw lines => ∃ s ∈ lines.segments, s.Covers x y

theorem addresses_iff {call : Call} {x y : Nat} :
    call.Addresses x y ↔ ∃ step ∈ call.steps, step.Addresses x y := by
  cases call with
  | ensure width height => simp [Addresses, steps, Step.Addresses]
  | setChar x' y' c => simp [Addresses, steps, Step.Addresses]
  | drawText x' y' text => exact addresses_spell.symm
  | mergeLine x' y' sides stroke => simp [Addresses, steps, Step.Addresses]
  | draw lines =>
    constructor
    · rintro ⟨s, hs, hcovers⟩
      have htouch : (⟨x, y, s.sides x y, s.stroke⟩ : Touch) ∈ s.touches :=
        LineSegment.mem_touches.2 ⟨hcovers, rfl⟩
      exact ⟨_, List.mem_map_of_mem (List.mem_flatMap.2 ⟨s, hs, htouch⟩),
        LineSegment.sides_ne_zero hcovers, rfl, rfl⟩
    · rintro ⟨step, hstep, haddresses⟩
      obtain ⟨t, ht, rfl⟩ := List.mem_map.1 hstep
      obtain ⟨s, hs, ht⟩ := List.mem_flatMap.1 ht
      obtain ⟨-, rfl, rfl⟩ := haddresses
      exact ⟨s, hs, (LineSegment.mem_touches.1 ht).1⟩

end Call

namespace Grid

variable {g : Grid}

/-- The grid after calls, one after the other. -/
def perform (set : CharacterSet) (g : Grid) (calls : List Call) : Grid := calls.foldl (Call.apply set) g

/-- Calls are made step by step. -/
theorem perform_eq (set : CharacterSet) (g : Grid) (calls : List Call) :
    g.perform set calls = (calls.flatMap Call.steps).foldl (Step.apply set) g := by
  rw [perform, List.foldl_flatMap]
  congr 1
  funext g call
  exact call.apply_eq set g

theorem Filled.perform (h : g.Filled) (calls : List Call) : (g.perform set calls).Filled := by
  rw [perform_eq]
  exact h.steps _

/-- What a place shows after calls is what their steps make of its cell. -/
theorem Filled.cellAt_perform (h : g.Filled) (calls : List Call) (x y : Nat) :
    (g.perform set calls).cellAt x y =
      (calls.flatMap Call.steps).foldl (Step.effect set x y) (g.cellAt x y) := by
  rw [perform_eq]
  exact h.cellAt_steps _ x y

/-- A call changes no place that it does not draw in. -/
theorem Filled.cellAt_call (h : g.Filled) {call : Call} {x y : Nat} (hplace : ¬ call.Addresses x y) :
    (call.apply set g).cellAt x y = g.cellAt x y := by
  rw [Call.apply_eq, h.cellAt_steps]
  refine Step.foldl_effect_of_not_addresses (fun step hstep haddresses => ?_) _
  exact hplace (Call.addresses_iff.2 ⟨step, hstep, haddresses⟩)

end Grid

end RegexDiagram.Canvas
