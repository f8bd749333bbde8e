import RegexDiagram.Proofs.Canvas.Cells

/-!
# Lines and texts on a grid

Lines never take anything away that can be seen (`Lined.seen`), and the upright sides of a rectangle can
be seen wherever they run. A plain text stands in a strip of cells in one row, one character in each, and
changes no other cell.
-/

namespace RegexDiagram.Canvas

namespace Grid

variable {set : CharacterSet} {g g' : Grid}

/-! ## Lines -/

/-- A grid comes from another by drawing lines. -/
def Lined (set : CharacterSet) : Grid → Grid → Prop :=
  Relation.ReflTransGen fun g g' => ∃ x y sides stroke, g' = g.mergeLine set x y sides stroke

/-- There is something to be seen in the place. -/
def Inked (g : Grid) (x y : Nat) : Prop := Seen (g.cellAt x y).symbol

namespace Lined

theorem refl (g : Grid) : Lined set g g := Relation.ReflTransGen.refl

theorem mergeLine (g : Grid) (x y sides : Nat) (stroke : Stroke) :
    Lined set g (g.mergeLine set x y sides stroke) :=
  .single ⟨x, y, sides, stroke, rfl⟩

theorem foldl {β : Type} {draw : Grid → β → Grid} (h : ∀ g b, Lined set g (draw g b)) (bs : List β)
    (g : Grid) : Lined set g (bs.foldl draw g) := by
  induction bs generalizing g with
  | nil => exact refl g
  | cons b rest ih => exact .trans (h g b) (ih _)

theorem sound (h : Lined set g g') (hg : g.Sound) : g'.Sound := by
  induction h with
  | refl => exact hg
  | tail _ hstep ih =>
    obtain ⟨x, y, sides, stroke, rfl⟩ := hstep
    exact ih.mergeLine set x y sides stroke

/-- What could be seen before can be seen behind the lines. -/
theorem seen (h : Lined set g g') (hg : g.Sound) {x y : Nat} (hi : g.Inked x y) : g'.Inked x y := by
  induction h with
  | refl => exact hi
  | @tail middle last hbefore hstep ih =>
    obtain ⟨x', y', sides, stroke, rfl⟩ := hstep
    have hsound := sound hbefore hg
    by_cases hsides : sides = 0
    · rw [Grid.mergeLine, if_pos hsides]
      exact ih
    · rw [Inked, hsound.cellAt_mergeLine x' y' hsides]
      split
      · exact merge_seen hsides stroke (hsound.shown x' y')
      · exact ih

theorem drawHorizontal (g : Grid) (x₀ x₁ y : Nat) (stroke : Stroke) :
    Lined set g (g.drawHorizontal set x₀ x₁ y stroke) :=
  foldl (fun _ _ => mergeLine _ _ _ _ _) _ _

theorem drawVertical (g : Grid) (x y₀ y₁ : Nat) (stroke : Stroke) :
    Lined set g (g.drawVertical set x y₀ y₁ stroke) :=
  foldl (fun _ _ => mergeLine _ _ _ _ _) _ _

theorem drawRect (g : Grid) (x y x₂ y₂ : Nat) (stroke : Stroke) :
    Lined set g (g.drawRect set x y x₂ y₂ stroke) :=
  .trans (drawHorizontal _ _ _ _ _) (.trans (drawHorizontal _ _ _ _ _)
    (.trans (drawVertical _ _ _ _ _) (drawVertical _ _ _ _ _)))

end Lined

/-- A cell inside a run is joined to a neighbour. -/
theorem runSides_ne {before after low high k : Nat} (hbefore : before ≠ 0) (hafter : after ≠ 0)
    (hlt : low < high) : runSides before after low high k ≠ 0 := by
  intro h
  obtain ⟨hfront, hback⟩ := Nat.or_eq_zero_iff.1 h
  split at hfront
  · exact hbefore hfront
  · split at hback
    · exact hafter hback
    · omega

/-- An upright line can be seen all along. -/
theorem inked_drawVertical (hg : g.Sound) {y₀ y₁ k : Nat} (hlt : y₀ < y₁) (hlow : y₀ ≤ k)
    (hhigh : k ≤ y₁) (x : Nat) (stroke : Stroke) : (g.drawVertical set x y₀ y₁ stroke).Inked x k := by
  have hmem : k ∈ run y₀ y₁ := by
    rw [run, if_neg (Nat.ne_of_lt hlt), List.mem_range'_1]
    omega
  obtain ⟨front, back, hrun⟩ := List.append_of_mem hmem
  have hsides : runSides up down (min y₀ y₁) (max y₀ y₁) k ≠ 0 :=
    runSides_ne (by decide) (by decide) (by omega)
  have hlines (ys : List Nat) (g : Grid) : Lined set g (ys.foldl
      (fun g y => g.mergeLine set x y (runSides up down (min y₀ y₁) (max y₀ y₁) y) stroke) g) :=
    Lined.foldl (fun _ _ => Lined.mergeLine _ _ _ _ _) ys g
  have hsound := (hlines front g).sound hg
  rw [drawVertical, hrun, List.foldl_append, List.foldl_cons]
  refine (hlines back _).seen (hsound.mergeLine set _ _ _ _) ?_
  rw [Inked, hsound.cellAt_mergeLine x k hsides, if_pos ⟨rfl, rfl⟩]
  exact merge_seen hsides stroke (hsound.shown x k)

/-- Both upright sides of a rectangle can be seen all along. -/
theorem inked_drawRect (hg : g.Sound) {y y₂ k : Nat} (hlt : y < y₂) (hlow : y ≤ k) (hhigh : k ≤ y₂)
    (x x₂ : Nat) (stroke : Stroke) :
    (g.drawRect set x y x₂ y₂ stroke).Inked x k ∧ (g.drawRect set x y x₂ y₂ stroke).Inked x₂ k := by
  have hlevel : Lined set g ((g.drawHorizontal set x x₂ y stroke).drawHorizontal set x x₂ y₂ stroke) :=
    .trans (Lined.drawHorizontal _ _ _ _ _) (Lined.drawHorizontal _ _ _ _ _)
  have hupright (g : Grid) (x : Nat) : Lined set g (g.drawVertical set x y y₂ stroke) :=
    Lined.drawVertical g x y y₂ stroke
  have hsound := hlevel.sound hg
  have hsound' := (hupright _ x).sound hsound
  exact ⟨(hupright _ x₂).seen hsound' (inked_drawVertical hsound hlt hlow hhigh x stroke),
    inked_drawVertical hsound' hlt hlow hhigh x₂ stroke⟩

/-! ## Texts -/

variable [TerminalWidths] [PlainWidths]

/-- A character of one column takes one cell. -/
theorem setWide_plain {c : Char} (h : Plain c) (g : Grid) (x y : Nat) :
    g.setWide x y c = g.setChar x y c := by
  rw [setWide, h.charColumns]
  rfl

theorem drawText_cons {c : Char} (h : Plain c) (rest : List Char) (g : Grid) (x y : Nat) :
    g.drawText x y (c :: rest) = (g.setChar x y c).drawText (x + 1) y rest := by
  rw [drawText, h.charColumns, if_neg Nat.one_ne_zero, setWide_plain h]

theorem Sound.drawText (hg : g.Sound) {text : List Char} (h : PlainText text) (x y : Nat) :
    (g.drawText x y text).Sound := by
  induction text generalizing g x with
  | nil => exact hg
  | cons c rest ih =>
    obtain ⟨hc, hrest⟩ := List.forall_mem_cons.1 h
    rw [drawText_cons hc]
    exact ih (hg.setChar x y (showable_of_plain hc)) hrest (x + 1)

/-- A text changes the cells that it stands in and no others. -/
theorem Sound.cellAt_drawText_of_ne (hg : g.Sound) {text : List Char} (h : PlainText text) (x y : Nat)
    {x' y' : Nat} (hplace : ¬ (y' = y ∧ x ≤ x' ∧ x' < x + text.length)) :
    (g.drawText x y text).cellAt x' y' = g.cellAt x' y' := by
  induction text generalizing g x with
  | nil => rfl
  | cons c rest ih =>
    obtain ⟨hc, hrest⟩ := List.forall_mem_cons.1 h
    rw [List.length_cons] at hplace
    rw [drawText_cons hc, ih (hg.setChar x y (showable_of_plain hc)) hrest (x + 1) (by omega),
      hg.cellAt_setChar, if_neg (by omega)]

/-- A text can be read in the cells from its first place on. -/
theorem Sound.cellAt_drawText (hg : g.Sound) {text : List Char} (h : PlainText text) (x y : Nat) {i : Nat}
    (hi : i < text.length) : ((g.drawText x y text).cellAt (x + i) y).symbol = text[i] := by
  induction text generalizing g x i with
  | nil => exact absurd hi (Nat.not_lt_zero i)
  | cons c rest ih =>
    obtain ⟨hc, hrest⟩ := List.forall_mem_cons.1 h
    have hsound := hg.setChar x y (showable_of_plain hc)
    rw [drawText_cons hc]
    cases i with
    | zero =>
      rw [hsound.cellAt_drawText_of_ne hrest (x + 1) y (by omega), hg.cellAt_setChar,
        if_pos ⟨rfl, rfl⟩]
      rfl
    | succ i =>
      have hnext := ih hsound hrest (x + 1) (Nat.lt_of_succ_lt_succ hi)
      rw [Nat.add_assoc, Nat.add_comm 1] at hnext
      exact hnext

end Grid

end RegexDiagram.Canvas
