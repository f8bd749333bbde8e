import RegexDiagram.Proofs.Canvas.Display
import Mathlib.Data.List.DropRight

/-!
# Cropped rows

A picture is made of the rows of a grid by `crop`, which takes away the empty rows above and below and the
spaces that all rows begin with. Empty rows around the others and spaces in front of all of them make no
difference to it (`crop_empty_append`, `crop_append_empty`, `crop_map_indented`). What it leaves is tight
(`tight_crop`), and it is the rows themselves, without the same number of spaces in front
(`forall₂_crop`).
-/

namespace RegexDiagram

/-! ## Blanks at the end of a text -/

/-- The text does not end in white space. -/
def Trimmed (s : List Char) : Prop := ∀ c ∈ s.getLast?, isBlank c = false

theorem trimmed_trimEnd (s : List Char) : Trimmed (trimEnd s) := by
  intro c hc
  have hlast := List.head?_dropWhile_not isBlank s.reverse
  rw [trimEnd, List.getLast?_reverse, Option.mem_def] at hc
  rw [hc] at hlast
  exact hlast

/-- Of two texts the first is kept whole, unless the second is nothing but white space. -/
theorem trimEnd_append_eq (s t : List Char) :
    trimEnd (s ++ t) = if trimEnd t = [] then trimEnd s else s ++ trimEnd t := by
  rw [trimEnd, trimEnd, List.reverse_append, List.dropWhile_append]
  by_cases hblank : t.reverse.dropWhile isBlank = []
  · rw [hblank]
    rfl
  · have hkept : ¬ (t.reverse.dropWhile isBlank).isEmpty = true := mt List.isEmpty_iff.1 hblank
    rw [if_neg hkept, if_neg (mt List.reverse_eq_nil_iff.1 hblank), List.reverse_append,
      List.reverse_reverse]

theorem trimEnd_replicate_space (n : ℕ) : trimEnd (List.replicate n ' ') = [] := by
  have hblank : (List.replicate n ' ').dropWhile isBlank = [] := by
    refine List.dropWhile_eq_nil_iff.2 fun c hc => ?_
    rw [(List.mem_replicate.1 hc).2]
    rfl
  rw [trimEnd, List.reverse_replicate, hblank, List.reverse_nil]

/-! ## Lists that go on with the same entry -/

section

variable {β γ : Type} {fill : β} {a b : List β}

theorem eq_append_replicate (h : ∀ i : ℕ, a[i]?.getD fill = b[i]?.getD fill) (hle : a.length ≤ b.length) :
    b = a ++ List.replicate (b.length - a.length) fill := by
  refine List.ext_getElem ?_ fun i hi hi' => ?_
  · rw [List.length_append, List.length_replicate]
    omega
  · have hentry := h i
    rw [List.getElem?_eq_getElem hi, Option.getD_some] at hentry
    rw [← hentry, List.getElem_append]
    split
    next hlt => rw [List.getElem?_eq_getElem hlt, Option.getD_some]
    next hge => rw [List.getElem?_eq_none (Nat.le_of_not_lt hge), Option.getD_none, List.getElem_replicate]

/-- What does not see an entry at the end of a list does not tell lists apart that differ in their number
of such entries only. -/
theorem eq_of_getD_eq {f : List β → γ} (hf : ∀ a n, f (a ++ List.replicate n fill) = f a)
    (h : ∀ i : ℕ, a[i]?.getD fill = b[i]?.getD fill) : f a = f b := by
  obtain hle | hle := Nat.le_total a.length b.length
  · rw [eq_append_replicate h hle, hf]
  · rw [eq_append_replicate (fun i => (h i).symm) hle, hf]

end

namespace Canvas.Grid

variable {rows : List (List Char)} {row : List Char}

/-! ## Rows behind spaces -/

/-- A row behind further spaces, unless it is empty. -/
def indented (n : ℕ) (row : List Char) : List Char := if row = [] then [] else List.replicate n ' ' ++ row

theorem indented_eq_nil_iff {n : ℕ} : indented n row = [] ↔ row = [] := by
  unfold indented
  split
  next h => exact iff_of_true rfl h
  next h => exact iff_of_false (fun hnil => h (List.append_eq_nil_iff.1 hnil).2) h

theorem lead_replicate_append (n : ℕ) (row : List Char) :
    lead (List.replicate n ' ' ++ row) = n + lead row := by
  have hspaces : ∀ c ∈ List.replicate n ' ', decide (c = ' ') = true :=
    fun c hc => decide_eq_true (List.mem_replicate.1 hc).2
  rw [lead, List.takeWhile_append_of_pos hspaces, List.length_append, List.length_replicate, lead]

theorem lead_indented {n : ℕ} (hne : row ≠ []) : lead (indented n row) = n + lead row := by
  rw [indented, if_neg hne, lead_replicate_append]

theorem drop_indented (n k : ℕ) (row : List Char) : (indented n row).drop (n + k) = row.drop k := by
  unfold indented
  split
  next h => rw [h, List.drop_nil, List.drop_nil]
  next =>
    have hdrop : (List.replicate n ' ' ++ row).drop ((List.replicate n ' ').length + k) = row.drop k :=
      List.drop_length_add_append k
    rwa [List.length_replicate] at hdrop

theorem rowText_append_spaces (row : List Char) (n : ℕ) :
    rowText (row ++ List.replicate n ' ') = rowText row := by
  rw [rowText, List.filter_append, List.filter_replicate, if_pos (by decide), trimEnd_append_eq,
    if_pos (trimEnd_replicate_space n), rowText]

theorem rowText_spaces_append (n : ℕ) (row : List Char) :
    rowText (List.replicate n ' ' ++ row) = indented n (rowText row) := by
  rw [rowText, List.filter_append, List.filter_replicate, if_pos (by decide), trimEnd_append_eq,
    trimEnd_replicate_space, indented, rowText]

/-- The spaces that a row begins with can be taken off one by one. -/
theorem eq_spaces_append {n : ℕ} (hn : n ≤ lead row) : row = List.replicate n ' ' ++ row.drop n := by
  have hfront : row.takeWhile (· = ' ') = row.take (lead row) :=
    List.prefix_iff_eq_take.1 (List.takeWhile_prefix _)
  have hspaces : row.take n = List.replicate n ' ' := by
    refine List.eq_replicate_iff.2 ⟨?_, fun c hc => ?_⟩
    · have hlength := congrArg List.length hfront
      rw [List.length_take, ← lead] at hlength
      rw [List.length_take]
      omega
    · have htake : row.take n = (row.takeWhile (· = ' ')).take n := by
        rw [hfront, List.take_take, Nat.min_eq_left hn]
      rw [htake] at hc
      have hspace := List.mem_takeWhile_imp (List.mem_of_mem_take hc)
      exact of_decide_eq_true hspace
  rw [← hspaces, List.take_append_drop]

/-- A row that does not end in white space has something behind its spaces. -/
theorem lead_lt_length (h : Trimmed row) (hne : row ≠ []) : lead row < row.length := by
  have hle : lead row ≤ row.length := (List.takeWhile_prefix _).length_le
  refine Nat.lt_of_le_of_ne hle fun hall => ?_
  have hspaces := eq_spaces_append (Nat.le_of_eq hall.symm)
  rw [List.drop_length, List.append_nil] at hspaces
  have hlast : row.getLast? = some ' ' := by
    have hlength : row.length ≠ 0 := mt List.length_eq_zero_iff.1 hne
    rw [hspaces, List.getLast?_replicate, if_neg hlength]
  exact absurd (h ' ' hlast) (by decide)

/-! ## Empty rows around others -/

theorem trimRows_empty_append (n : ℕ) (rows : List (List Char)) :
    trimRows (List.replicate n [] ++ rows) = trimRows rows := by
  have hempty : ∀ row ∈ List.replicate n ([] : List Char), row.isEmpty = true :=
    fun row hrow => List.isEmpty_iff.2 (List.mem_replicate.1 hrow).2
  rw [trimRows, List.dropWhile_append_of_pos hempty, trimRows]

theorem trimRows_append_empty (rows : List (List Char)) (n : ℕ) :
    trimRows (rows ++ List.replicate n []) = trimRows rows := by
  have hempty : ∀ row ∈ List.replicate n ([] : List Char), row.isEmpty = true :=
    fun row hrow => List.isEmpty_iff.2 (List.mem_replicate.1 hrow).2
  rw [trimRows, trimRows, List.dropWhile_append]
  split
  next hnil =>
    rw [List.dropWhile_eq_nil_iff.2 hempty, List.isEmpty_iff.1 hnil]
  next =>
    rw [List.reverse_append, List.reverse_replicate, List.dropWhile_append_of_pos hempty]

theorem trimRows_map {f : List Char → List Char} (hf : ∀ row, f row = [] ↔ row = [])
    (rows : List (List Char)) : trimRows (rows.map f) = (trimRows rows).map f := by
  have hempty : List.isEmpty ∘ f = List.isEmpty := by
    funext row
    rw [Function.comp_apply, Bool.eq_iff_iff, List.isEmpty_iff, List.isEmpty_iff, hf]
  rw [trimRows, List.dropWhile_map, hempty, ← List.map_reverse, List.dropWhile_map, hempty,
    ← List.map_reverse, trimRows]

theorem head?_trimRows (rows : List (List Char)) : (trimRows rows).head? ≠ some [] := by
  intro hhead
  have hfront : trimRows rows <+: rows.dropWhile List.isEmpty := List.rdropWhile_prefix _ _
  obtain ⟨bottom, hrows⟩ := hfront
  have hfirst := List.head?_dropWhile_not List.isEmpty rows
  rw [← hrows, List.head?_append, hhead, Option.some_or] at hfirst
  exact absurd hfirst (by decide)

theorem getLast?_trimRows (rows : List (List Char)) : (trimRows rows).getLast? ≠ some [] := by
  intro hlast
  have hfirst := List.head?_dropWhile_not List.isEmpty (rows.dropWhile List.isEmpty).reverse
  rw [trimRows, List.getLast?_reverse] at hlast
  rw [hlast] at hfirst
  exact absurd hfirst (by decide)

/-! ## The common indent -/

/-- One of the rows begins with no more spaces than all of them. -/
theorem exists_lead_eq (h : ∃ row ∈ rows, row ≠ []) :
    ∃ row ∈ rows, row ≠ [] ∧ lead row = commonIndent rows := by
  obtain ⟨row, hrow, hne⟩ := h
  have hmem : lead row ∈ (rows.filter (!·.isEmpty)).map lead :=
    List.mem_map_of_mem (List.mem_filter.2 ⟨hrow, by simpa using hne⟩)
  obtain ⟨least, hleast⟩ := Option.isSome_iff_exists.1 (List.isSome_min?_of_mem hmem)
  have hindent : commonIndent rows = least := by
    have hmin : commonIndent rows = (((rows.filter (!·.isEmpty)).map lead).min?).getD 0 := rfl
    rw [hmin, hleast, Option.getD_some]
  obtain ⟨row', hrow', hlead⟩ := List.mem_map.1 (List.min?_mem hleast)
  obtain ⟨hrow', hne'⟩ := List.mem_filter.1 hrow'
  exact ⟨row', hrow', by simpa using hne', hlead.trans hindent.symm⟩

theorem commonIndent_map_indented (n : ℕ) (h : ∃ row ∈ rows, row ≠ []) :
    commonIndent (rows.map (indented n)) = n + commonIndent rows := by
  refine Nat.le_antisymm ?_ ?_
  · obtain ⟨row, hrow, hne, hlead⟩ := exists_lead_eq h
    have hle := commonIndent_le_lead (List.mem_map_of_mem (f := indented n) hrow)
      (mt indented_eq_nil_iff.1 hne)
    rwa [lead_indented hne, hlead] at hle
  · obtain ⟨row, hrow, hne⟩ := h
    have hfurther : ∃ row ∈ rows.map (indented n), row ≠ [] :=
      ⟨_, List.mem_map_of_mem hrow, mt indented_eq_nil_iff.1 hne⟩
    obtain ⟨row', hrow', hne', hlead⟩ := exists_lead_eq hfurther
    obtain ⟨old, hold, rfl⟩ := List.mem_map.1 hrow'
    have hneold := mt indented_eq_nil_iff.2 hne'
    rw [← hlead, lead_indented hneold]
    exact Nat.add_le_add_left (commonIndent_le_lead hold hneold) n

/-! ## Cropping -/

/-- The rows without the empty ones above and below, and without the spaces that they all begin with. -/
def crop (rows : List (List Char)) : List (List Char) :=
  (trimRows rows).map (List.drop (commonIndent (trimRows rows)))

theorem display_eq_crop (g : Grid) : g.display = joinWith ['\n'] (crop (g.symbols.map rowText)) := rfl

theorem crop_empty_append (n : ℕ) (rows : List (List Char)) :
    crop (List.replicate n [] ++ rows) = crop rows := by
  rw [crop, trimRows_empty_append, crop]

theorem crop_append_empty (rows : List (List Char)) (n : ℕ) :
    crop (rows ++ List.replicate n []) = crop rows := by
  rw [crop, trimRows_append_empty, crop]

theorem exists_ne_nil_trimRows (h : trimRows rows ≠ []) : ∃ row ∈ trimRows rows, row ≠ [] := by
  refine ⟨(trimRows rows).head h, List.head_mem h, fun hnil => ?_⟩
  exact head?_trimRows rows (by rw [List.head?_eq_some_head h, hnil])

theorem crop_map_indented (n : ℕ) (rows : List (List Char)) :
    crop (rows.map (indented n)) = crop rows := by
  rw [crop, trimRows_map fun row => indented_eq_nil_iff, crop]
  by_cases hnil : trimRows rows = []
  · rw [hnil]
    rfl
  · rw [commonIndent_map_indented n (exists_ne_nil_trimRows hnil), List.map_map]
    exact List.map_congr_left fun row _ => drop_indented n _ row

/-! ## What is left -/

/-- There is nothing to be taken away from the lines: no white space at the end of one, no empty line at
the top or at the bottom, and not a space in front of all of them. -/
structure Tight (lines : List (List Char)) : Prop where
  trimmed : ∀ line ∈ lines, Trimmed line
  top : lines.head? ≠ some []
  bottom : lines.getLast? ≠ some []
  flush : ∃ c rest, c :: rest ∈ lines ∧ c ≠ ' '

/-- The lines are the rows, all without the same number of spaces in front. -/
theorem forall₂_crop (rows : List (List Char)) :
    List.Forall₂ (fun row line => row = [] ∧ line = [] ∨
      row = List.replicate (commonIndent (trimRows rows)) ' ' ++ line) (trimRows rows) (crop rows) := by
  rw [crop, List.forall₂_map_right_iff, List.forall₂_same]
  intro row hrow
  by_cases hne : row = []
  · rw [hne, List.drop_nil]
    exact .inl ⟨rfl, rfl⟩
  · exact .inr (eq_spaces_append (commonIndent_le_lead hrow hne))

theorem tight_crop (h : ∀ row ∈ rows, Trimmed row) (hne : trimRows rows ≠ []) : Tight (crop rows) := by
  have htrimmed : ∀ row ∈ trimRows rows, Trimmed row := fun row hrow => h row (mem_trimRows hrow)
  have hinside : ∀ row ∈ trimRows rows, row ≠ [] → commonIndent (trimRows rows) < row.length :=
    fun row hrow hne =>
      Nat.lt_of_le_of_lt (commonIndent_le_lead hrow hne) (lead_lt_length (htrimmed row hrow) hne)
  -- so a line is empty only if its row is
  have hnil : ∀ row ∈ trimRows rows, row.drop (commonIndent (trimRows rows)) = [] → row = [] := by
    intro row hrow hdrop
    by_contra hrne
    exact Nat.not_le_of_lt (hinside row hrow hrne) (List.drop_eq_nil_iff.1 hdrop)
  refine ⟨fun line hline => ?_, fun hhead => ?_, fun hlast => ?_, ?_⟩
  · obtain ⟨row, hrow, rfl⟩ := List.mem_map.1 hline
    intro c hc
    rw [List.getLast?_drop] at hc
    split at hc
    · cases hc
    · exact htrimmed row hrow c hc
  · rw [crop, List.head?_map] at hhead
    obtain ⟨row, hrow, hdrop⟩ := Option.map_eq_some_iff.1 hhead
    rw [hnil row (List.mem_of_head? hrow) hdrop] at hrow
    exact head?_trimRows rows hrow
  · rw [crop, List.getLast?_map] at hlast
    obtain ⟨row, hrow, hdrop⟩ := Option.map_eq_some_iff.1 hlast
    rw [hnil row (List.mem_of_getLast? hrow) hdrop] at hrow
    exact getLast?_trimRows rows hrow
  · -- the row with the least spaces in front loses them all
    obtain ⟨row, hrow, hrne, hlead⟩ := exists_lead_eq (exists_ne_nil_trimRows hne)
    obtain ⟨c, rest, hline⟩ := List.exists_cons_of_ne_nil (mt (hnil row hrow) hrne)
    refine ⟨c, rest, hline ▸ List.mem_map_of_mem hrow, fun hspace => ?_⟩
    have hrest : lead (row.drop (commonIndent (trimRows rows))) = 0 := by
      have hsplit := congrArg lead (eq_spaces_append (Nat.le_of_eq hlead.symm))
      rw [lead_replicate_append] at hsplit
      omega
    have hfront : lead (' ' :: rest) = 1 + lead rest := lead_replicate_append 1 rest
    rw [hline, hspace] at hrest
    omega

end Canvas.Grid

end RegexDiagram
