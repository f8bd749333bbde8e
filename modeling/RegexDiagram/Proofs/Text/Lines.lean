import RegexDiagram.Text.Lines

/-!
# Texts as lines

A text is its ended lines, each with its line feed, and what stands behind the last line feed. A proof about the
lines of a text goes from the front, one ended line at a time (`lineInduction`).

What a terminal shows as lines are these, without the carriage returns in front of line feeds and without a last
line that is empty (`exists_displayLines`).
-/

namespace RegexDiagram

/-! ## Pieces between line feeds -/

theorem foldr_consPiece {s : List Char} (h : '\n' ∉ s) (piece : List Char) (more : List (List Char)) :
    s.foldr consPiece (piece :: more) = (s ++ piece) :: more := by
  induction s with
  | nil => rfl
  | cons c rest ih =>
    obtain ⟨hc, hrest⟩ := not_or.1 (mt List.mem_cons.2 h)
    rw [List.foldr_cons, ih hrest, consPiece, if_neg (Ne.symm hc), List.cons_append]

theorem splitLines_of_notMem {s : List Char} (h : '\n' ∉ s) : splitLines s = [s] := by
  rw [splitLines, foldr_consPiece h, List.append_nil]

theorem splitLines_append {s : List Char} (h : '\n' ∉ s) (t : List Char) :
    splitLines (s ++ '\n' :: t) = s :: splitLines t := by
  have hfeed : consPiece '\n' (splitLines t) = [] :: splitLines t := if_pos rfl
  rw [splitLines, List.foldr_append, List.foldr_cons, ← splitLines, hfeed, foldr_consPiece h,
    List.append_nil]

/-- Lines that are joined can be told apart again. -/
theorem splitLines_joinWith {lines : List (List Char)} (hne : lines ≠ [])
    (h : ∀ line ∈ lines, '\n' ∉ line) : splitLines (joinWith ['\n'] lines) = lines := by
  induction lines with
  | nil => exact absurd rfl hne
  | cons first rest ih =>
    obtain ⟨hfirst, hrest⟩ := List.forall_mem_cons.1 h
    cases rest with
    | nil => exact splitLines_of_notMem hfirst
    | cons second more =>
      rw [joinWith, List.append_assoc, List.singleton_append, splitLines_append hfirst,
        ih (List.cons_ne_nil _ _) hrest]

/-! ## Induction along the lines -/

/-- What holds of a text without a line feed, and of a text with one more ended line in front, holds of every
text. -/
theorem lineInduction {P : List Char → Prop} (last : ∀ s, '\n' ∉ s → P s)
    (ended : ∀ line s, '\n' ∉ line → P s → P (line ++ '\n' :: s)) (s : List Char) : P s := by
  by_cases hfeed : '\n' ∈ s
  · obtain ⟨line, rest, rfl, hline⟩ := List.eq_append_cons_of_mem hfeed
    exact ended line rest hline (lineInduction last ended rest)
  · exact last s hfeed
termination_by s.length
decreasing_by
  subst_vars
  simp only [List.length_append, List.length_cons]
  omega

/-- Lines, each with a line feed behind it. -/
def endLines (lines : List (List Char)) : List Char := lines.flatMap (· ++ ['\n'])

theorem endLines_cons (line : List Char) (lines : List (List Char)) :
    endLines (line :: lines) = line ++ '\n' :: endLines lines := by
  rw [endLines, List.flatMap_cons, List.append_assoc]
  rfl

/-- No piece between line feeds has one. -/
theorem feed_notMem_splitLines (s : List Char) : ∀ piece ∈ splitLines s, '\n' ∉ piece := by
  induction s using lineInduction with
  | last s hs =>
    rw [splitLines_of_notMem hs]
    exact List.forall_mem_singleton.2 hs
  | ended line s hline ih =>
    rw [splitLines_append hline]
    exact List.forall_mem_cons.2 ⟨hline, ih⟩

/-- Ended lines can be told apart again just if none of them has a line feed of its own. -/
theorem splitLines_endLines_iff (lines : List (List Char)) :
    splitLines (endLines lines) = lines ++ [[]] ↔ ∀ line ∈ lines, '\n' ∉ line := by
  refine ⟨fun h line hline => ?_, fun h => ?_⟩
  · exact feed_notMem_splitLines (endLines lines) line (h ▸ List.mem_append_left _ hline)
  · induction lines with
    | nil => rfl
    | cons line rest ih =>
      obtain ⟨hline, hrest⟩ := List.forall_mem_cons.1 h
      rw [endLines_cons, splitLines_append hline, ih hrest, List.cons_append]

/-! ## Lines of a terminal -/

theorem splitLines_ne_nil (s : List Char) : splitLines s ≠ [] := by
  induction s using lineInduction with
  | last s h =>
    rw [splitLines_of_notMem h]
    exact List.cons_ne_nil _ _
  | ended line s h ih =>
    rw [splitLines_append h]
    exact List.cons_ne_nil _ _

theorem displayLines_of_notMem {s : List Char} (h : '\n' ∉ s) :
    displayLines s = if s = [] then [] else [s] := by
  rw [displayLines, splitLines_of_notMem h]
  rfl

theorem displayLines_append {line : List Char} (h : '\n' ∉ line) (s : List Char) :
    displayLines (line ++ '\n' :: s) = dropReturn line :: displayLines s := by
  obtain ⟨first, rest, hpieces⟩ := List.exists_cons_of_ne_nil (splitLines_ne_nil s)
  rw [displayLines, displayLines, splitLines_append h, hpieces, List.getLast?_cons_cons,
    List.dropLast_cons_cons, List.map_cons]
  cases hlast : (first :: rest).getLast? with
  | none => exact absurd (List.getLast?_eq_none_iff.1 hlast) (List.cons_ne_nil _ _)
  | some last => rfl

/-- Where no carriage return stands in front of a line feed, a terminal shows the ended lines of a text and what
stands behind them. -/
theorem exists_displayLines {s : List Char} (h : ¬ ['\r', '\n'] <:+: s) :
    ∃ lines last, s = endLines lines ++ last ∧ '\n' ∉ last ∧
      displayLines s = lines ++ (if last = [] then [] else [last]) := by
  induction s using lineInduction with
  | last s hs => exact ⟨[], s, rfl, hs, displayLines_of_notMem hs⟩
  | ended line s hline ih =>
    obtain ⟨lines, last, rfl, hlast, hshown⟩ :=
      ih fun hpart => h (hpart.trans ⟨line ++ ['\n'], [], by simp⟩)
    refine ⟨line :: lines, last, ?_, hlast, ?_⟩
    · rw [endLines_cons, List.append_assoc, List.cons_append]
    · have hreturn : dropReturn line = line := if_neg fun hend => by
        obtain ⟨front, rfl⟩ := List.getLast?_eq_some_iff.1 hend
        exact h ⟨front, endLines lines ++ last, by simp⟩
      rw [displayLines_append hline, hreturn, hshown, List.cons_append]

end RegexDiagram
