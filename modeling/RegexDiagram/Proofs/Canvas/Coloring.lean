import RegexDiagram.Canvas.Color
import RegexDiagram.Proofs.Canvas.Alphabet
import RegexDiagram.Proofs.Pattern.Controls
import RegexDiagram.Proofs.Text.Lines

/-!
# Colours and nothing else

A terminal takes the characters from an escape character to the next `m` for a command and shows the others.
`uncolored` is what it shows. Coloring puts commands around single characters, so a text that has no commands of
its own is shown as it was (`uncolored_colorize`), an `m` that gets a colour included. Of what stands between the
lines, only the carriage returns in front of line feeds would be lost.

No drawing in cells has such characters, for a control character fills no column.
-/

namespace RegexDiagram.Canvas

open Pattern

/-! ## Texts without commands -/

/-- The characters of a text outside its commands. The flag tells whether the text begins inside of one. -/
def outsideCommands (inside : Bool) : List Char → List Char
  | [] => []
  | c :: rest =>
    if inside then outsideCommands (c ≠ 'm') rest
    else if c = '\x1b' then outsideCommands true rest
    else c :: outsideCommands false rest

/-- A text without its commands. -/
def uncolored (s : List Char) : List Char := outsideCommands false s

theorem uncolored_cons {c : Char} (hc : c ≠ '\x1b') (s : List Char) :
    uncolored (c :: s) = c :: uncolored s := by
  rw [uncolored, outsideCommands, if_neg Bool.false_ne_true, if_neg hc]
  rfl

/-- A command ends with its first `m`. -/
theorem uncolored_command {body : List Char} (hbody : 'm' ∉ body) (s : List Char) :
    uncolored ('\x1b' :: (body ++ 'm' :: s)) = uncolored s := by
  have hinside : outsideCommands true (body ++ 'm' :: s) = outsideCommands false s := by
    induction body with
    | nil => rfl
    | cons c rest ih =>
      obtain ⟨hc, hrest⟩ := not_or.1 (mt List.mem_cons.2 hbody)
      rw [List.cons_append, outsideCommands, if_pos rfl, decide_eq_true (Ne.symm hc), ih hrest]
  exact hinside

/-! ## Texts with colours -/

/-- The first text is shown as the second one, with anything behind it. -/
def ShownAs (colors text : List Char) : Prop := ∀ s, uncolored (colors ++ s) = text ++ uncolored s

namespace ShownAs

variable {colors text : List Char}

theorem nil : ShownAs [] [] := fun _ => rfl

theorem append {more shown : List Char} (h : ShownAs colors text) (h' : ShownAs more shown) :
    ShownAs (colors ++ more) (text ++ shown) := fun s => by
  rw [List.append_assoc, h, h', List.append_assoc]

theorem singleton {c : Char} (hc : c ≠ '\x1b') : ShownAs [c] [c] := uncolored_cons hc

/-- A text that ends outside of commands. -/
theorem uncolored_eq (h : ShownAs colors text) : uncolored colors = text := by
  have hend := h []
  rwa [List.append_nil, show uncolored [] = [] from rfl, List.append_nil] at hend

end ShownAs

/-- The command that chooses a colour. -/
theorem Color.shownAs_start (color : Color) : ShownAs color.start [] := fun s => by
  have hcommand : color.start ++ s = '\x1b' :: (("[38;5;".toList ++ decimal color.code) ++ 'm' :: s) := by
    rw [Color.start, List.append_assoc _ ['m'] s]
    rfl
  rw [hcommand]
  exact uncolored_command (by cases color <;> decide) s

theorem Color.shownAs_reset : ShownAs Color.reset [] := fun s =>
  have hbody : 'm' ∉ "[39".toList := by decide
  uncolored_command hbody s

/-- A character is shown in its colour, also if it could end a command. -/
theorem shownAs_colored {c : Char} (hc : c ≠ '\x1b') (color : Option Color) : ShownAs (colored color c) [c] := by
  cases color with
  | none => exact .singleton hc
  | some color => exact (color.shownAs_start.append (.singleton hc)).append Color.shownAs_reset

/-- A line is shown with its colours, wherever quotes begin and end. -/
theorem shownAs_colorLine (set : CharacterSet) {line : List Char} (hline : '\x1b' ∉ line) (quoted : Bool)
    (before : Option Char) : ShownAs (colorLine set quoted before line) line := by
  induction line generalizing quoted before with
  | nil => exact .nil
  | cons c rest ih =>
    obtain ⟨hc, hrest⟩ := not_or.1 (mt List.mem_cons.2 hline)
    rw [colorLine]
    split_ifs
    · exact (shownAs_colored (Ne.symm hc) _).append (ih hrest _ _)
    · exact (shownAs_colored (Ne.symm hc) _).append (ih hrest _ _)
    · exact (shownAs_colored (Ne.symm hc) _).append (ih hrest _ _)

theorem shownAs_endLines (set : CharacterSet) {lines : List (List Char)} (h : ∀ line ∈ lines, '\x1b' ∉ line) :
    ShownAs (endLines (lines.map (colorLine set false none))) (endLines lines) := by
  induction lines with
  | nil => exact .nil
  | cons line rest ih =>
    obtain ⟨hline, hrest⟩ := List.forall_mem_cons.1 h
    rw [List.map_cons, endLines_cons, endLines_cons]
    exact (shownAs_colorLine set hline false none).append ((ShownAs.singleton (by decide)).append (ih hrest))

/-! ## Line feeds at the end -/

theorem getLast?_endLines {lines : List (List Char)} (h : lines ≠ []) : (endLines lines).getLast? = some '\n' := by
  obtain ⟨front, line, rfl⟩ : ∃ front line, lines = front ++ [line] :=
    ⟨_, _, (List.dropLast_append_getLast h).symm⟩
  rw [endLines, List.flatMap_append, List.flatMap_singleton, ← List.append_assoc, List.getLast?_concat]

/-- Ended lines are colored each by itself. -/
theorem colorize_endLines (set : CharacterSet) {s : List Char} {lines : List (List Char)}
    (hlines : displayLines s = lines) (hs : s = endLines lines) :
    colorize set s = endLines (lines.map (colorLine set false none)) := by
  have hend : ¬ (s.getLast? ≠ some '\n' ∧
      (endLines (lines.map (colorLine set false none))).getLast? = some '\n') := by
    rintro ⟨hlast, hcolors⟩
    cases lines with
    | nil => exact absurd hcolors nofun
    | cons line rest => exact hlast (hs ▸ getLast?_endLines (List.cons_ne_nil _ _))
  rw [colorize, hlines]
  exact if_neg hend

/-- The line feed behind a last line that is not ended is taken away again. -/
theorem colorize_last (set : CharacterSet) {s : List Char} {lines : List (List Char)} {last : List Char}
    (hlines : displayLines s = lines ++ [last]) (hs : s.getLast? ≠ some '\n') :
    colorize set s =
      endLines (lines.map (colorLine set false none)) ++ colorLine set false none last := by
  have hresult : endLines ((lines ++ [last]).map (colorLine set false none)) =
      (endLines (lines.map (colorLine set false none)) ++ colorLine set false none last) ++ ['\n'] := by
    rw [endLines, List.map_append, List.flatMap_append, List.map_singleton, List.flatMap_singleton,
      List.append_assoc]
    rfl
  have hend : s.getLast? ≠ some '\n' ∧
      (endLines ((lines ++ [last]).map (colorLine set false none))).getLast? = some '\n' :=
    ⟨hs, by rw [hresult, List.getLast?_concat]⟩
  rw [colorize, hlines]
  exact (if_pos hend).trans ((congrArg List.dropLast hresult).trans List.dropLast_concat)

/-! ## Drawings -/

theorem calm_ite {p : Prop} [Decidable p] {c d : Char} (hc : Calm c) (hd : Calm d) :
    Calm (if p then c else d) := by
  split
  · exact hc
  · exact hd

/-- The marks of both character sets show. -/
theorem hasMarks_calm (set : CharacterSet) : HasMarks set fun c => c = continuation ∨ Calm c where
  blank := .inr rfl
  continuation := .inl rfl
  glyph sides stroke := by
    refine .inr ?_
    cases set with
    | ascii =>
      rw [glyph, asciiGlyph]
      repeat' apply calm_ite
      all_goals rfl
    | unicode =>
      rw [glyph, boxGlyph]
      repeat' apply calm_ite
      all_goals rfl
  arrow direction := .inr (by cases set <;> cases direction <;> rfl)
  terminal := .inr (by cases set <;> rfl)

/-- No control character of a pattern gets into its drawing in cells. -/
theorem textDiagram_calm [TerminalWidths] [ControlWidths] (input : List Char) (set : CharacterSet) :
    ∀ c ∈ textDiagram input set, c = '\n' ∨ Calm c := by
  have hsymbols := symbolsIn_paint (hasMarks_calm set)
    ((read input).root.drawing (set.spacing : Spacing Float) .cells)
    fun _ _ c _ hcolumns => .inr (isControl_of_charColumns hcolumns)
  intro c hc
  exact (hsymbols.display c hc).imp_right fun h => h.1.resolve_left h.2

/-- **Coloring adds colours and nothing else.** A text without escape characters in which no carriage return
stands in front of a line feed is what is left of its colored form without the commands. So is every drawing of
a pattern in cells, if control characters have no width: it has no escape characters and no carriage returns,
whatever the pattern has. -/
theorem uncolored_colorize [TerminalWidths] [ControlWidths] (set : CharacterSet) :
    (∀ s : List Char, '\x1b' ∉ s → ¬ ['\r', '\n'] <:+: s → uncolored (colorize set s) = s) ∧
    ∀ (input : List Char) (drawn : CharacterSet),
      '\x1b' ∉ textDiagram input drawn ∧ ¬ ['\r', '\n'] <:+: textDiagram input drawn ∧
        uncolored (colorize set (textDiagram input drawn)) = textDiagram input drawn := by
  have htext (s : List Char) (hescape : '\x1b' ∉ s) (hreturn : ¬ ['\r', '\n'] <:+: s) :
      uncolored (colorize set s) = s := by
    obtain ⟨lines, last, hs, hfeed, hlines⟩ := exists_displayLines hreturn
    have hended : ∀ line ∈ lines, '\x1b' ∉ line := fun line hline hmem => hescape <| by
      rw [hs]
      exact List.mem_append_left _ (List.mem_flatMap.2 ⟨line, hline, List.mem_append_left _ hmem⟩)
    have hopen : '\x1b' ∉ last := fun hmem => hescape (hs ▸ List.mem_append_right _ hmem)
    by_cases hlast : last = []
    · rw [if_pos hlast, List.append_nil] at hlines
      rw [hlast, List.append_nil] at hs
      rw [colorize_endLines set hlines hs, (shownAs_endLines set hended).uncolored_eq, ← hs]
    · rw [if_neg hlast] at hlines
      have hend : s.getLast? ≠ some '\n' := fun hend => hfeed <| by
        rw [hs, List.getLast?_append_of_ne_nil _ hlast] at hend
        exact List.mem_of_getLast? hend
      rw [colorize_last set hlines hend,
        ((shownAs_endLines set hended).append (shownAs_colorLine set hopen false none)).uncolored_eq, ← hs]
  refine ⟨htext, fun input drawn => ?_⟩
  have hshown := textDiagram_calm input drawn
  have hescape : '\x1b' ∉ textDiagram input drawn := fun hmem =>
    absurd (hshown _ hmem) (by decide)
  have hreturn : ¬ ['\r', '\n'] <:+: textDiagram input drawn := fun hpart =>
    absurd (hshown '\r' (hpart.subset (.head _))) (by decide)
  exact ⟨hescape, hreturn, htext _ hescape hreturn⟩

/-- An `m` between quotes that are not closed, a track, an empty line, and a carriage return with no line feed
behind it; and a pattern that is an escape character. -/
theorem uncolored_colorize_quoted :
    '\x1b' ∉ "“m─\r\r”\n\n─●\n".toList ∧ ¬ ['\r', '\n'] <:+: "“m─\r\r”\n\n─●\n".toList ∧
      colored (some .magenta) 'm' <:+: colorize .unicode "“m─\r\r”\n\n─●\n".toList ∧
      uncolored (colorize .unicode "“m─\r\r”\n\n─●\n".toList) = "“m─\r\r”\n\n─●\n".toList ∧
      uncolored (colorize .unicode (textDiagram ['\x1b'] .unicode)) = textDiagram ['\x1b'] .unicode := by
  have hescape : '\x1b' ∉ "“m─\r\r”\n\n─●\n".toList := by decide
  have hreturn : ¬ ['\r', '\n'] <:+: "“m─\r\r”\n\n─●\n".toList := by decide +kernel
  obtain ⟨htexts, hdiagrams⟩ := uncolored_colorize .unicode
  exact ⟨hescape, hreturn, by decide +kernel, htexts _ hescape hreturn, (hdiagrams ['\x1b'] .unicode).2.2⟩

end RegexDiagram.Canvas
