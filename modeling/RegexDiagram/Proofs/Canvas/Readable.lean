import RegexDiagram.Proofs.Canvas.Shown
import RegexDiagram.Proofs.Text.Terminal

/-!
# Readable drawings

The drawing of a printable pattern in character cells, as lines of text. Coordinates are exact here, so
every text of the drawing has cells of its own (`Root.typeset`), and what is left out of the grid when it
is displayed moves all texts by the same number of lines and columns.
-/

namespace RegexDiagram

open Pattern

/-- A text, and the line and the column where it begins. -/
structure Inscription where
  text : List Char
  line : ℕ
  column : ℕ

namespace Inscription

/-- The text stands in the lines, where it is said to begin. -/
def In (lines : List (List Char)) (i : Inscription) : Prop :=
  ∃ front back, lines[i.line]? = some (front ++ i.text ++ back) ∧ front.length = i.column

/-- The texts have no character of any line in common. -/
def Apart (i j : Inscription) : Prop :=
  i.line ≠ j.line ∨ i.column + i.text.length ≤ j.column ∨ j.column + j.text.length ≤ i.column

/-- The text where it begins once rows above it and columns on its left are left out. -/
def crop (top indent : ℕ) (i : Inscription) : Inscription := ⟨i.text, i.line - top, i.column - indent⟩

/-- Texts stay apart if nothing of them is left out. -/
theorem Apart.crop {i j : Inscription} (h : i.Apart j) {top indent : ℕ}
    (hi : top ≤ i.line ∧ indent ≤ i.column) (hj : top ≤ j.line ∧ indent ≤ j.column) :
    (i.crop top indent).Apart (j.crop top indent) := by
  unfold Apart Inscription.crop at *
  simp only
  omega

end Inscription

/-- A text where it is painted. -/
def inscription? (s : Point ℚ × Shape ℚ) : Option Inscription :=
  match s.2 with
  | .text origin _ words _ =>
    some ⟨words, Scalar.cell (s.1.y + origin.y), Scalar.cell (s.1.x + origin.x)⟩
  | _ => none

theorem inscription?_eq_some {s : Point ℚ × Shape ℚ} {i : Inscription} (h : inscription? s = some i) :
    ∃ corner origin extent className, s = (corner, .text origin extent i.text className) ∧
      i.line = Scalar.cell (corner.y + origin.y) ∧ i.column = Scalar.cell (corner.x + origin.x) := by
  obtain ⟨corner, s⟩ := s
  cases s with
  | text origin extent words className =>
    obtain rfl := Option.some.inj h
    exact ⟨corner, origin, extent, className, rfl, rfl, rfl⟩
  | _ => exact nomatch h

namespace Fragment

/-- The texts of a fragment whose corner lies at the origin, where they are painted. -/
def inscriptions (f : Fragment ℚ) : List Inscription := (f.shapesAt .origin).filterMap inscription?

theorem map_inscriptions (f : Fragment ℚ) : f.inscriptions.map (·.text) = f.texts := by
  rw [inscriptions, List.map_filterMap, texts_eq_shapesAt (.origin : Point ℚ)]
  refine List.filterMap_congr fun s _ => ?_
  obtain ⟨corner, s⟩ := s
  cases s <;> rfl

/-- Texts of typeset shapes are painted apart. -/
theorem inscriptions_apart {f : Fragment ℚ} (h : Typeset (f.shapesAt .origin)) :
    f.inscriptions.Pairwise Inscription.Apart := by
  refine List.pairwise_filterMap.2 (h.apart.imp_of_mem fun {s t} hs ht hapart i hi j hj => ?_)
  obtain ⟨corner, origin, extent, className, rfl, hline, hcolumn⟩ := inscription?_eq_some hi
  obtain ⟨corner', origin', extent', className', rfl, hline', hcolumn'⟩ := inscription?_eq_some hj
  have hstrips := Rect.strip_apart (h.cellular _ hs _ (.head _)) (h.cellular _ ht _ (.head _))
    (hapart _ (.head _) _ (.head _))
  obtain ⟨-, rfl⟩ := h.monospaced _ hs
  obtain ⟨-, rfl⟩ := h.monospaced _ ht
  rw [Inscription.Apart, hline, hline', hcolumn, hcolumn']
  simp only [Strip.Apart, Rect.strip, Rect.moved, cell_natCast] at hstrips
  exact hstrips

end Fragment

/-- **Every label of a text drawing is readable.** If a pattern is made of printable characters, all texts
of its drawing in cells can be measured, and each of them stands, character by character, in one line of
what is displayed; no two of them have a character in common. -/
theorem read_texts_readable [TerminalWidths] [PlainWidths] {input : List Char} (h : AllPrintable input)
    (set : CharacterSet) :
    let d : Drawing ℚ := (read input).root.drawing set.spacing .cells
    (∀ t ∈ d.fragment.texts, (Measure.cells : Measure ℚ) t = .ok ⟨t.length, 1, 0⟩) ∧
      ∃ found : List Inscription, found.map (·.text) = d.fragment.texts ∧
        (∀ i ∈ found, i.In (splitLines (Canvas.paint set d).display)) ∧
        found.Pairwise Inscription.Apart := by
  intro d
  have hletters := read_letters h
  have hflags := read_flags input
  have hsound : (Canvas.paint set d).Sound := Root.sound_paint set hletters hflags
  have hshown (i : Inscription) (hi : i ∈ d.fragment.inscriptions) :
      (Canvas.paint set d).Shows i.text i.column i.line := by
    obtain ⟨s, hs, hi⟩ := List.mem_filterMap.1 hi
    obtain ⟨corner, origin, extent, className, rfl, hline, hcolumn⟩ := inscription?_eq_some hi
    rw [hline, hcolumn]
    exact Root.paint_shows set hletters hflags hs
  have hkept (i : Inscription) (hi : i ∈ d.fragment.inscriptions) := hsound.display_shows (hshown i hi)
  refine ⟨fun t ht => cells_plain (Root.texts_plain _ _ hletters hflags t ht),
    d.fragment.inscriptions.map
      (Inscription.crop (Canvas.paint set d).top (Canvas.paint set d).indent), ?_, ?_, ?_⟩
  · rw [List.map_map, ← Fragment.map_inscriptions]
    rfl
  · exact List.forall_mem_map.2 fun i hi => (hkept i hi).2.2
  · refine List.pairwise_map.2 ((Fragment.inscriptions_apart (Root.typeset set hletters hflags)).imp_of_mem
      fun {i j} hi hj hapart => ?_)
    exact hapart.crop ⟨(hkept i hi).1, (hkept i hi).2.1⟩ ⟨(hkept j hj).1, (hkept j hj).2.1⟩

/-- A repeated literal with a flag: its label, its captions, and the lines that show them. -/
theorem read_texts_readable_flagged :
    AllPrintable "/a\x7b2,\x7d/i".toList ∧ ∃ found : List Inscription,
      found.map (·.text) = ["Flags: ignore case".toList, "1+ times".toList, "\"a\"".toList] ∧
        (∀ i ∈ found, i.In
          ["Flags: ignore case".toList,
           "    +-----+".toList,
           "o--++ \"a\" ++--o".toList,
           "   |+-----+|".toList,
           "   +---<---+".toList,
           "   1+ times".toList]) ∧
        found.Pairwise Inscription.Apart := by
  have hprintable : AllPrintable "/a\x7b2,\x7d/i".toList := allPrintable_of_all (by decide)
  obtain ⟨-, found, htexts, hlines, hapart⟩ := read_texts_readable hprintable .ascii
  have hlabels : ((read "/a\x7b2,\x7d/i".toList).root.drawing (CharacterSet.ascii.spacing : Spacing ℚ)
      .cells).fragment.texts =
        ["Flags: ignore case".toList, "1+ times".toList, "\"a\"".toList] := by decide +kernel
  have hdisplay : splitLines (Canvas.paint .ascii ((read "/a\x7b2,\x7d/i".toList).root.drawing
      (CharacterSet.ascii.spacing : Spacing ℚ) .cells)).display =
        ["Flags: ignore case".toList,
         "    +-----+".toList,
         "o--++ \"a\" ++--o".toList,
         "   |+-----+|".toList,
         "   +---<---+".toList,
         "   1+ times".toList] := by decide +kernel
  rw [hlabels] at htexts
  rw [hdisplay] at hlines
  exact ⟨hprintable, found, htexts, hlines, hapart⟩

end RegexDiagram
