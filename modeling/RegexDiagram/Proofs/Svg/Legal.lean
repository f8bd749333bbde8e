import RegexDiagram.Proofs.Drawing.ClassNames
import RegexDiagram.Proofs.Drawing.Legible
import RegexDiagram.Proofs.Pattern.Foreign
import RegexDiagram.Proofs.Svg.Escaping
import RegexDiagram.Text.Terminal

/-!
# Characters that a document can hold

A document of XML 1.0 has no control characters but tab, line feed and carriage return, and neither of the
two noncharacters U+FFFE and U+FFFF. Escaping replaces the control characters and lets the noncharacters
through, so a document is made of legal characters just if no string in it has one of these
(`Surface.legal_document`). The class names and stylesheets of diagrams have none, and their texts have those
of the pattern: the document of a pattern is legal just if the pattern has none (`legal_svgDocument`).
-/

namespace RegexDiagram

open Pattern

namespace Svg

/-! ## Characters -/

/-- A character of a document of XML 1.0. -/
def XmlChar (c : Char) : Prop :=
  c.toNat = 0x9 ∨ c.toNat = 0xA ∨ c.toNat = 0xD ∨ (0x20 ≤ c.toNat ∧ c.toNat ≤ 0xD7FF) ∨
    (0xE000 ≤ c.toNat ∧ c.toNat ≤ 0xFFFD) ∨ (0x10000 ≤ c.toNat ∧ c.toNat ≤ 0x10FFFF)

instance (c : Char) : Decidable (XmlChar c) := by unfold XmlChar; infer_instance

/-- The characters that are no control characters and that no document can hold. -/
def noncharacters : List Char := ['\uFFFE', '\uFFFF']

/-- The text is made of characters that a document can hold. -/
def Legal (s : List Char) : Prop := ∀ c ∈ s, XmlChar c

/-- The text has no noncharacters. -/
def Clean (s : List Char) : Prop := ∀ c ∈ s, c ∉ noncharacters

instance (s : List Char) : Decidable (Clean s) := List.decidableBAll (· ∉ noncharacters) s

theorem legal_of_all {s : List Char} (h : s.all (fun c => XmlChar c) = true) : Legal s :=
  fun c hc => of_decide_eq_true (List.all_eq_true.1 h c hc)

theorem forall_noncharacters {P : Char → Prop} (h : P '\uFFFE' ∧ P '\uFFFF') : ∀ c ∈ noncharacters, P c :=
  List.forall_mem_cons.2 ⟨h.1, List.forall_mem_singleton.2 h.2⟩

theorem Clean.append {s t : List Char} (hs : Clean s) (ht : Clean t) : Clean (s ++ t) :=
  List.forall_mem_append.2 ⟨hs, ht⟩

theorem legal_append {s t : List Char} : Legal (s ++ t) ↔ Legal s ∧ Legal t := List.forall_mem_append

theorem legal_append_left {s t : List Char} (ht : Legal t) : Legal (s ++ t) ↔ Legal s :=
  legal_append.trans (and_iff_left ht)

theorem legal_append_right {s t : List Char} (hs : Legal s) : Legal (s ++ t) ↔ Legal t :=
  legal_append.trans (and_iff_right hs)

theorem legal_nil : Legal [] := fun _ hc => absurd hc List.not_mem_nil

theorem xmlChar_of_printable {c : Char} (h : Printable c) : XmlChar c := by
  obtain ⟨hlow, hhigh⟩ := h
  unfold XmlChar
  omega

theorem mem_noncharacters {c : Char} : c ∈ noncharacters ↔ c.toNat = 0xFFFE ∨ c.toNat = 0xFFFF := by
  have hvalues : '\uFFFE'.toNat = 0xFFFE ∧ '\uFFFF'.toNat = 0xFFFF := ⟨rfl, rfl⟩
  rw [noncharacters, List.mem_pair, ← Char.toNat_inj, ← Char.toNat_inj, hvalues.1, hvalues.2]

/-- Of the characters that are not replaced, only noncharacters are not legal. -/
theorem xmlChar_iff {c : Char} (h : ¬ (isControl c && c != '\t' && c != '\n' && c != '\r') = true) :
    XmlChar c ↔ c ∉ noncharacters := by
  have hvalid : c.toNat < 0xD800 ∨ 0xDFFF < c.toNat ∧ c.toNat < 0x110000 := c.valid
  have hvalues : '\t'.toNat = 0x9 ∧ '\n'.toNat = 0xA ∧ '\r'.toNat = 0xD := ⟨rfl, rfl, rfl⟩
  simp only [isControl, Bool.and_eq_true, Bool.or_eq_true, decide_eq_true_eq, bne_iff_ne, ne_eq,
    ← Char.toNat_inj, hvalues] at h
  rw [mem_noncharacters, XmlChar]
  omega

/-- A character is written in legal ones, unless it is a noncharacter. -/
theorem legal_escapeChar (c : Char) : Legal (escapeChar c) ↔ c ∉ noncharacters := by
  have hentity {d : Char} {entity : List Char} (h : entity.all (fun c => XmlChar c) = true)
      (hd : d.toNat < 0xFFFE) : Legal entity ↔ d ∉ noncharacters :=
    iff_of_true (legal_of_all h) (mem_noncharacters.not.2 (by omega))
  unfold escapeChar
  split_ifs with hamp hlt hgt hquote hapos hcontrol
  · exact hentity (by decide) (hamp ▸ by decide)
  · exact hentity (by decide) (hlt ▸ by decide)
  · exact hentity (by decide) (hgt ▸ by decide)
  · exact hentity (by decide) (hquote ▸ by decide)
  · exact hentity (by decide) (hapos ▸ by decide)
  · refine hentity (by decide) ?_
    simp only [isControl, Bool.and_eq_true, Bool.or_eq_true, decide_eq_true_eq] at hcontrol
    omega
  · rw [Legal, List.forall_mem_singleton]
    exact xmlChar_iff hcontrol

theorem legal_escape (s : List Char) : Legal (escape s) ↔ Clean s := by
  rw [Legal, escape, List.forall_mem_flatMap]
  exact forall₂_congr fun c _ => legal_escapeChar c

/-! ## Writing -/

/-- Figures are legal. -/
theorem legal_figures {s : List Char} (h : ∀ c ∈ s, Figure c) : Legal s :=
  fun c hc => xmlChar_of_printable (h c hc).1

/-- The value of an attribute and what is written around it. -/
theorem legal_attribute {name : String} (hname : name.toList.all (fun c => XmlChar c) = true)
    (value : List Char) : Legal ([' '] ++ name.toList ++ ['=', '"'] ++ value ++ ['"']) ↔ Legal value := by
  have hspace : Legal [' '] := legal_of_all (by decide)
  have hopen : Legal ['=', '"'] := legal_of_all (by decide)
  have hclose : Legal ['"'] := legal_of_all (by decide)
  have hfront := legal_append.2 ⟨legal_append.2 ⟨hspace, legal_of_all hname⟩, hopen⟩
  rw [legal_append_left hclose, legal_append_right hfront]

theorem legal_textAttribute {name : String} (hname : name.toList.all (fun c => XmlChar c) = true)
    (value : List Char) : Legal (textAttribute name value) ↔ Clean value :=
  (legal_attribute hname _).trans (legal_escape value)

theorem legal_numberAttribute {name : String} (hname : name.toList.all (fun c => XmlChar c) = true)
    (value : Float) : Legal (numberAttribute name value) :=
  (legal_attribute hname _).2 (legal_figures (coordinateText_figures value))

namespace Element

mutual

/-- The strings of an element: its class names and its texts. -/
def strings {α : Type} : Element α → List (List Char)
  | .group className _ children => (className.map String.toList).toList ++ stringsIn children
  | .rect _ _ className | .path _ className | .circle _ _ className => [className.toList]
  | .text _ content className => [className.toList, content]

def stringsIn {α : Type} : List (Element α) → List (List Char)
  | [] => []
  | element :: rest => element.strings ++ stringsIn rest

end

theorem legal_tag (depth : Nat) {name : String} (hname : name.toList.all (fun c => XmlChar c) = true) :
    Legal (tag depth name) := by
  have hindentation : Legal (indentation depth) := fun c hc => by
    rw [List.eq_of_mem_replicate hc]
    decide
  exact legal_append.2 ⟨legal_append.2 ⟨hindentation, legal_of_all (by decide)⟩, legal_of_all hname⟩

theorem legal_groupAttributes (className : Option String) (translate : Option (Point Float)) :
    Legal (groupAttributes className translate) ↔ ∀ s ∈ (className.map String.toList).toList, Clean s := by
  have hmove : Legal ((translate.map moveAttribute).getD []) := by
    cases translate with
    | none => exact legal_nil
    | some p =>
      exact legal_append.2 ⟨legal_append.2 ⟨legal_of_all (by decide), legal_figures (pointData_figures p)⟩,
        legal_of_all (by decide)⟩
  rw [groupAttributes, legal_append_left hmove]
  cases className with
  | none => exact iff_of_true legal_nil fun s hs => absurd hs List.not_mem_nil
  | some name => exact (legal_textAttribute (by decide) _).trans List.forall_mem_singleton.symm

theorem legal_rectAttributes (area : Rect Float) (radius : Float) (className : String) :
    Legal (rectAttributes area radius className) ↔ Clean className.toList := by
  have hradius : Legal (if 0 < radius then numberAttribute "rx" radius else []) := by
    split
    · exact legal_numberAttribute (by decide) radius
    · exact legal_nil
  rw [rectAttributes, legal_append_left hradius, legal_append_left (legal_numberAttribute (by decide) _),
    legal_append_left (legal_numberAttribute (by decide) _),
    legal_append_left (legal_numberAttribute (by decide) _),
    legal_append_left (legal_numberAttribute (by decide) _)]
  split
  next hempty =>
    subst hempty
    exact iff_of_true legal_nil fun c hc => absurd hc List.not_mem_nil
  next => exact legal_textAttribute (by decide) _

mutual

/-- An element is written in legal characters just if its strings have no noncharacters. -/
theorem legal_write (depth : Nat) : ∀ element : Element Float,
    Legal (element.write depth) ↔ ∀ s ∈ element.strings, Clean s
  | .group className translate [] => by
    have hend : Legal "/>\n".toList := legal_of_all (by decide)
    rw [write, legal_append_left hend, legal_append_right (legal_tag depth (by decide)), legal_groupAttributes,
      strings, stringsIn, List.append_nil]
  | .group className translate (child :: children) => by
    have hopen : Legal ">\n".toList := legal_of_all (by decide)
    rw [write, legal_append_left (legal_tag depth (by decide)), legal_append, legal_append,
      legal_append_left hopen, legal_append_right (legal_tag depth (by decide)), legal_groupAttributes,
      legal_write (depth + 1) child, legal_writeAll (depth + 1) children, strings, stringsIn,
      List.forall_mem_append, List.forall_mem_append, and_assoc]
  | .rect area radius className => by
    have hend : Legal "/>\n".toList := legal_of_all (by decide)
    rw [write, legal_append_left hend, legal_append_right (legal_tag depth (by decide)), legal_rectAttributes,
      strings, List.forall_mem_singleton]
  | .path segments className => by
    have hdata : Legal " d=\"".toList := legal_of_all (by decide)
    have hend : Legal "\"/>\n".toList := legal_of_all (by decide)
    rw [write, legal_append_left hend, legal_append_left (legal_figures (pathData_figures segments)),
      legal_append_left hdata, legal_append_right (legal_tag depth (by decide)),
      legal_textAttribute (by decide), strings, List.forall_mem_singleton]
  | .circle center radius className => by
    have hend : Legal "/>\n".toList := legal_of_all (by decide)
    rw [write, legal_append_left hend, legal_append_left (legal_numberAttribute (by decide) _),
      legal_append_left (legal_numberAttribute (by decide) _),
      legal_append_left (legal_numberAttribute (by decide) _), legal_append_right (legal_tag depth (by decide)),
      legal_textAttribute (by decide), strings, List.forall_mem_singleton]
  | .text position content className => by
    have hopen : Legal ['>'] := legal_of_all (by decide)
    have hend : Legal "</text>\n".toList := legal_of_all (by decide)
    rw [write, legal_append_left hend, legal_append, legal_escape, legal_append_left hopen,
      legal_append_left (legal_numberAttribute (by decide) _),
      legal_append_left (legal_numberAttribute (by decide) _), legal_append_right (legal_tag depth (by decide)),
      legal_textAttribute (by decide), strings, List.forall_mem_cons, List.forall_mem_singleton]

theorem legal_writeAll (depth : Nat) : ∀ elements : List (Element Float),
    Legal (writeAll depth elements) ↔ ∀ s ∈ stringsIn elements, Clean s
  | [] => iff_of_true legal_nil fun s hs => absurd hs List.not_mem_nil
  | element :: rest => by
    rw [writeAll, legal_append, legal_write depth element, legal_writeAll depth rest, stringsIn,
      List.forall_mem_append]

end

end Element

namespace Surface

theorem legal_opening (width height : Float) : Legal (opening width height) := by
  have hwidth := legal_figures (coordinateText_figures width)
  have hheight := legal_figures (coordinateText_figures height)
  have hname : Legal "<svg xmlns=\"http://www.w3.org/2000/svg\" width=\"".toList := legal_of_all (by decide)
  have hsize : Legal "\" height=\"".toList := legal_of_all (by decide)
  have hbox : Legal "\" viewBox=\"0 0 ".toList := legal_of_all (by decide)
  have hblank : Legal [' '] := legal_of_all (by decide)
  have hend : Legal "\">\n".toList := legal_of_all (by decide)
  have hfront := legal_append.2 ⟨legal_append.2 ⟨legal_append.2 ⟨hname, hwidth⟩, hsize⟩, hheight⟩
  exact legal_append.2 ⟨legal_append.2 ⟨legal_append.2 ⟨legal_append.2 ⟨legal_append.2 ⟨hfront, hbox⟩, hwidth⟩,
    hblank⟩, hheight⟩, hend⟩

theorem legal_styleElement (css : List Char) : Legal (styleElement css) ↔ Clean css := by
  have hopen : Legal "  <style>".toList := legal_of_all (by decide)
  have hclose : Legal "</style>\n".toList := legal_of_all (by decide)
  exact (legal_append_left hclose).trans ((legal_append_right hopen).trans (legal_escape css))

/-- A document is made of legal characters just if its stylesheet and its strings have no noncharacters. -/
theorem legal_document (s : Surface Float) :
    Legal s.document ↔ (∀ css ∈ s.stylesheet, Clean css) ∧ ∀ t ∈ Element.stringsIn s.elements, Clean t := by
  have hstyle : Legal ((s.stylesheet.map styleElement).getD []) ↔ ∀ css ∈ s.stylesheet, Clean css := by
    cases s.stylesheet with
    | none => exact iff_of_true legal_nil fun css hcss => absurd hcss (Option.not_mem_none css)
    | some css =>
      refine (legal_styleElement css).trans ⟨fun h css' hcss => ?_, fun h => h css rfl⟩
      exact Option.some.inj hcss ▸ h
  have hend : Legal "</svg>".toList := legal_of_all (by decide)
  rw [document, legal_append_left hend, legal_append, legal_append, and_iff_right (legal_opening _ _), hstyle,
    Element.legal_writeAll]

end Surface

/-! ## Pictures -/

section Pictures

variable {α : Type}

theorem clean_className {name : String} (h : name ∈ classNames) : Clean name.toList := by
  have hall : ∀ name ∈ classNames, Clean name.toList := by decide
  exact hall name h

theorem stringsIn_append (first second : List (Element α)) :
    Element.stringsIn (first ++ second) = Element.stringsIn first ++ Element.stringsIn second := by
  induction first with
  | nil => rfl
  | cons element rest ih =>
    rw [List.cons_append, Element.stringsIn, Element.stringsIn, ih, List.append_assoc]

variable [Scalar α]

/-- Among the strings of painted shapes, only their texts can have noncharacters. -/
theorem clean_paintShape {shapes : List (Shape α)} (h : ∀ s ∈ shapes, s.Styled) :
    (∀ t ∈ Element.stringsIn (shapes.map paintShape), Clean t) ↔ ∀ t ∈ shapeTexts shapes, Clean t := by
  induction shapes with
  | nil => exact Iff.rfl
  | cons shape rest ih =>
    obtain ⟨hshape, hrest⟩ := List.forall_mem_cons.1 h
    have hname := clean_className hshape
    rw [List.map_cons, Element.stringsIn, List.forall_mem_append, ih hrest]
    cases shape with
    | text origin extent content className =>
      exact (and_congr (List.forall_mem_cons.trans (and_iff_right hname)) Iff.rfl).trans
        (and_congr List.forall_mem_singleton Iff.rfl |>.trans List.forall_mem_cons.symm)
    | _ => exact and_iff_right (List.forall_mem_singleton.2 hname)

mutual

/-- Among the strings of a painted fragment, only its texts can have noncharacters. -/
theorem clean_paintFragment (offset : Point α) : ∀ f : Fragment α, (∀ g ∈ f.descendants, g.Styled) →
    ((∀ t ∈ (paintFragment offset f).strings, Clean t) ↔ ∀ t ∈ f.texts, Clean t)
  | ⟨className, box, shapes, children⟩, h => by
    obtain ⟨hown, hchildren⟩ := List.forall_mem_cons.1 h
    have hname := List.forall_mem_singleton.2 (clean_className hown.className)
    rw [paintFragment, Element.grouped, Element.strings, stringsIn_append, List.forall_mem_append,
      List.forall_mem_append, clean_paintShape hown.shapes, clean_paintChildren children hchildren,
      Fragment.texts_eq, List.forall_mem_append]
    exact and_iff_right hname

theorem clean_paintChildren : ∀ children : List (Placed α), (∀ g ∈ childDescendants children, g.Styled) →
    ((∀ t ∈ Element.stringsIn (paintChildren children), Clean t) ↔
      ∀ t ∈ fragmentTexts (children.map (·.fragment)), Clean t)
  | [], _ => Iff.rfl
  | ⟨offset, fragment⟩ :: rest, h => by
    obtain ⟨hfirst, hrest⟩ := List.forall_mem_append.1 h
    rw [paintChildren, Element.stringsIn, List.forall_mem_append, clean_paintFragment offset fragment hfirst,
      clean_paintChildren rest hrest]
    exact List.forall_mem_append.symm

end

end Pictures

/-! ## Themes -/

namespace Theme

theorem clean_rule {selector : String} {declarations : List (String × String)}
    (hselector : Clean selector.toList) (h : ∀ d ∈ declarations, Clean d.1.toList ∧ Clean d.2.toList) :
    Clean (rule selector declarations).toList := by
  have hopen : Clean " \x7b ".toList := by decide
  have hcolon : Clean ": ".toList := by decide
  have hsemicolon : Clean "; ".toList := by decide
  have hclose : Clean "\x7d".toList := by decide
  have hdeclarations : Clean (String.join (declarations.map fun d => d.1 ++ ": " ++ d.2 ++ "; ")).toList := by
    rw [String.toList_join]
    refine List.forall_mem_flatMap.2 (List.forall_mem_map.2 fun d hd => ?_)
    obtain ⟨hproperty, hvalue⟩ := h d hd
    rw [String.toList_append, String.toList_append, String.toList_append]
    exact ((hproperty.append hcolon).append hvalue).append hsemicolon
  rw [rule, String.toList_append, String.toList_append, String.toList_append]
  exact ((hselector.append hopen).append hdeclarations).append hclose

/-- Stylesheets have no noncharacters. -/
theorem clean_stylesheet (t : Theme) : Clean t.stylesheet := by
  have hrules : ∀ r ∈ t.rules, Clean r.toList := by
    unfold rules
    repeat refine List.forall_mem_cons.2 ⟨clean_rule (by decide) (by cases t <;> decide), ?_⟩
    exact fun r hr => absurd hr List.not_mem_nil
  have hseparator : Clean " ".toList := by decide
  rw [stylesheet, String.toList_intercalate, ← joinWith_eq_intercalate]
  exact joinWith_allIn hseparator (List.forall_mem_map.2 hrules)

end Theme

end Svg

/-! ## Documents of patterns -/

open Svg

theorem Bare.of_noncharacter : ∀ c ∈ noncharacters, Bare c :=
  forall_noncharacters ⟨⟨by decide, by decide⟩, ⟨by decide, by decide⟩⟩

/-- A drawing shows a noncharacter just if its pattern has one. -/
theorem clean_texts (input : List Char) (c : Spacing Float) (m : Measure Float) :
    (∀ t ∈ ((Pattern.read input).root.drawing c m).fragment.texts, Clean t) ↔ Clean input := by
  have hunprintable : ∀ d ∈ noncharacters, ¬ Printable d := forall_noncharacters (by decide)
  have hquotes : Clean ['“', '”', '…'] := by decide
  have hprintable : HasPrintable (· ∉ noncharacters) := fun d hd hmem => hunprintable d hmem hd
  constructor
  · intro htexts d hd hmem
    have hletter := (mem_letters (hunprintable d hmem)).2 hd
    obtain ⟨t, ht, hshown⟩ := Root.told c m (Pattern.read input).root d hletter (.of_noncharacter d hmem)
    exact htexts t ht d hshown hmem
  · intro hclean t ht d hd
    exact ((Root.texts_allIn (c.renders_quoting hprintable) m (read_allIn hprintable hclean)
      (read_flags input)) t ht d hd).elim id (hquotes d)

theorem legal_picture [TerminalWidths] (input : List Char) (css : Option (List Char)) :
    Legal ((picture input).withStylesheet css).document ↔ (∀ s ∈ css, Clean s) ∧ Clean input := by
  have hstrings : (∀ t ∈ Element.stringsIn (picture input).elements, Clean t) ↔ Clean input := by
    refine Iff.trans ?_ (clean_texts input .pixels .standardFont)
    rw [← clean_paintFragment .origin _ (Root.styled .pixels .standardFont (Pattern.read input).root)]
    exact iff_of_eq (congrArg (∀ t ∈ ·, Clean t) (List.append_nil _))
  exact (Surface.legal_document _).trans (and_congr Iff.rfl hstrings)

/-- The document of a pattern is made of legal characters just if the pattern has no noncharacters. -/
theorem legal_svgDocument [TerminalWidths] (input : List Char) (theme : Option Theme) :
    Legal (svgDocument input theme) ↔ Clean input := by
  have hstyle : ∀ css ∈ theme.map (·.stylesheet), Clean css := fun css hcss => by
    obtain ⟨t, -, rfl⟩ := Option.map_eq_some_iff.1 hcss
    exact t.clean_stylesheet
  exact (legal_picture input _).trans (and_iff_right hstyle)

/-- A noncharacter in a pattern gets into its document. -/
theorem noncharacter_in_svgDocument : ¬ Legal (svgDocument ['\uFFFE'] none) := fun h => by
  obtain ⟨-, hclean⟩ := (legal_picture ['\uFFFE'] none).1 h
  exact absurd hclean (by decide)

end RegexDiagram
