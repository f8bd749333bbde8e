import RegexDiagram.Proofs.Svg.Marks
import RegexDiagram.Proofs.Svg.Written

/-!
# Documents

What is read from a document is the picture: an element for each element of the picture, nested in the
same way, with the same attributes and texts, of which only control characters are lost
(`Surface.markup`). In the document itself a `<` stands only at the front of a tag, an ampersand only at
the front of an entity, and neither a `<` nor a quote in the value of an attribute.

`Surface.read_document` states all of it, for pictures of any elements and strings.
-/

namespace RegexDiagram.Svg

/-! ## What is read -/

namespace Element

mutual

/-- An element as it is read from a document. -/
def markup : Element Float → Markup
  | .group className translate children =>
    .node "g".toList (group className translate children).attributes.kept [] (markupAll children)
  | .rect area radius className =>
    .node "rect".toList (rect area radius className).attributes.kept [] []
  | .path segments className => .node "path".toList (path segments className).attributes.kept [] []
  | .circle center radius className =>
    .node "circle".toList (circle center radius className).attributes.kept [] []
  | .text position content className =>
    .node "text".toList (Element.text position content className).attributes.kept (kept content) []

/-- Elements as they are read, in order. -/
def markupAll : List (Element Float) → List Markup
  | [] => []
  | element :: rest => element.markup :: markupAll rest

end

/-! ## Nesting -/

theorem nest_cons {state next : Open} {token : Token} (h : state.step token = some next)
    (rest : List Token) : (token :: rest).foldlM Open.step state = rest.foldlM Open.step next := by
  rw [List.foldlM_cons, h]
  rfl

theorem nest_append {state next : Open} {front : List Token}
    (h : front.foldlM Open.step state = some next) (rest : List Token) :
    (front ++ rest).foldlM Open.step state = rest.foldlM Open.step next := by
  rw [List.foldlM_append, h]
  rfl

section Step

variable {frame : Frame} (h : frame.holdsElements = true) (around : List Frame) {name : List Char}
  (attributes : Attributes)

include h

/-- Line breaks and blanks may stand between elements. -/
theorem step_lead (depth : Nat) :
    Open.step (frame, around) (.text (lead depth)) = some (frame, around) := by
  have hblank : (lead depth).all (fun c => c = ' ' || c = '\n') = true :=
    List.all_eq_true.2 (List.forall_mem_cons.2 ⟨by decide, fun c hc => by
      rw [List.eq_of_mem_replicate hc]
      decide⟩)
  rw [Open.step, if_pos h, if_pos hblank]

theorem step_empty (hname : emptyNames.contains name = true) :
    Open.step (frame, around) (.empty name attributes.escaped) =
      some (frame.add [.node name attributes.kept [] []], around) := by
  rw [Open.step, h, hname, Bool.and_self, if_pos rfl, decodeAttributes_escaped]
  rfl

theorem step_opening (hname : pairedNames.contains name = true) :
    Open.step (frame, around) (.opening name attributes.escaped) =
      some (⟨name, attributes.kept, [], []⟩, frame :: around) := by
  rw [Open.step, h, hname, Bool.and_self, if_pos rfl, decodeAttributes_escaped]
  rfl

/-- A tag without content, behind a line break. -/
theorem nest_empty (hname : emptyNames.contains name = true) (depth : Nat) :
    ([.text (lead depth), .empty name attributes.escaped] : List Token).foldlM Open.step (frame, around) =
      some (frame.add [.node name attributes.kept [] []], around) := by
  rw [nest_cons (step_lead h around depth), nest_cons (step_empty h around attributes hname)]
  rfl

/-- A text in tags of its own, behind a line break. -/
theorem nest_text (hname : pairedNames.contains name = true)
    (htext : (Frame.mk name attributes.kept [] []).holdsElements = false) (depth : Nat)
    (text : List Char) :
    ([.text (lead depth), .opening name attributes.escaped, .text (escape text),
        .closing name] : List Token).foldlM Open.step (frame, around) =
      some (frame.add [.node name attributes.kept (kept text) []], around) := by
  have hinside : Open.step (⟨name, attributes.kept, [], []⟩, frame :: around) (.text (escape text)) =
      some (⟨name, attributes.kept, kept text, []⟩, frame :: around) := by
    rw [Open.step, htext, if_neg Bool.false_ne_true, decode_escape]
    rfl
  have hclose : Open.step (⟨name, attributes.kept, kept text, []⟩, frame :: around) (.closing name) =
      some (frame.add [.node name attributes.kept (kept text) []], around) := by
    rw [Open.step, hname, Bool.and_true, if_pos (decide_eq_true rfl)]
    rfl
  rw [nest_cons (step_lead h around depth), nest_cons (step_opening h around attributes hname),
    nest_cons hinside, nest_cons hclose]
  rfl

/-- A group around what has been read. -/
theorem nest_group {inner : List Token} {children : List Markup} (depth : Nat)
    (hinner : inner.foldlM Open.step (⟨"g".toList, attributes.kept, [], []⟩, frame :: around) =
      some (⟨"g".toList, attributes.kept, [], children⟩, frame :: around)) :
    ([.text (lead depth), .opening "g".toList attributes.escaped] ++ inner ++
        [.text (lead depth), .closing "g".toList] : List Token).foldlM Open.step (frame, around) =
      some (frame.add [.node "g".toList attributes.kept [] children], around) := by
  have hclose : Open.step (⟨"g".toList, attributes.kept, [], children⟩, frame :: around)
      (.closing "g".toList) =
        some (frame.add [.node "g".toList attributes.kept [] children], around) := by
    have hclosed : ("g".toList = "g".toList && pairedNames.contains "g".toList) = true := by decide
    rw [Open.step, if_pos hclosed]
    rfl
  rw [List.append_assoc, List.cons_append, List.cons_append, List.nil_append,
    nest_cons (step_lead h around depth), nest_cons (step_opening h around attributes (by decide)),
    nest_append hinner, nest_cons (step_lead rfl _ depth), nest_cons hclose]
  rfl

end Step

mutual

/-- The tokens of an element nest to the element. -/
theorem nest_tokens (around : List Frame) (depth : Nat) : ∀ (element : Element Float) (frame : Frame),
    frame.holdsElements = true →
    (element.tokens depth).foldlM Open.step (frame, around) =
      some (frame.add [element.markup], around)
  | .group className translate [], frame, h => nest_empty h around _ (by decide) depth
  | .group className translate (child :: children), frame, h => by
    have hchild := nest_tokens (frame :: around) (depth + 1) child
      ⟨"g".toList, (group className translate (child :: children)).attributes.kept, [], []⟩ rfl
    have hchildren := nest_tokensAll (frame :: around) (depth + 1) children
      (Frame.add ⟨"g".toList, (group className translate (child :: children)).attributes.kept, [], []⟩
        [child.markup]) rfl
    exact nest_group h around _ depth ((nest_append hchild _).trans hchildren)
  | .rect area radius className, frame, h => nest_empty h around _ (by decide) depth
  | .path segments className, frame, h => nest_empty h around _ (by decide) depth
  | .circle center radius className, frame, h => nest_empty h around _ (by decide) depth
  | .text position content className, frame, h => nest_text h around _ (by decide) rfl depth content

theorem nest_tokensAll (around : List Frame) (depth : Nat) :
    ∀ (elements : List (Element Float)) (frame : Frame), frame.holdsElements = true →
    (tokensAll depth elements).foldlM Open.step (frame, around) =
      some (frame.add (markupAll elements), around)
  | [], frame, _ => by
    rw [markupAll, Frame.add, List.append_nil]
    rfl
  | element :: rest, frame, h => by
    have hrest := nest_tokensAll around depth rest (frame.add [element.markup]) h
    rw [tokensAll, nest_append (nest_tokens around depth element frame h), hrest, Frame.add, Frame.add,
      List.append_assoc]
    rfl

end

end Element

/-! ## Pictures -/

namespace Surface

/-- The attributes of the outermost tag, before anything is escaped. -/
def attributes (s : Surface Float) : Attributes :=
  [("xmlns".toList, "http://www.w3.org/2000/svg".toList), Element.coordinate "width" s.width,
   Element.coordinate "height" s.height,
   ("viewBox".toList, "0 0 ".toList ++ Decimal.coordinateText s.width ++ [' '] ++
     Decimal.coordinateText s.height)]

/-- The stylesheet as it is read. -/
def styleMarkup (css : List Char) : Markup := .node "style".toList [] (kept css) []

/-- A picture as it is read from its document: the stylesheet, if there is one, and the elements. -/
def markup (s : Surface Float) : Markup :=
  .node "svg".toList s.attributes.kept []
    ((s.stylesheet.map styleMarkup).toList ++ Element.markupAll s.elements)

/-! ### Tokens -/

/-- The tokens of a stylesheet. -/
def styleTokens (css : List Char) : List Token :=
  [.text (lead 1), .opening "style".toList (Attributes.escaped []), .text (escape css),
   .closing "style".toList]

/-- The tokens of a document. -/
def tokens (s : Surface Float) : List Token :=
  [.text [], .opening "svg".toList s.attributes.escaped] ++ (s.stylesheet.map styleTokens).getD [] ++
    Element.tokensAll 1 s.elements ++ [.text ['\n'], .closing "svg".toList]

theorem named_attributes (s : Surface Float) : s.attributes.Named := by
  change ∀ key ∈ ["xmlns".toList, "width".toList, "height".toList, "viewBox".toList], _
  decide

theorem write_attributes (s : Surface Float) :
    opening s.width s.height = "<svg".toList ++ (writeAttributes s.attributes.escaped ++ ">\n".toList) := by
  have hfront : "<svg xmlns=\"http://www.w3.org/2000/svg\" width=\"".toList = "<svg".toList ++ [' '] ++
      "xmlns".toList ++ ['=', '"'] ++ "http://www.w3.org/2000/svg".toList ++ ['"'] ++ [' '] ++
      "width".toList ++ ['=', '"'] := by decide
  have hheight : "\" height=\"".toList = ['"'] ++ [' '] ++ "height".toList ++ ['=', '"'] := by decide
  have hbox : "\" viewBox=\"0 0 ".toList = ['"'] ++ [' '] ++ "viewBox".toList ++ ['=', '"'] ++
      "0 0 ".toList := by decide
  have hend : "\">\n".toList = ['"'] ++ ">\n".toList := by decide
  have hspace : escape "http://www.w3.org/2000/svg".toList = "http://www.w3.org/2000/svg".toList := by
    decide
  have hview : escape ("0 0 ".toList ++ Decimal.coordinateText s.width ++ [' '] ++
      Decimal.coordinateText s.height) = "0 0 ".toList ++ Decimal.coordinateText s.width ++ [' '] ++
        Decimal.coordinateText s.height :=
    escape_neutral (List.forall_mem_append.2 ⟨List.forall_mem_append.2
      ⟨List.forall_mem_append.2 ⟨neutral_of_all (by decide), coordinateText_neutral _⟩,
        neutral_of_all (by decide)⟩, coordinateText_neutral _⟩)
  -- The literals are replaced under names: unfolding one of them to compare it takes too long.
  have hpieces (w h : List Char) {front height box ending : List Char}
      (hfront : "<svg xmlns=\"http://www.w3.org/2000/svg\" width=\"".toList = front)
      (hheight : "\" height=\"".toList = height) (hbox : "\" viewBox=\"0 0 ".toList = box)
      (hend : "\">\n".toList = ending) :
      "<svg xmlns=\"http://www.w3.org/2000/svg\" width=\"".toList ++ w ++ "\" height=\"".toList ++ h ++
        "\" viewBox=\"0 0 ".toList ++ w ++ [' '] ++ h ++ "\">\n".toList =
        front ++ w ++ height ++ h ++ box ++ w ++ [' '] ++ h ++ ending := by
    subst hfront hheight hbox hend
    rfl
  refine (hpieces _ _ hfront hheight hbox hend).trans ?_
  rw [attributes, Element.writeAttributes_cons, Element.write_coordinate, Element.write_coordinate,
    Element.writeAttributes_cons, Element.writeAttributes_nil, hspace, hview, numberAttribute,
    numberAttribute]
  simp only [List.append_assoc, List.append_nil]

theorem run_opening (s : Surface Float) :
    (Mode.content []).run (opening s.width s.height) =
      some ([.text [], .opening "svg".toList s.attributes.escaped], .content ['\n']) := by
  have hname : (Mode.content []).run "<svg".toList = some ([.text []], .opening "svg".toList) := rfl
  have hclose (attributes : Attributes) : (Mode.after "svg".toList attributes).run ">\n".toList =
      some ([.opening "svg".toList attributes], .content ['\n']) := rfl
  have hhead : (writeAttributes s.attributes.escaped ++ ">\n".toList).head? = some ' ' := rfl
  have hbehind : (Mode.opening "svg".toList).run (writeAttributes s.attributes.escaped ++ ">\n".toList) =
      some ([.opening "svg".toList s.attributes.escaped], .content ['\n']) :=
    (Mode.run_opening_eq ⟨' ', .head _, hhead⟩).trans
      (Mode.run_append (Mode.run_attributes s.named_attributes []) (hclose _))
  rw [write_attributes]
  exact Mode.run_append hname hbehind

theorem run_style (css : List Char) :
    (Mode.content ['\n']).run (styleElement css) = some (styleTokens css, .content ['\n']) := by
  have hopen : (Mode.content ['\n']).run "  <style>".toList =
      some ([.text (lead 1), .opening "style".toList (Attributes.escaped [])], .content []) := rfl
  have hend (raw : List Char) : (Mode.content raw).run "</style>\n".toList =
      some ([.text raw, .closing "style".toList], .content ['\n']) := rfl
  exact Mode.run_append (Mode.run_append hopen (Mode.run_content (not_mem_escape css).1 [])) (hend _)

/-- The lexer finds the tokens of a picture in its document. -/
theorem lex_document (s : Surface Float) : lex s.document = some s.tokens := by
  have hstyle : (Mode.content ['\n']).run ((s.stylesheet.map styleElement).getD []) =
      some ((s.stylesheet.map styleTokens).getD [], .content ['\n']) := by
    cases s.stylesheet with
    | none => rfl
    | some css => exact run_style css
  have hend : (Mode.content ['\n']).run "</svg>".toList =
      some ([.text ['\n'], .closing "svg".toList], .content []) := rfl
  have hrun := Mode.run_append (Mode.run_append (Mode.run_append (run_opening s) hstyle)
    (Element.run_writeAll 1 s.elements)) hend
  unfold lex document
  rw [hrun]
  rfl

/-! ### Nesting -/

/-- The frame of the outermost element, with what it holds. -/
def frame (s : Surface Float) (children : List Markup) : Frame :=
  ⟨"svg".toList, s.attributes.kept, [], children⟩

theorem nest_style (s : Surface Float) :
    ((s.stylesheet.map styleTokens).getD []).foldlM Open.step (s.frame [], [Frame.document]) =
      some (s.frame (s.stylesheet.map styleMarkup).toList, [Frame.document]) := by
  cases s.stylesheet with
  | none => rfl
  | some css => exact Element.nest_text rfl _ [] (by decide) rfl 1 css

/-- The tokens of a picture nest to the picture. -/
theorem nest_document (s : Surface Float) :
    s.tokens.foldlM Open.step (Frame.document, []) = some (Frame.document.add [s.markup], []) := by
  have hfirst : Open.step (Frame.document, []) (.text []) = some (Frame.document, []) := rfl
  have hroot : Frame.document.holdsElements = true := rfl
  have hopening := Element.step_opening hroot [] s.attributes
    (show pairedNames.contains "svg".toList = true by decide)
  have helements := Element.nest_tokensAll [Frame.document] 1 s.elements
    (s.frame (s.stylesheet.map styleMarkup).toList) rfl
  have hblank (children : List Markup) : Open.step (s.frame children, [Frame.document]) (.text ['\n']) =
      some (s.frame children, [Frame.document]) := rfl
  have hclosing (children : List Markup) : Open.step (s.frame children, [Frame.document])
      (.closing "svg".toList) = some (Frame.document.add [(s.frame children).node], []) := rfl
  rw [tokens, List.append_assoc, List.append_assoc, List.cons_append, List.cons_append, List.nil_append,
    Element.nest_cons hfirst, Element.nest_cons hopening]
  refine (Element.nest_append (nest_style s) _).trans ?_
  refine (Element.nest_append helements _).trans ?_
  refine (Element.nest_cons (hblank _) _).trans ?_
  exact Element.nest_cons (hclosing _) _

/-! ### Reading -/

/-- A document is read as the picture that was written. Whatever the strings in the picture, a `<` in the
document starts a tag, an ampersand starts an entity, and no value holds a `<` or a quote. -/
theorem read_document (s : Surface Float) :
    read s.document = some s.markup ∧
    Heads '<' tagMarks s.document ∧ Heads '&' entityMarks s.document ∧
    ∃ tokens, lex s.document = some tokens ∧
      ∀ t ∈ tokens, ∀ a ∈ t.attributes, '<' ∉ a.2 ∧ '"' ∉ a.2 := by
  have hlex := lex_document s
  have hnest := nest_document s
  obtain ⟨htags, hentities⟩ := marked_of_nest hlex hnest
  refine ⟨?_, htags, hentities, s.tokens, hlex, fun t ht a ha => ?_⟩
  · rw [read, hlex, Option.bind_some, hnest]
    rfl
  · exact (Token.sound_attributes (lex_sound hlex t ht) a ha).2

end Surface

end RegexDiagram.Svg
