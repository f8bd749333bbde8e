import RegexDiagram.Proofs.Svg.Reader

/-!
# The tags that are written

The tokens of a document, construct by construct, and that the lexer finds just these in the document.
-/

namespace RegexDiagram.Svg

/-! ## Attributes -/

/-- Attributes with the values that are written for them. -/
def Attributes.escaped (attributes : Attributes) : Attributes :=
  attributes.map fun a => (a.1, escape a.2)

/-- Attributes with the values that a document keeps of them. -/
def Attributes.kept (attributes : Attributes) : Attributes :=
  attributes.map fun a => (a.1, Svg.kept a.2)

/-- The names of attributes are words. -/
def Attributes.Named (attributes : Attributes) : Prop :=
  ∀ key ∈ attributes.map Prod.fst, key.all Char.isAlpha = true

/-- Escaped values are read back. -/
theorem decodeAttributes_escaped (attributes : Attributes) :
    decodeAttributes attributes.escaped = some attributes.kept := by
  induction attributes with
  | nil => rfl
  | cons a rest ih =>
    rw [Attributes.escaped, List.map_cons, decodeAttributes, decode_escape, Option.bind_some,
      ← Attributes.escaped, ih]
    rfl

namespace Mode

theorem run_attribute {name key : List Char} {attributes : Attributes}
    (hkey : key.all Char.isAlpha = true) (text : List Char) :
    (after name attributes).run ([' '] ++ key ++ ['=', '"'] ++ escape text ++ ['"']) =
      some ([], after name (attributes ++ [(key, escape text)])) := by
  obtain ⟨hangle, hquote⟩ := not_mem_escape text
  have hstart : (after name attributes).run [' '] = some ([], .key name attributes []) := rfl
  have hquoted : (Mode.key name attributes key).run ['=', '"'] =
      some ([], .value name attributes key []) := rfl
  have hend (raw : List Char) : (value name attributes key raw).run ['"'] =
      some ([], after name (attributes ++ [(key, raw)])) := rfl
  have hopen := run_append (run_append hstart (run_key (List.all_eq_true.1 hkey) [])) hquoted
  exact run_append (run_append hopen (run_value hangle hquote [])) (hend _)

theorem run_attributes {name : List Char} {more : Attributes} (h : more.Named)
    (attributes : Attributes) :
    (after name attributes).run (writeAttributes more.escaped) =
      some ([], after name (attributes ++ more.escaped)) := by
  induction more generalizing attributes with
  | nil => rw [Attributes.escaped, List.map_nil, List.append_nil]; rfl
  | cons a rest ih =>
    obtain ⟨hkey, hrest⟩ := List.forall_mem_cons.1 h
    have hboth := run_append (run_attribute hkey a.2) (ih hrest (attributes ++ [(a.1, escape a.2)]))
    rwa [List.append_assoc attributes] at hboth

/-- Behind its name a tag is read as behind an attribute. -/
theorem run_opening_eq {name s : List Char} (h : ∃ c ∈ [' ', '/', '>'], s.head? = some c) :
    (opening name).run s = (after name []).run s := by
  obtain ⟨c, hc, hhead⟩ := h
  obtain ⟨rest, rfl⟩ := List.head?_eq_some_iff.1 hhead
  simp only [List.mem_cons, List.not_mem_nil, or_false] at hc
  obtain rfl | rfl | rfl := hc <;> rfl

/-- A name that is made of letters, behind a `<`. -/
theorem run_tagName {name : List Char} (hname : name ≠ []) (h : ∀ c ∈ name, c.isAlpha = true) :
    tag.run name = some ([], opening name) := by
  cases name with
  | nil => exact absurd rfl hname
  | cons c rest =>
    obtain ⟨hc, hrest⟩ := List.forall_mem_cons.1 h
    have hstep : tag.step c = some ([], opening [c]) := by
      rw [step, if_neg, if_pos hc]
      rintro rfl
      exact absurd hc (by decide)
    exact run_cons hstep (run_opening hrest [c])

end Mode

/-! ## Tags -/

/-- A line break with the indentation behind it. -/
def lead (depth : Nat) : List Char := '\n' :: Element.indentation depth

namespace Mode

theorem tagNames_letters {name : String} (h : name ∈ tagNames) :
    name.toList ≠ [] ∧ name.toList.all Char.isAlpha = true := by
  revert name
  decide

theorem run_indented (depth : Nat) :
    (content ['\n']).run (Element.indentation depth ++ ['<']) = some ([.text (lead depth)], tag) := by
  have hblank : '<' ∉ Element.indentation depth := fun h => absurd (List.eq_of_mem_replicate h) (by decide)
  exact run_append (run_content hblank _) rfl

theorem run_tag {name : String} (hname : name ∈ tagNames) (depth : Nat) :
    (content ['\n']).run (Element.tag depth name) =
      some ([.text (lead depth)], opening name.toList) := by
  obtain ⟨hne, hletters⟩ := tagNames_letters hname
  exact run_append (run_indented depth) (run_tagName hne (List.all_eq_true.1 hletters))

/-- A tag with its attributes, up to the end of it. -/
theorem run_tag_attributes {name : String} {attributes : Attributes} {s : List Char}
    {tokens : List Token} {last : Mode} (hname : name ∈ tagNames) (h : attributes.Named) (depth : Nat)
    (hs : s.head? = some '/' ∨ s.head? = some '>')
    (hend : (after name.toList attributes.escaped).run s = some (tokens, last)) :
    (content ['\n']).run (Element.tag depth name ++ (writeAttributes attributes.escaped ++ s)) =
      some (.text (lead depth) :: tokens, last) := by
  refine run_append (run_tag hname depth) ?_
  rw [run_opening_eq]
  · exact run_append (run_attributes h []) hend
  · cases attributes with
    | cons a rest => exact ⟨' ', .head _, rfl⟩
    | nil =>
      obtain hs | hs := hs
      · exact ⟨'/', by decide, hs⟩
      · exact ⟨'>', by decide, hs⟩

/-- A tag without content, with the line break behind it. -/
theorem run_empty {name : String} {attributes : Attributes} (hname : name ∈ tagNames)
    (h : attributes.Named) (depth : Nat) :
    (content ['\n']).run
        (Element.tag depth name ++ (writeAttributes attributes.escaped ++ "/>\n".toList)) =
      some ([.text (lead depth), .empty name.toList attributes.escaped], content ['\n']) := by
  have hend (word : List Char) (more : Attributes) : (after word more).run "/>\n".toList =
      some ([.empty word more], content ['\n']) := rfl
  have hhead : "/>\n".toList.head? = some '/' := rfl
  exact run_tag_attributes hname h depth (.inl hhead) (hend _ _)

end Mode

/-! ## Elements -/

namespace Element

/-- The attribute for a class. -/
def classAttribute (className : String) : List Char × List Char := ("class".toList, className.toList)

/-- An attribute whose value is a coordinate. -/
def coordinate (name : String) (value : Float) : List Char × List Char :=
  (name.toList, Decimal.coordinateText value)

/-- The attribute that moves a group. -/
def movement (p : Point Float) : List Char × List Char :=
  ("transform".toList, "translate(".toList ++ pointData p ++ [')'])

/-- The attributes of an element, before anything is escaped. -/
def attributes : Element Float → Attributes
  | .group className translate _ =>
    (className.map classAttribute).toList ++ (translate.map movement).toList
  | .rect area radius className =>
    (if className = "" then [] else [classAttribute className]) ++
      [coordinate "x" area.x, coordinate "y" area.y, coordinate "width" area.width,
       coordinate "height" area.height] ++
      (if 0 < radius then [coordinate "rx" radius] else [])
  | .path segments className => [classAttribute className, ("d".toList, pathData segments)]
  | .circle center radius className =>
    [classAttribute className, coordinate "cx" center.x, coordinate "cy" center.y,
     coordinate "r" radius]
  | .text position _ className =>
    [classAttribute className, coordinate "x" position.x, coordinate "y" position.y]

theorem named_attributes (e : Element Float) : e.attributes.Named := by
  cases e with
  | group className translate children =>
    cases className <;> cases translate <;> unfold Attributes.Named
    · change ∀ key ∈ [], _
      decide
    · change ∀ key ∈ ["transform".toList], _
      decide
    · change ∀ key ∈ ["class".toList], _
      decide
    · change ∀ key ∈ ["class".toList, "transform".toList], _
      decide
  | rect area radius className =>
    rw [Attributes.Named, attributes]
    split_ifs
    · change ∀ key ∈ ["x".toList, "y".toList, "width".toList, "height".toList, "rx".toList], _
      decide
    · change ∀ key ∈ ["x".toList, "y".toList, "width".toList, "height".toList], _
      decide
    · change ∀ key ∈ ["class".toList, "x".toList, "y".toList, "width".toList, "height".toList,
        "rx".toList], _
      decide
    · change ∀ key ∈ ["class".toList, "x".toList, "y".toList, "width".toList, "height".toList], _
      decide
  | path segments className =>
    change ∀ key ∈ ["class".toList, "d".toList], _
    decide
  | circle center radius className =>
    change ∀ key ∈ ["class".toList, "cx".toList, "cy".toList, "r".toList], _
    decide
  | text position content className =>
    change ∀ key ∈ ["class".toList, "x".toList, "y".toList], _
    decide

/-! ### Writing -/

theorem writeAttributes_append (first second : Attributes) :
    writeAttributes (first ++ second).escaped =
      writeAttributes first.escaped ++ writeAttributes second.escaped := by
  rw [Attributes.escaped, List.map_append, writeAttributes, List.flatMap_append]
  rfl

/-- An attribute is written by itself. -/
theorem writeAttributes_cons (a : List Char × List Char) (rest : Attributes) :
    writeAttributes (Attributes.escaped (a :: rest)) =
      [' '] ++ a.1 ++ ['=', '"'] ++ escape a.2 ++ ['"'] ++ writeAttributes rest.escaped := by
  rw [Attributes.escaped, List.map_cons, writeAttributes, List.flatMap_cons]
  rfl

theorem writeAttributes_nil : writeAttributes (Attributes.escaped []) = [] := rfl

theorem write_classAttribute (className : String) (rest : Attributes) :
    writeAttributes (Attributes.escaped (classAttribute className :: rest)) =
      textAttribute "class" className.toList ++ writeAttributes rest.escaped :=
  writeAttributes_cons _ rest

theorem write_coordinate (name : String) (value : Float) (rest : Attributes) :
    writeAttributes (Attributes.escaped (coordinate name value :: rest)) =
      numberAttribute name value ++ writeAttributes rest.escaped := by
  rw [writeAttributes_cons, coordinate, escape_neutral (coordinateText_neutral value),
    numberAttribute]

theorem moveAttribute_eq (p : Point Float) :
    moveAttribute p = ([' '] ++ "transform".toList ++ ['=', '"'] ++ "translate(".toList) ++
      pointData p ++ ([')'] ++ ['"']) := by
  have hfront : " transform=\"translate(".toList =
      [' '] ++ "transform".toList ++ ['=', '"'] ++ "translate(".toList := by decide
  have hback : ")\"".toList = [')'] ++ ['"'] := by decide
  exact congrArg₂ (· ++ pointData p ++ ·) hfront hback

theorem write_movement (p : Point Float) :
    writeAttributes (Attributes.escaped [movement p]) = moveAttribute p := by
  have hneutral : escape (movement p).2 = "translate(".toList ++ pointData p ++ [')'] :=
    escape_neutral (List.forall_mem_append.2
      ⟨List.forall_mem_append.2 ⟨neutral_of_all (by decide), pointData_neutral p⟩,
        neutral_of_all (by decide)⟩)
  calc writeAttributes (Attributes.escaped [movement p])
      = [' '] ++ "transform".toList ++ ['=', '"'] ++ escape (movement p).2 ++ ['"'] ++
          writeAttributes (Attributes.escaped []) := writeAttributes_cons _ _
    _ = [' '] ++ "transform".toList ++ ['=', '"'] ++ ("translate(".toList ++ pointData p ++ [')']) ++
          ['"'] ++ [] := by rw [hneutral, writeAttributes_nil]
    _ = moveAttribute p := by
      rw [moveAttribute_eq]
      simp only [List.append_assoc, List.append_nil]

theorem write_groupAttributes (className : Option String) (translate : Option (Point Float))
    (children : List (Element Float)) :
    writeAttributes (Element.group className translate children).attributes.escaped =
      groupAttributes className translate := by
  rw [attributes, writeAttributes_append, groupAttributes]
  congr 1
  · cases className with
    | none => rfl
    | some name => exact (write_classAttribute name []).trans (List.append_nil _)
  · cases translate with
    | none => rfl
    | some p => exact write_movement p

theorem write_rectAttributes (area : Rect Float) (radius : Float) (className : String) :
    writeAttributes (Element.rect area radius className).attributes.escaped =
      rectAttributes area radius className := by
  have hclass : writeAttributes
      (Attributes.escaped (if className = "" then [] else [classAttribute className])) =
        if className = "" then [] else textAttribute "class" className.toList := by
    split_ifs
    · rfl
    · exact (write_classAttribute className []).trans (List.append_nil _)
  have hradius : writeAttributes
      (Attributes.escaped (if 0 < radius then [coordinate "rx" radius] else [])) =
        if 0 < radius then numberAttribute "rx" radius else [] := by
    split_ifs
    · exact (write_coordinate "rx" radius []).trans (List.append_nil _)
    · rfl
  rw [attributes, writeAttributes_append, writeAttributes_append, hclass, hradius, rectAttributes]
  simp only [write_coordinate, writeAttributes_nil, List.append_assoc, List.append_nil]

/-! ### Tokens -/

mutual

/-- The tokens of an element, with what stands before it. -/
def tokens (depth : Nat) : Element Float → List Token
  | .group className translate [] =>
    [.text (lead depth), .empty "g".toList (group className translate []).attributes.escaped]
  | .group className translate (child :: children) =>
    [.text (lead depth),
     .opening "g".toList (group className translate (child :: children)).attributes.escaped] ++
      (child.tokens (depth + 1) ++ tokensAll (depth + 1) children) ++
      [.text (lead depth), .closing "g".toList]
  | .rect area radius className =>
    [.text (lead depth), .empty "rect".toList (rect area radius className).attributes.escaped]
  | .path segments className =>
    [.text (lead depth), .empty "path".toList (path segments className).attributes.escaped]
  | .circle center radius className =>
    [.text (lead depth), .empty "circle".toList (circle center radius className).attributes.escaped]
  | .text position content className =>
    [.text (lead depth),
     .opening "text".toList (Element.text position content className).attributes.escaped,
     .text (escape content), .closing "text".toList]

/-- The tokens of elements one after the other. -/
def tokensAll (depth : Nat) : List (Element Float) → List Token
  | [] => []
  | element :: rest => element.tokens depth ++ tokensAll depth rest

end

theorem run_rect (depth : Nat) (area : Rect Float) (radius : Float) (className : String) :
    (Mode.content ['\n']).run ((Element.rect area radius className).write depth) =
      some ((Element.rect area radius className).tokens depth, .content ['\n']) := by
  rw [write, ← write_rectAttributes, List.append_assoc]
  exact Mode.run_empty (by decide) (named_attributes _) depth

theorem run_path (depth : Nat) (segments : List (Segment Float)) (className : String) :
    (Mode.content ['\n']).run ((Element.path segments className).write depth) =
      some ((Element.path segments className).tokens depth, .content ['\n']) := by
  have hkey : " d=\"".toList = [' '] ++ "d".toList ++ ['=', '"'] := by decide
  have hend : "\"/>\n".toList = ['"'] ++ "/>\n".toList := by decide
  have hwrite : (Element.path segments className).write depth = tag depth "path" ++
      (writeAttributes (Element.path segments className).attributes.escaped ++ "/>\n".toList) := by
    calc (Element.path segments className).write depth
        = tag depth "path" ++ textAttribute "class" className.toList ++
            ([' '] ++ "d".toList ++ ['=', '"']) ++ pathData segments ++ (['"'] ++ "/>\n".toList) :=
          congrArg₂ (tag depth "path" ++ textAttribute "class" className.toList ++ · ++
            pathData segments ++ ·) hkey hend
      _ = _ := by
        rw [attributes, write_classAttribute, writeAttributes_cons,
          escape_neutral (pathData_neutral segments), writeAttributes_nil]
        simp only [List.append_assoc, List.append_nil]
  rw [hwrite]
  exact Mode.run_empty (by decide) (named_attributes _) depth

theorem run_circle (depth : Nat) (center : Point Float) (radius : Float) (className : String) :
    (Mode.content ['\n']).run ((Element.circle center radius className).write depth) =
      some ((Element.circle center radius className).tokens depth, .content ['\n']) := by
  have hempty := Mode.run_empty (show "circle" ∈ tagNames by decide)
    (named_attributes (circle center radius className)) depth
  rw [attributes, write_classAttribute, write_coordinate, write_coordinate, write_coordinate,
    writeAttributes_nil] at hempty
  rw [write]
  simp only [List.append_assoc, List.append_nil] at hempty ⊢
  exact hempty

theorem run_text (depth : Nat) (position : Point Float) (content : List Char) (className : String) :
    (Mode.content ['\n']).run ((Element.text position content className).write depth) =
      some ((Element.text position content className).tokens depth, .content ['\n']) := by
  have hclose (name : List Char) (attributes : Attributes) : (Mode.after name attributes).run ['>'] =
      some ([.opening name attributes], .content []) := rfl
  have hopening := Mode.run_tag_attributes (by decide)
    (named_attributes (text position content className)) depth (.inr rfl) (hclose "text".toList _)
  have hend (raw : List Char) : (Mode.content raw).run "</text>\n".toList =
      some ([.text raw, .closing "text".toList], .content ['\n']) := rfl
  have hcontent := Mode.run_append (Mode.run_content (not_mem_escape content).1 []) (hend _)
  have hboth := Mode.run_append hopening hcontent
  rw [attributes, write_classAttribute, write_coordinate, write_coordinate, writeAttributes_nil]
    at hboth
  rw [write]
  simp only [List.append_assoc, List.append_nil] at hboth ⊢
  exact hboth

theorem run_emptyGroup (depth : Nat) (className : Option String) (translate : Option (Point Float)) :
    (Mode.content ['\n']).run ((Element.group className translate []).write depth) =
      some ((Element.group className translate []).tokens depth, .content ['\n']) := by
  rw [write, ← write_groupAttributes className translate [], List.append_assoc]
  exact Mode.run_empty (by decide) (named_attributes _) depth

/-- A group is read if what is in it is. -/
theorem run_group (depth : Nat) (className : Option String) (translate : Option (Point Float))
    (children : List (Element Float)) {inner : List Char} {tokens : List Token}
    (h : (Mode.content ['\n']).run inner = some (tokens, .content ['\n'])) :
    (Mode.content ['\n']).run (tag depth "g" ++ groupAttributes className translate ++
        ">\n".toList ++ inner ++ tag depth "/g>\n") =
      some ([.text (lead depth),
        .opening "g".toList (group className translate children).attributes.escaped] ++ tokens ++
        [.text (lead depth), .closing "g".toList], .content ['\n']) := by
  have hclose (name : List Char) (attributes : Attributes) :
      (Mode.after name attributes).run ">\n".toList =
        some ([.opening name attributes], .content ['\n']) := rfl
  have hhead : ">\n".toList.head? = some '>' := rfl
  have hopening := Mode.run_tag_attributes (by decide)
    (named_attributes (group className translate children)) depth (.inr hhead) (hclose "g".toList _)
  have hslash : Mode.tag.run "/g>\n".toList = some ([.closing "g".toList], .content ['\n']) := rfl
  have hend : (Mode.content ['\n']).run (tag depth "/g>\n") =
      some ([.text (lead depth), .closing "g".toList], .content ['\n']) :=
    Mode.run_append (Mode.run_indented depth) hslash
  rw [write_groupAttributes, ← List.append_assoc] at hopening
  exact Mode.run_append (Mode.run_append hopening h) hend

mutual

/-- The lexer finds the tokens of an element in what is written. -/
theorem run_write (depth : Nat) : ∀ element : Element Float,
    (Mode.content ['\n']).run (element.write depth) = some (element.tokens depth, .content ['\n'])
  | .group className translate [] => run_emptyGroup depth className translate
  | .group className translate (child :: children) => by
    have hinner := Mode.run_append (run_write (depth + 1) child) (run_writeAll (depth + 1) children)
    have hgroup := run_group depth className translate (child :: children) hinner
    rw [← List.append_assoc] at hgroup
    exact hgroup
  | .rect area radius className => run_rect depth area radius className
  | .path segments className => run_path depth segments className
  | .circle center radius className => run_circle depth center radius className
  | .text position content className => run_text depth position content className

theorem run_writeAll (depth : Nat) : ∀ elements : List (Element Float),
    (Mode.content ['\n']).run (writeAll depth elements) =
      some (tokensAll depth elements, .content ['\n'])
  | [] => rfl
  | element :: rest => Mode.run_append (run_write depth element) (run_writeAll depth rest)

end

end Element

end RegexDiagram.Svg
