import RegexDiagram.Proofs.Svg.Escaping

/-!
# Reading markup

A reader for documents of the tags that pictures are made of. It works in two steps, each strict: `lex`
cuts a text into tags and the texts between them and refuses every `<` that starts no tag and every
quoted value with a `<` in it; `read` nests the tags, refuses those that do not match or stand where they
must not, and decodes the entities.

The lexer goes from character to character, so what it makes of two texts in a row follows from what it
makes of each (`Mode.run_append`).
-/

namespace RegexDiagram.Svg

/-- Names of attributes with their values. -/
abbrev Attributes := List (List Char × List Char)

/-- The names of the tags that pictures are made of. -/
def tagNames : List String := ["svg", "style", "g", "rect", "path", "circle", "text"]

/-- Attributes as they are written. -/
def writeAttributes (attributes : Attributes) : List Char :=
  attributes.flatMap fun a => [' '] ++ a.1 ++ ['=', '"'] ++ a.2 ++ ['"']

/-! ## Tags -/

/-- A tag, or what stands between two tags. Texts and values are as they are written. -/
inductive Token where
  | text (raw : List Char)
  | opening (name : List Char) (attributes : Attributes)
  | empty (name : List Char) (attributes : Attributes)
  | closing (name : List Char)
  deriving DecidableEq

def Token.attributes : Token → Attributes
  | .opening _ attributes | .empty _ attributes => attributes
  | .text _ | .closing _ => []

/-- What the lexer is in the middle of, with what it has read of it. -/
inductive Mode where
  | content (raw : List Char)
  /-- Behind a `<`. -/
  | tag
  | opening (name : List Char)
  | closing (name : List Char)
  | key (name : List Char) (attributes : Attributes) (key : List Char)
  /-- Before the quote of a value. -/
  | quote (name : List Char) (attributes : Attributes) (key : List Char)
  | value (name : List Char) (attributes : Attributes) (key value : List Char)
  /-- Behind a value. -/
  | after (name : List Char) (attributes : Attributes)
  /-- Behind the slash of a tag without content. -/
  | slash (name : List Char) (attributes : Attributes)
  deriving DecidableEq

namespace Mode

/-- One character: the tokens that it ends, and the mode behind it. -/
def step : Mode → Char → Option (List Token × Mode)
  | .content raw, c => some (if c = '<' then ([.text raw], .tag) else ([], .content (raw ++ [c])))
  | .tag, c =>
    if c = '/' then some ([], .closing []) else if c.isAlpha then some ([], .opening [c]) else none
  | .closing name, c =>
    if c = '>' then some ([.closing name], .content [])
    else if c.isAlpha then some ([], .closing (name ++ [c])) else none
  | .opening name, c =>
    if c = ' ' then some ([], .key name [] [])
    else if c = '/' then some ([], .slash name [])
    else if c = '>' then some ([.opening name []], .content [])
    else if c.isAlpha then some ([], .opening (name ++ [c])) else none
  | .key name attributes word, c =>
    if c = '=' then some ([], .quote name attributes word)
    else if c.isAlpha then some ([], .key name attributes (word ++ [c])) else none
  | .quote name attributes word, c =>
    if c = '"' then some ([], .value name attributes word []) else none
  | .value name attributes word raw, c =>
    if c = '"' then some ([], .after name (attributes ++ [(word, raw)]))
    else if c = '<' then none else some ([], .value name attributes word (raw ++ [c]))
  | .after name attributes, c =>
    if c = ' ' then some ([], .key name attributes [])
    else if c = '/' then some ([], .slash name attributes)
    else if c = '>' then some ([.opening name attributes], .content []) else none
  | .slash name attributes, c =>
    if c = '>' then some ([.empty name attributes], .content []) else none

/-- A text: the tokens that end in it, and the mode behind it. -/
def run (mode : Mode) : List Char → Option (List Token × Mode)
  | [] => some ([], mode)
  | c :: rest =>
    (mode.step c).bind fun first => (first.2.run rest).map fun last => (first.1 ++ last.1, last.2)

theorem run_cons {mode next last : Mode} {c : Char} {rest : List Char} {tokens more : List Token}
    (h : mode.step c = some (tokens, next)) (h' : next.run rest = some (more, last)) :
    mode.run (c :: rest) = some (tokens ++ more, last) := by
  rw [run, h, Option.bind_some, h', Option.map_some]

/-- Two texts in a row are read one after the other. -/
theorem run_append {mode next last : Mode} {s t : List Char} {tokens more : List Token}
    (h : mode.run s = some (tokens, next)) (h' : next.run t = some (more, last)) :
    mode.run (s ++ t) = some (tokens ++ more, last) := by
  induction s generalizing mode tokens with
  | nil =>
    obtain ⟨rfl, rfl⟩ := Prod.mk.inj (Option.some.inj h)
    exact h'
  | cons c rest ih =>
    rw [run] at h
    obtain ⟨⟨first, middle⟩, hfirst, h⟩ := Option.bind_eq_some_iff.1 h
    obtain ⟨⟨others, _⟩, hothers, h⟩ := Option.map_eq_some_iff.1 h
    obtain ⟨rfl, rfl⟩ := Prod.mk.inj h
    rw [List.cons_append, List.append_assoc]
    exact run_cons hfirst (ih hothers)

/-! ### Pieces of tags -/

/-- A mode that takes every character of a text up takes the text up. -/
theorem run_absorb {grow : List Char → Mode} {s : List Char}
    (hstep : ∀ front, ∀ c ∈ s, (grow front).step c = some ([], grow (front ++ [c])))
    (front : List Char) : (grow front).run s = some ([], grow (front ++ s)) := by
  induction s generalizing front with
  | nil => rw [List.append_nil]; rfl
  | cons c rest ih =>
    have hrest := ih (fun front d hd => hstep front d (.tail _ hd)) (front ++ [c])
    rw [run_cons (hstep front c (.head _)) hrest, List.append_assoc]
    rfl

theorem run_content {s : List Char} (h : '<' ∉ s) (raw : List Char) :
    (content raw).run s = some ([], content (raw ++ s)) :=
  run_absorb (fun front c hc => by rw [step, if_neg (ne_of_mem_of_not_mem hc h)]) raw

theorem run_opening {s : List Char} (h : ∀ c ∈ s, c.isAlpha = true) (front : List Char) :
    (opening front).run s = some ([], opening (front ++ s)) := by
  refine run_absorb (fun front c hc => ?_) front
  have hc := h c hc
  rw [step, if_neg, if_neg, if_neg, if_pos hc] <;> rintro rfl <;> exact absurd hc (by decide)

theorem run_closing {s : List Char} (h : ∀ c ∈ s, c.isAlpha = true) (front : List Char) :
    (closing front).run s = some ([], closing (front ++ s)) := by
  refine run_absorb (fun front c hc => ?_) front
  have hc := h c hc
  rw [step, if_neg, if_pos hc]
  rintro rfl
  exact absurd hc (by decide)

theorem run_key {name : List Char} {attributes : Attributes} {s : List Char}
    (h : ∀ c ∈ s, c.isAlpha = true) (front : List Char) :
    (key name attributes front).run s = some ([], key name attributes (front ++ s)) := by
  refine run_absorb (fun front c hc => ?_) front
  have hc := h c hc
  rw [step, if_neg, if_pos hc]
  rintro rfl
  exact absurd hc (by decide)

theorem run_value {name k : List Char} {attributes : Attributes} {s : List Char}
    (hangle : '<' ∉ s) (hquote : '"' ∉ s) (front : List Char) :
    (value name attributes k front).run s = some ([], value name attributes k (front ++ s)) :=
  run_absorb (fun front c hc => by
    rw [step, if_neg (ne_of_mem_of_not_mem hc hquote), if_neg (ne_of_mem_of_not_mem hc hangle)]) front

end Mode

/-- The tags of a text and what stands between them. -/
def lex (s : List Char) : Option (List Token) :=
  match (Mode.content []).run s with
  | some (tokens, .content []) => some tokens
  | _ => none

/-! ## Nesting -/

/-- An element as it is read: its attributes, the text in it and the elements in it. -/
inductive Markup where
  | node (name : List Char) (attributes : Attributes) (text : List Char) (children : List Markup)

def Markup.name : Markup → List Char
  | .node name .. => name

/-- An element whose end has not been read yet. -/
structure Frame where
  name : List Char
  attributes : Attributes
  text : List Char
  children : List Markup

namespace Frame

/-- What is around the outermost element. -/
def document : Frame := ⟨[], [], [], []⟩

def node (f : Frame) : Markup := .node f.name f.attributes f.text f.children

def add (f : Frame) (child : List Markup) : Frame := { f with children := f.children ++ child }

/-- Elements stand in the document itself, in `svg` and in `g`; there is no text beside them. -/
def holdsElements (f : Frame) : Bool := f.name = [] || f.name = "svg".toList || f.name = "g".toList

end Frame

/-- The names of tags with an end of their own. -/
def pairedNames : List (List Char) := ["svg".toList, "style".toList, "g".toList, "text".toList]

/-- The names of tags without content. -/
def emptyNames : List (List Char) := ["g".toList, "rect".toList, "path".toList, "circle".toList]

/-- Attributes with the entities in their values decoded. -/
def decodeAttributes : Attributes → Option Attributes
  | [] => some []
  | (key, raw) :: rest => (decode raw).bind fun value => (decodeAttributes rest).map ((key, value) :: ·)

/-- The innermost element that is open, and those around it. -/
abbrev Open := Frame × List Frame

/-- One token more. -/
def Open.step : Open → Token → Option Open
  | (frame, around), .text raw =>
    if frame.holdsElements then
      if raw.all (fun c => c = ' ' || c = '\n') then some (frame, around) else none
    else (decode raw).map fun text => ({ frame with text := frame.text ++ text }, around)
  | (frame, around), .opening name attributes =>
    if frame.holdsElements && pairedNames.contains name then
      (decodeAttributes attributes).map fun decoded => (⟨name, decoded, [], []⟩, frame :: around)
    else none
  | (frame, around), .empty name attributes =>
    if frame.holdsElements && emptyNames.contains name then
      (decodeAttributes attributes).map fun decoded =>
        (frame.add [.node name decoded [] []], around)
    else none
  | (frame, parent :: around), .closing name =>
    if name = frame.name && pairedNames.contains name then some (parent.add [frame.node], around)
    else none
  | (_, []), .closing _ => none

/-- The one element of a document, if that is `svg`. -/
def root? : Open → Option Markup
  | (⟨[], [], [], [element]⟩, []) => if element.name = "svg".toList then some element else none
  | _ => none

/-- A document. -/
def read (s : List Char) : Option Markup :=
  (lex s).bind fun tokens => (tokens.foldlM Open.step (Frame.document, [])).bind root?

end RegexDiagram.Svg
