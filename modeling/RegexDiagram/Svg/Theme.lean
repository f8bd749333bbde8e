import RegexDiagram.Text.Letters

/-!
# Themes

The stylesheets that come with the program. A theme is a palette; the rules are the same for all.
-/

namespace RegexDiagram.Svg

inductive Theme where
  | light
  | dark
  deriving DecidableEq, Repr

structure Palette where
  background : String
  text : String
  stroke : String
  literal : String
  escape : String
  anchor : String
  charset : String
  group : String
  muted : String

namespace Theme

def name : Theme → String
  | .light => "light"
  | .dark => "dark"

def names : List String := [light.name, dark.name]

/-- The theme of a name in any case. -/
def ofName? (s : List Char) : Option Theme :=
  if isNamed light.name s then some .light
  else if isNamed dark.name s then some .dark
  else none

def palette : Theme → Palette
  | .light =>
    { background := "#ffffff", text := "#1b1f23", stroke := "#24292e", literal := "#dae9e5"
      escape := "#bada55", anchor := "#6b6659", charset := "#cbcbba", group := "#908c83"
      muted := "#6a737d" }
  | .dark =>
    { background := "#0d1117", text := "#e6edf3", stroke := "#c9d1d9", literal := "#1f3a36"
      escape := "#3b4d12", anchor := "#3d3a33", charset := "#3a3a2e", group := "#8b949e"
      muted := "#8b949e" }

/-- A rule: a selector and its declarations. -/
def rule (selector : String) (declarations : List (String × String)) : String :=
  selector ++ " \x7b " ++
    String.join (declarations.map fun (property, value) => property ++ ": " ++ value ++ "; ") ++
    "\x7d"

/-- The rules of a theme, in their order. -/
def rules (t : Theme) : List String :=
  let p := t.palette
  [rule "svg" [("background-color", p.background)],
   rule "text" [("font", "12px monospace"), ("fill", p.text)],
   rule "path" [("fill", "none"), ("stroke", p.stroke), ("stroke-width", "2px")],
   rule "rect" [("stroke", p.stroke), ("stroke-width", "1px")],
   rule ".literal rect" [("fill", p.literal)],
   rule ".escape rect, .charset-escape rect" [("fill", p.escape)],
   rule ".anchor rect, .any-character rect" [("fill", p.anchor)],
   rule ".anchor text, .any-character text" [("fill", p.background)],
   rule ".charset > rect" [("fill", p.charset)],
   rule ".subexp > rect" [("fill", "none"), ("stroke", p.group), ("stroke-dasharray", "6,2")],
   rule ".caption, .repeat-label, .flags" [("fill", p.muted), ("font-size", "10px")],
   rule ".terminal" [("fill", p.background), ("stroke", p.stroke), ("stroke-width", "2px")],
   rule ".arrow" [("stroke-width", "2px")]]

def stylesheet (t : Theme) : List Char := (" ".intercalate t.rules).toList

end Theme

end RegexDiagram.Svg
