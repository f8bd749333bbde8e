import RegexDiagram.Proofs.Pattern.Steps
import RegexDiagram.Proofs.Pattern.Tiling

/-!
# A flat scan for groups

Which parenthesis closes which group can be found without a tree: one pass over the pattern with a
stack of positions, which only has to step over escapes and character classes. `GroupScan.run` is
that pass.

The scan knows nothing of group names, quantifiers, properties and ranges. This module compares it with
the reader piece by piece: names and quantifiers hold no character that the scan looks at, and an
escape or a class ends for the scan where it ends for the reader (`GroupScan.run_atom`).
-/

namespace RegexDiagram.Pattern

/-! ## The scan -/

/-- The text of a class behind its opening bracket, up to the first closing bracket that no escape
covers. -/
def classText? : List Char → Option (List Char)
  | [] => none
  | c :: rest =>
    if c = ']' then some [']']
    else (classText? (rest.drop (covered c rest))).map (c :: rest.take (covered c rest) ++ ·)
termination_by s => s.length
decreasing_by simp only [List.length_drop, List.length_cons]; omega

/-- What a scan has found: the positions of the parentheses that are open, the last one first; the
groups, from their parenthesis to behind the closing one; the closing parentheses without a partner;
and the bracket of a class that is not closed. -/
structure GroupScan where
  stack : List Nat
  pairs : List (Nat × Nat)
  unmatched : List Nat
  unclosed : Option Nat
  deriving DecidableEq, Repr

namespace GroupScan

/-- Nothing is found yet. -/
def empty : GroupScan := ⟨[], [], [], none⟩

/-- A closing parenthesis is met. -/
def pop (scan : GroupScan) (pos : Nat) : GroupScan :=
  match scan.stack with
  | opened :: more => { scan with stack := more, pairs := scan.pairs ++ [(opened, pos + 1)] }
  | [] => { scan with unmatched := scan.unmatched ++ [pos] }

/-- One pass over a text that starts at the byte position `pos`. -/
def run (pos : Nat) (scan : GroupScan) : List Char → GroupScan
  | [] => scan
  | c :: rest =>
    if c = '\\' then
      let length := (Escape.outside rest).length
      run (pos + 1 + byteLength (rest.take length)) scan (rest.drop length)
    else if c = '[' then
      match classText? rest with
      | some text => run (pos + 1 + byteLength text) scan (rest.drop text.length)
      | none => { scan with unclosed := some pos }
    else if c = '(' then run (pos + 1) { scan with stack := pos :: scan.stack } rest
    else if c = ')' then run (pos + 1) (scan.pop pos) rest
    else run (pos + c.utf8Size) scan rest
termination_by s => s.length
decreasing_by all_goals simp only [List.length_drop, List.length_cons]; omega

end GroupScan

/-- The scan of a whole piece. -/
def Span.scan (body : Span) : GroupScan := GroupScan.run body.offset .empty body.text

/-- The ends of a group. -/
def View.groupEnds : View → List (Nat × Nat)
  | .node (.group span _ _) => [(span.offset, span.stop)]
  | _ => []

/-- The positions of the anomalies of one kind. -/
def offsetsOf (kind : Anomaly.Kind) (anomalies : List Anomaly) : List Nat :=
  (anomalies.filter (·.kind = kind)).map (·.offset)

/-- The anomalies that are about parentheses and brackets. -/
def Anomaly.Kind.IsNesting : Anomaly.Kind → Prop
  | .unmatchedParen | .unterminatedGroup | .unterminatedCharset => True
  | _ => False

/-- The positions of the anomalies about parentheses and brackets, in order. -/
structure Noted (anomalies : List Anomaly) (unmatched unterminated unclosed : List Nat) :
    Prop where
  unmatched : offsetsOf .unmatchedParen anomalies = unmatched
  unterminated : offsetsOf .unterminatedGroup anomalies = unterminated
  unclosed : offsetsOf .unterminatedCharset anomalies = unclosed

theorem offsetsOf_append (kind : Anomaly.Kind) (first second : List Anomaly) :
    offsetsOf kind (first ++ second) = offsetsOf kind first ++ offsetsOf kind second := by
  rw [offsetsOf, List.filter_append, List.map_append]
  rfl

namespace Noted

variable {first second : List Anomaly} {u u' t t' c c' : List Nat}

theorem append (h : Noted first u t c) (h' : Noted second u' t' c') :
    Noted (first ++ second) (u ++ u') (t ++ t') (c ++ c') := by
  constructor
  · rw [offsetsOf_append, h.unmatched, h'.unmatched]
  · rw [offsetsOf_append, h.unterminated, h'.unterminated]
  · rw [offsetsOf_append, h.unclosed, h'.unclosed]

/-- Other anomalies are left out. -/
theorem of_other (h : ∀ a ∈ first, ¬ a.kind.IsNesting) : Noted first [] [] [] := by
  have hnone (kind : Anomaly.Kind) (hkind : kind.IsNesting) : offsetsOf kind first = [] := by
    rw [offsetsOf, List.map_eq_nil_iff, List.filter_eq_nil_iff]
    intro a ha heq
    rw [← of_decide_eq_true heq] at hkind
    exact h a ha hkind
  exact ⟨hnone _ trivial, hnone _ trivial, hnone _ trivial⟩

theorem append_other (h : Noted first u t c) (hother : ∀ a ∈ second, ¬ a.kind.IsNesting) :
    Noted (first ++ second) u t c := by
  have happend := h.append (of_other hother)
  rw [List.append_nil, List.append_nil, List.append_nil] at happend
  exact happend

end Noted

/-! ## Classes -/

/-- The text of a class goes on behind an atom. -/
theorem classText?_atom {c : Char} (hc : c ≠ ']') (rest : List Char) :
    classText? (c :: rest) =
      (classText? (rest.drop (covered c rest))).map (c :: rest.take (covered c rest) ++ ·) := by
  rw [classText?, if_neg hc]

/-- The text of a class goes on behind a member, a range included. -/
theorem classText?_member {c : Char} (hc : c ≠ ']') (offset : Nat) {rest behind : List Char}
    (h : c :: rest = (Member.read offset c rest).1.span.text ++ behind) :
    classText? (c :: rest) =
      (classText? behind).map ((Member.read offset c rest).1.span.text ++ ·) := by
  rcases Member.read_cases offset c rest with hread | ⟨d, more, stop, hd, hdash, -, hread⟩
  · rw [hread, Member.span, ClassAtom.read_covered] at h ⊢
    have hsplit : c :: rest.take (covered c rest) ++ rest.drop (covered c rest) =
        c :: rest.take (covered c rest) ++ behind := by
      rw [← h, List.cons_append, List.take_append_drop]
    rw [classText?_atom hc, List.append_cancel_left hsplit]
  -- the scan takes a range in three steps: its first end, the hyphen, its last end
  · have htext : (Member.read offset c rest).1.span.text =
        c :: rest.take (covered c rest) ++ ['-'] ++ d :: more.take (covered d more) := by
      rw [hread, ClassAtom.to, Member.span, ClassAtom.read_covered, ClassAtom.read_covered]
    rw [htext] at h ⊢
    have hsplit : (c :: rest.take (covered c rest) ++ ['-'] ++ d :: more.take (covered d more)) ++
        more.drop (covered d more) =
          (c :: rest.take (covered c rest) ++ ['-'] ++ d :: more.take (covered d more)) ++
            behind := by
      rw [← h]
      simp only [List.append_assoc, List.cons_append, List.nil_append, List.take_append_drop]
      rw [← hdash, List.take_append_drop]
    have hbehind := List.append_cancel_left hsplit
    have hcovered : covered '-' (d :: more) = 0 := rfl
    rw [classText?_atom hc, hdash, classText?_atom (by decide), hcovered, List.drop_zero,
      classText?_atom hd, hbehind, Option.map_map, Option.map_map]
    congr 1
    funext text
    simp only [Function.comp_apply, List.take_zero, List.append_assoc, List.cons_append,
      List.nil_append]

/-- The members of a class and its closing bracket are the text of the class. A class that is not
closed has everything to the end of the pattern for its members. -/
theorem ClassBody.read_classText? (offset : Nat) (s : List Char) :
    if (ClassBody.read offset s).closed then
      classText? s = some ((ClassBody.read offset s).members.flatMap (·.span.text) ++ [']'])
    else
      classText? s = none ∧ (ClassBody.read offset s).members.flatMap (·.span.text) = s := by
  fun_induction ClassBody.read offset s with
  | case1 => exact ⟨classText?.eq_1, rfl⟩
  | case2 offset rest =>
    rw [if_pos rfl, classText?, if_pos rfl]
    rfl
  | case3 offset c rest hc member noted hread text body ih =>
    have hbehind := Member.read_behind offset c rest
    have htext := classText?_member hc offset hbehind
    rw [hread] at hbehind htext
    show if body.closed then _ else _
    rw [htext]
    split
    next hclosed =>
      rw [if_pos hclosed] at ih
      show (classText? (rest.drop (text.length - 1))).map _ = _
      rw [ih, List.flatMap_cons, List.append_assoc]
      rfl
    next hopen =>
      rw [if_neg hopen] at ih
      refine ⟨?_, ?_⟩
      · show (classText? (rest.drop (text.length - 1))).map _ = _
        rw [ih.1]
        rfl
      · show member.span.text ++ body.members.flatMap (·.span.text) = _
        rw [ih.2]
        exact hbehind.symm

/-! ## What the scan passes over -/

/-- A character at which the scan only goes on. -/
def isPlain (c : Char) : Bool := c ∉ ['\\', '[', '(', ')']

/-- A class of characters to which none of the four special ones belongs has plain ones only. -/
theorem isPlain_of (p : Char → Bool)
    (h : p '\\' = false ∧ p '[' = false ∧ p '(' = false ∧ p ')' = false) {c : Char}
    (hc : p c = true) : isPlain c = true := by
  obtain ⟨hbackslash, hbracket, hopen, hclose⟩ := h
  apply decide_eq_true
  intro hmem
  simp only [List.mem_cons, List.not_mem_nil, or_false] at hmem
  rcases hmem with rfl | rfl | rfl | rfl <;> simp_all

/-- A quantifier is plain. -/
theorem isPlain_quantifierChars (rest : List Char) :
    (quantifierChars (Quantifier.read? rest)).all isPlain = true := by
  cases h : Quantifier.read? rest with
  | none => rfl
  | some q =>
    have hdigit (c : Char) (hc : c.isDigit = true) : isPlain c = true :=
      isPlain_of Char.isDigit (by decide) hc
    exact List.all_eq_true.2 ((Quantifier.read?_written h).forall_mem hdigit
      (List.all_eq_true.1 rfl))

/-- What opens a group is plain behind the parenthesis, its name included. -/
theorem isPlain_marker (s : List Char) : (Token.Opening.read s).marker.all isPlain = true := by
  unfold Token.Opening.read
  split
  case h_6 rest _ _ =>
    split
    next name _ =>
      split
      next hname =>
        rw [Token.isGroupName, Bool.and_eq_true, List.all_eq_true] at hname
        have hplain : name.all isPlain = true := List.all_eq_true.2 fun c hc =>
          isPlain_of (fun c => isAlphanumeric c || c == '_' || c == '$') (by decide) (hname.2 c hc)
        rw [List.all_append, List.all_append, hplain]
        rfl
      next => rfl
    next => rfl
  all_goals rfl

namespace GroupScan

theorem pop_of_cons {scan : GroupScan} {opened : Nat} {more : List Nat}
    (h : scan.stack = opened :: more) (pos : Nat) :
    scan.pop pos = { scan with stack := more, pairs := scan.pairs ++ [(opened, pos + 1)] } := by
  rw [pop, h]

theorem pop_of_nil {scan : GroupScan} (h : scan.stack = []) (pos : Nat) :
    scan.pop pos = { scan with unmatched := scan.unmatched ++ [pos] } := by
  rw [pop, h]

theorem run_nil (pos : Nat) (scan : GroupScan) : run pos scan [] = scan := by
  rw [run]

theorem run_plain {text : List Char} (h : text.all isPlain = true) (pos : Nat) (scan : GroupScan)
    (after : List Char) : run pos scan (text ++ after) = run (pos + byteLength text) scan after := by
  induction text generalizing pos with
  | nil => rfl
  | cons c rest ih =>
    rw [List.all_cons, Bool.and_eq_true, isPlain, decide_eq_true_eq] at h
    obtain ⟨hplain, hrest⟩ := h
    simp only [List.mem_cons, List.not_mem_nil, or_false, not_or] at hplain
    obtain ⟨hbackslash, hbracket, hopen, hclose⟩ := hplain
    rw [List.cons_append, run, if_neg hbackslash, if_neg hbracket, if_neg hopen, if_neg hclose,
      ih hrest, byteLength_cons, Nat.add_assoc]

theorem run_opening (pos : Nat) (scan : GroupScan) (rest : List Char) :
    run pos scan ('(' :: rest) = run (pos + 1) { scan with stack := pos :: scan.stack } rest := by
  rw [run, if_neg (by decide), if_neg (by decide), if_pos rfl]

theorem run_closing (pos : Nat) (scan : GroupScan) (rest : List Char) :
    run pos scan (')' :: rest) = run (pos + 1) (scan.pop pos) rest := by
  rw [run, if_neg (by decide), if_neg (by decide), if_neg (by decide), if_pos rfl]

/-- A quantifier is passed over, wherever it may be. -/
theorem run_quantifier {rest after : List Char}
    (h : rest = quantifierChars (Quantifier.read? rest) ++ after) (pos : Nat) (scan : GroupScan) :
    run pos scan rest =
      run (pos + byteLength (quantifierChars (Quantifier.read? rest))) scan after := by
  conv =>
    lhs
    rw [h]
  exact run_plain (isPlain_quantifierChars rest) pos scan after

theorem run_escape (pos : Nat) (scan : GroupScan) (rest : List Char) :
    run pos scan ('\\' :: rest) =
      run (pos + 1 + byteLength (rest.take (Escape.outside rest).length)) scan
        (rest.drop (Escape.outside rest).length) := by
  rw [run, if_pos rfl]

theorem run_class (pos : Nat) (scan : GroupScan) {text : List Char} (after : List Char)
    (h : classText? (text ++ after) = some text) :
    run pos scan ('[' :: (text ++ after)) = run (pos + 1 + byteLength text) scan after := by
  rw [run, if_neg (by decide), if_pos rfl, h]
  simp only [List.drop_left]

theorem run_unclosed (pos : Nat) (scan : GroupScan) {rest : List Char}
    (h : classText? rest = none) :
    run pos scan ('[' :: rest) = { scan with unclosed := some pos } := by
  rw [run, if_neg (by decide), if_pos rfl, h]

end GroupScan

/-! ## Atoms -/

theorem Escape.IsTrouble.not_isNesting {kind : Anomaly.Kind} (h : Escape.IsTrouble kind) :
    ¬ kind.IsNesting := by
  cases kind with
  | unknownEscape | incompleteEscape | trailingBackslash => exact id
  | _ => exact absurd h id

/-- A class takes the characters that the scan takes for it. If the scan finds no end, the class is
everything to the end of the pattern, and that is noted at its bracket. -/
theorem Node.readCharset_classText? (offset : Nat) (rest : List Char) :
    match classText? rest with
    | some text => (Node.readCharset offset rest).1.span.text = '[' :: text ∧
        Noted (Node.readCharset offset rest).2 [] [] []
    | none => (Node.readCharset offset rest).1.span.text = '[' :: rest ∧
        Noted (Node.readCharset offset rest).2 [] [] [offset] := by
  obtain ⟨negated, inner, body, hrest, hbody, hread⟩ := Node.readCharset_cases offset rest
  have hinner := ClassBody.read_classText? (offset + byteLength (charsetStart negated)) inner
  rw [← hbody] at hinner
  have hnoted : Noted (Node.readCharset offset rest).2 [] []
      (if body.closed then [] else [offset]) := by
    rw [hread, hbody, ClassBody.read_anomalies, ← hbody]
    refine .append (.of_other fun a ha => ?_) ?_
    · obtain ⟨member, -, ha⟩ := List.mem_flatMap.1 ha
      exact (Member.isTrouble ha).not_isNesting
    · cases body.closed <;> exact ⟨rfl, rfl, rfl⟩
  have htext : (Node.readCharset offset rest).1.span.text = charsetStart negated ++
      body.members.flatMap (·.span.text) ++ (if body.closed then [']'] else []) := by
    rw [hread, Node.span]
  have hstart : classText? rest = (classText? inner).map ((charsetStart negated).tail ++ ·) := by
    cases negated with
    | false =>
      rw [(List.cons.inj hrest).2]
      show classText? inner = _
      cases classText? inner <;> rfl
    | true =>
      rw [(List.cons.inj hrest).2]
      exact classText?_atom (by decide) inner
  have hparts : charsetStart negated = '[' :: (charsetStart negated).tail := by
    cases negated <;> rfl
  by_cases hclosed : body.closed = true
  · rw [if_pos hclosed] at hinner hnoted htext
    rw [hstart, hinner]
    refine ⟨?_, hnoted⟩
    rw [htext, hparts, List.append_assoc]
    rfl
  · rw [if_neg hclosed] at hinner hnoted htext
    rw [hstart, hinner.1]
    refine ⟨?_, hnoted⟩
    rw [htext, hinner.2, List.append_nil, hrest]

namespace GroupScan

/-- The scan passes over the escape that the reader takes. -/
theorem run_escapeSpan (pos : Nat) (scan : GroupScan) {rest behind : List Char}
    (h : '\\' :: rest = (Token.escapeSpan pos rest).text ++ behind) :
    run pos scan ('\\' :: rest) =
      run (pos + byteLength (Token.escapeSpan pos rest).text) scan behind := by
  have hsplit : rest.take (Escape.outside rest).length ++ rest.drop (Escape.outside rest).length =
      rest.take (Escape.outside rest).length ++ behind := by
    rw [List.take_append_drop]
    exact (List.cons.inj h).2
  rw [run_escape, List.append_cancel_left hsplit, Token.escapeSpan, byteLength_cons, Nat.add_assoc]
  rfl

/-- The scan passes over the class that the reader takes, or the class has no end and takes
everything that is left. -/
theorem run_charset (pos : Nat) (scan : GroupScan) {rest behind : List Char}
    (h : '[' :: rest = (Node.readCharset pos rest).1.span.text ++ behind) :
    (run pos scan ('[' :: rest) =
        run (pos + byteLength (Node.readCharset pos rest).1.span.text) scan behind ∧
          Noted (Node.readCharset pos rest).2 [] [] []) ∨
      (behind = [] ∧ run pos scan ('[' :: rest) = { scan with unclosed := some pos } ∧
        Noted (Node.readCharset pos rest).2 [] [] [pos]) := by
  have hclass := Node.readCharset_classText? pos rest
  cases htext : classText? rest with
  | some text =>
    rw [htext] at hclass
    rw [hclass.1, List.cons_append] at h
    have hrest := (List.cons.inj h).2
    rw [hrest] at htext
    refine .inl ⟨?_, hclass.2⟩
    rw [hclass.1, h, run_class pos scan behind htext, byteLength_cons, Nat.add_assoc]
    rfl
  | none =>
    rw [htext] at hclass
    rw [hclass.1] at h
    exact .inr ⟨List.self_eq_append_right.1 h, run_unclosed pos scan htext, hclass.2⟩

/-- The scan passes over an atom as the reader does, or it ends in a class that is not closed. -/
theorem run_atom {c : Char} (hopen : c ≠ '(') (hclose : c ≠ ')') (pos : Nat)
    (scan : GroupScan) {rest behind : List Char}
    (h : c :: rest = (Token.readAtom pos c rest).1.span.text ++ behind) :
    (run pos scan (c :: rest) =
        run (pos + byteLength (Token.readAtom pos c rest).1.span.text) scan behind ∧
          Noted (Token.readAtom pos c rest).2 [] [] []) ∨
      (behind = [] ∧ run pos scan (c :: rest) = { scan with unclosed := some pos } ∧
        Noted (Token.readAtom pos c rest).2 [] [] [pos]) := by
  have hread := Token.readAtom_cases pos c rest
  generalize Token.readAtom pos c rest = read at hread h ⊢
  cases hread with
  | charset => exact run_charset pos scan h
  | escape meaning => exact .inl ⟨run_escapeSpan pos scan h, rfl, rfl, rfl⟩
  | escaped value =>
    refine .inl ⟨run_escapeSpan pos scan h, .of_other fun a ha => ?_⟩
    change a ∈ Escape.troubles Escape.troubleOutside (Token.escapeSpan pos rest) at ha
    exact (Escape.isTrouble_troubles ha).1.not_isNesting
  | literal special =>
    have hplain : [c].all isPlain = true := by
      rw [List.all_cons, List.all_nil, Bool.and_true, isPlain, decide_eq_true_eq]
      simp only [List.mem_cons, List.not_mem_nil, or_false, hopen, hclose, not_or]
      constructor
      · rintro rfl
        exact special (by decide)
      · rintro rfl
        exact special (by decide)
    refine .inl ⟨?_, .of_other fun a ha => ?_⟩
    · rw [h]
      exact run_plain hplain pos scan behind
    · split at ha
      · rw [List.mem_singleton.1 ha]
        exact id
      · cases ha
  | _ =>
    refine .inl ⟨?_, rfl, rfl, rfl⟩
    rw [h]
    exact run_plain rfl pos scan behind

end GroupScan

end RegexDiagram.Pattern
