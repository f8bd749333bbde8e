import RegexDiagram.Proofs.Pattern.Letters

/-!
# Characters that are not printable

The punctuation of patterns is printable, and so are the names of escapes; whatever else stands in a
pattern, the reader keeps as a letter. So a character that is not printable is among the letters of a tree
just if it stands in the pattern (`mem_letters`).
-/

namespace RegexDiagram.Pattern

/-- The character is printable or stands in the text. -/
def Among (t : List Char) (c : Char) : Prop := Printable c ∨ c ∈ t

theorem hasPrintable_among (t : List Char) : HasPrintable (Among t) := fun _ h => .inl h

section Among

variable {s t u : List Char}

theorem among_of_subset (h : s ⊆ t) : AllIn (Among t) s := fun _ hc => .inr (h hc)

theorem among_of_printable (h : AllPrintable s) : AllIn (Among t) s := (hasPrintable_among t).all h

theorem among_of_all (h : s.all (fun c => Printable c) = true) : AllIn (Among t) s :=
  among_of_printable (allPrintable_of_all h)

theorem AllIn.among_trans (hs : AllIn (Among t) s) (ht : AllIn (Among u) t) : AllIn (Among u) s :=
  fun c hc => (hs c hc).elim .inl (ht c)

theorem AllIn.among_mono (hs : AllIn (Among t) s) (htu : t ⊆ u) : AllIn (Among u) s :=
  hs.among_trans (among_of_subset htu)

end Among

/-! ## Escapes -/

namespace Escape

/-- What the escape takes of the text behind its backslash is printable or shown. -/
def Keeps (e : Escape) (s : List Char) : Prop := AllIn (Among e.shown.letters) (s.take e.length)

variable {c : Char} {rest : List Char}

theorem plain_keeps (c : Char) (rest : List Char) (trouble : Option Anomaly.Kind) :
    Keeps ⟨.plain c, 1, trouble⟩ (c :: rest) :=
  List.forall_mem_singleton.2 (.inr (.head _))

theorem identity_keeps (c : Char) (rest : List Char) : (identity c).Keeps (c :: rest) := by
  unfold identity
  split <;> exact plain_keeps _ _ _

theorem incomplete_keeps (c : Char) (rest : List Char) : (incomplete c).Keeps (c :: rest) :=
  plain_keeps _ _ _

/-- An escape that is made of printable characters. -/
theorem named_keeps {meaning : Meaning} {length : Nat} {s : List Char} (h : AllPrintable (s.take length)) :
    (named meaning length).Keeps s :=
  among_of_printable h

/-- An escape of a single letter. -/
theorem letter_keeps {meaning : Meaning} (hc : Printable c) (rest : List Char) :
    (named meaning 1).Keeps (c :: rest) :=
  named_keeps (List.forall_mem_singleton.2 hc)

/-- An escape with digits behind its letter. -/
theorem digits_keeps {meaning : Meaning} {n : Nat} {p : Char → Bool} (hc : Printable c)
    (hp : ∀ d, p d = true → Printable d) (rest : List Char) :
    (named meaning ((leading n p rest).length + 1)).Keeps (c :: rest) := by
  refine named_keeps ?_
  rw [List.take_succ_cons, take_leading]
  exact List.forall_mem_cons.2 ⟨hc, fun d hd => hp d (leading_all _ _ _ d hd)⟩

/-- An escape with something between two marks behind its letter, which is printable or shown. -/
theorem enclosed_keeps {meaning : Meaning} {first last : Char} (hc : Printable c) (hfirst : Printable first)
    (hlast : Printable last) {inner : List Char} (hinner : AllIn (Among meaning.label) inner)
    (behind : List Char) :
    (named meaning (inner.length + 3)).Keeps (c :: first :: (inner ++ last :: behind)) := by
  have htake : (c :: first :: (inner ++ last :: behind)).take (inner.length + 3) =
      c :: first :: (inner ++ [last]) := by
    rw [List.take_succ_cons, List.take_succ_cons, List.take_length_add_append]
    rfl
  rw [Keeps, named, htake]
  refine List.forall_mem_cons.2 ⟨.inl hc, List.forall_mem_cons.2 ⟨.inl hfirst, ?_⟩⟩
  exact hinner.append (List.forall_mem_singleton.2 (.inl hlast))

theorem zero_keeps (rest : List Char) : (zero rest).Keeps ('0' :: rest) := by
  unfold zero
  simp only
  split
  · exact letter_keeps (by decide) rest
  · exact digits_keeps (by decide) (fun _ => printable_of_isOctalDigit) rest

theorem namedBackReference_keeps (rest : List Char) : (namedBackReference rest).Keeps ('k' :: rest) := by
  fun_cases namedBackReference rest with
  | case2 body name hname hne =>
    obtain ⟨behind, rfl⟩ := eq_append_of_before? hname
    refine enclosed_keeps (by decide) (by decide) (by decide) (among_of_subset ?_) behind
    exact List.subset_append_of_subset_left _ (List.subset_append_right _ _)
  | _ => exact incomplete_keeps 'k' _

theorem control_keeps (rest : List Char) : (control rest).Keeps ('c' :: rest) := by
  unfold control
  split
  next letter more =>
    split
    next halpha =>
      exact named_keeps (List.forall_mem_cons.2
        ⟨by decide, List.forall_mem_singleton.2 (printable_of_isAlpha halpha).1⟩)
    next => exact incomplete_keeps 'c' _
  next => exact incomplete_keeps 'c' _

theorem hex_keeps (rest : List Char) : (hex rest).Keeps ('x' :: rest) := by
  unfold hex
  simp only
  split
  next htwo =>
    have hkeeps : (named (.hex (numeralValue 16 (leading 2 isHexDigit rest)))
        ((leading 2 isHexDigit rest).length + 1)).Keeps ('x' :: rest) :=
      digits_keeps (by decide) (fun _ => printable_of_isHexDigit) rest
    rwa [htwo] at hkeeps
  next => exact incomplete_keeps 'x' _

theorem unicode_keeps (rest : List Char) : (unicode rest).Keeps ('u' :: rest) := by
  unfold unicode
  split
  next body =>
    simp only
    split
    next hclosed =>
      obtain ⟨behind, hbody⟩ := leading_isPrefix 6 isHexDigit body
      have hdigits : AllPrintable (leading 6 isHexDigit body) :=
        fun d hd => printable_of_isHexDigit (leading_all _ _ _ d hd)
      generalize leading 6 isHexDigit body = digits at hclosed hbody hdigits ⊢
      subst hbody
      rw [List.drop_left] at hclosed
      obtain ⟨more, rfl⟩ := List.head?_eq_some_iff.1 hclosed.2
      exact enclosed_keeps (by decide) (by decide) (by decide) (among_of_printable hdigits) more
    next => exact incomplete_keeps 'u' _
  next =>
    simp only
    split
    next hfour =>
      have hkeeps : (named (.unicode (numeralValue 16 (leading 4 isHexDigit rest)))
          ((leading 4 isHexDigit rest).length + 1)).Keeps ('u' :: rest) :=
        digits_keeps (by decide) (fun _ => printable_of_isHexDigit) rest
      rwa [hfour] at hkeeps
    next => exact incomplete_keeps 'u' _

theorem property_keeps (negated : Bool) (rest : List Char) :
    (property negated rest).Keeps (property.letter negated :: rest) := by
  fun_cases property negated rest with
  | case2 body name hname hne =>
    obtain ⟨behind, rfl⟩ := eq_append_of_before? hname
    refine enclosed_keeps (by cases negated <;> decide) (by decide) (by decide) (among_of_subset ?_) behind
    cases negated <;> exact List.subset_append_right _ _
  | _ => exact incomplete_keeps _ _

theorem letterMeaning_printable {meaning : Meaning} (h : letterMeaning? c = some meaning) : Printable c := by
  unfold letterMeaning? at h
  split at h
  case h_12 => exact nomatch h
  all_goals decide

theorem shared_keeps (c : Char) (rest : List Char) : (shared c rest).Keeps (c :: rest) :=
  shared_cases (P := fun c e => e.Keeps (c :: rest))
    (fun hmeaning => letter_keeps (letterMeaning_printable hmeaning) rest)
    (zero_keeps rest) (control_keeps rest) (hex_keeps rest) (unicode_keeps rest)
    (fun negated => property_keeps negated rest) (fun c => identity_keeps c rest) c

/-- What an escape takes is printable or shown. -/
theorem outside_keeps (s : List Char) : (outside s).Keeps s := by
  cases s with
  | nil => exact AllIn.nil
  | cons c rest =>
    rw [outside]
    split
    next hc => exact letter_keeps (hc ▸ by decide) rest
    split
    next hc => exact letter_keeps (hc ▸ by decide) rest
    split
    next hc => exact hc ▸ namedBackReference_keeps rest
    split
    next hdigit =>
      exact letter_keeps (printable_of_between hdigit.1 hdigit.2 (by decide) (by decide)) rest
    next => exact shared_keeps c rest

/-- The same in a class. -/
theorem inside_keeps (s : List Char) : (inside s).Keeps s := by
  cases s with
  | nil => exact AllIn.nil
  | cons c rest =>
    rw [inside]
    split
    next hc => exact letter_keeps (hc ▸ by decide) rest
    split
    next hc => exact hc ▸ plain_keeps 'B' rest none
    split
    next hdigit =>
      refine named_keeps ?_
      rw [take_leading]
      exact fun d hd => printable_of_isOctalDigit (leading_all _ _ _ d hd)
    next => exact shared_keeps c rest

end Escape

/-! ## Atoms -/

theorem ClassAtom.read_keeps (offset : Nat) (c : Char) (rest : List Char) :
    AllIn (Among (ClassAtom.read offset c rest).atom.letters) (ClassAtom.read offset c rest).atom.span.text := by
  unfold ClassAtom.read
  split
  · have hkeeps := Escape.inside_keeps rest
    unfold Escape.Keeps at hkeeps
    simp only
    cases hshown : (Escape.inside rest).shown with
    | named meaning =>
      rw [hshown] at hkeeps
      exact List.forall_mem_cons.2 ⟨.inl (by decide), hkeeps⟩
    | plain value =>
      rw [hshown] at hkeeps
      exact List.forall_mem_cons.2 ⟨.inl (by decide), hkeeps⟩
  · exact List.forall_mem_singleton.2 (.inr (.head _))

theorem Member.read_keeps (offset : Nat) (c : Char) (rest : List Char) :
    AllIn (Among ((Member.read offset c rest).1.views.flatMap View.letters))
      (Member.read offset c rest).1.span.text := by
  have hfirst := ClassAtom.read_keeps offset c rest
  obtain hread | ⟨d, more, stop, -, -, -, hread⟩ := Member.read_cases offset c rest
  · rw [hread]
    exact hfirst.among_mono (List.subset_append_left _ _)
  · have hlast := ClassAtom.read_keeps stop d more
    rw [hread]
    refine AllIn.append (AllIn.append (hfirst.among_mono (List.subset_append_left _ _)) ?_)
      (hlast.among_mono ?_)
    · exact List.forall_mem_singleton.2 (.inl (by decide))
    · exact List.subset_append_of_subset_right (ClassAtom.read offset c rest).atom.letters
        (List.subset_append_left _ [])

theorem ClassBody.read_keeps (offset : Nat) (s : List Char) :
    AllIn (Among (((ClassBody.read offset s).members.flatMap Member.views).flatMap View.letters))
      ((ClassBody.read offset s).members.flatMap (·.span.text)) := by
  fun_induction ClassBody.read offset s with
  | case1 => exact AllIn.nil
  | case2 => exact AllIn.nil
  | case3 offset c rest hc member noted hread text body ih =>
    have hmember := Member.read_keeps offset c rest
    rw [hread] at hmember
    rw [List.flatMap_cons, List.flatMap_cons, List.flatMap_append]
    exact (hmember.among_mono (List.subset_append_left _ _)).append
      (ih.among_mono (List.subset_append_right _ _))

theorem Node.readCharset_keeps (offset : Nat) (rest : List Char) :
    AllIn (Among ((Node.readCharset offset rest).1.views.flatMap View.letters))
      (Node.readCharset offset rest).1.span.text := by
  obtain ⟨negated, inner, body, -, hbody, hread⟩ := Node.readCharset_cases offset rest
  have hmembers := ClassBody.read_keeps (offset + byteLength (charsetStart negated)) inner
  rw [← hbody] at hmembers
  rw [hread]
  refine AllIn.append (AllIn.append ?_ hmembers) ?_
  · cases negated <;> exact among_of_all (by decide)
  · cases body.closed <;> exact among_of_all (by decide)

theorem Token.readEscape_keeps (offset : Nat) (rest : List Char) :
    AllIn (Among ((readEscape offset rest).1.views.flatMap View.letters)) (readEscape offset rest).1.span.text := by
  have hkeeps := Escape.outside_keeps rest
  unfold Escape.Keeps at hkeeps
  unfold readEscape
  simp only
  cases hshown : (Escape.outside rest).shown with
  | named meaning =>
    rw [hshown] at hkeeps
    exact List.forall_mem_cons.2 ⟨.inl (by decide), hkeeps.among_mono (List.subset_append_left _ _)⟩
  | plain value =>
    rw [hshown] at hkeeps
    exact List.forall_mem_cons.2 ⟨.inl (by decide), hkeeps.among_mono (List.subset_append_left _ _)⟩

/-- Of what an atom is read from, everything that is not printable is among its letters. -/
theorem Token.readAtom_keeps (offset : Nat) (c : Char) (rest : List Char) :
    AllIn (Among ((readAtom offset c rest).1.views.flatMap View.letters)) (readAtom offset c rest).1.span.text := by
  by_cases hbackslash : c = '\\'
  · subst hbackslash
    exact readEscape_keeps offset rest
  · have hread := readAtom_cases offset c rest
    generalize readAtom offset c rest = read at hread ⊢
    cases hread with
    | start => exact List.forall_mem_singleton.2 (.inl (by decide))
    | finish => exact List.forall_mem_singleton.2 (.inl (by decide))
    | wildcard => exact List.forall_mem_singleton.2 (.inl (by decide))
    | charset => exact Node.readCharset_keeps offset rest
    | escape meaning => exact absurd rfl hbackslash
    | escaped value => exact absurd rfl hbackslash
    | literal special => exact List.forall_mem_singleton.2 (.inr (.head _))

/-! ## Quantifiers and openings -/

/-- Quantifiers are printable. -/
theorem quantifierChars_printable (s : List Char) : AllPrintable (quantifierChars (Quantifier.read? s)) := by
  cases hread : Quantifier.read? s with
  | none => exact AllIn.nil
  | some quantifier =>
    exact (Quantifier.read?_written hread).forall_mem (fun _ => printable_of_isDigit)
      (allPrintable_of_all (by decide))

/-- Of what opens a group, everything that is not printable is in its name. -/
theorem Token.Opening.read_keeps (rest : List Char) :
    AllIn (Among (Opening.read rest).kind.name) (Opening.read rest).marker := by
  unfold Opening.read
  split
  case h_6 more _ _ =>
    split
    next name hname =>
      split
      · exact AllIn.append (AllIn.append (among_of_all (by decide))
          (among_of_subset (List.Subset.refl _))) (among_of_all (by decide))
      · exact among_of_all (by decide)
    next => exact among_of_all (by decide)
  all_goals exact among_of_all (by decide)

/-! ## Patterns -/

namespace Nesting

/-- The letters of what is read, those of the names of open groups, and the text that is left. -/
def stock (n : Nesting) (rest : List Char) : List Char :=
  n.gather View.letters ++ n.groups.flatMap (·.kind.name) ++ rest

variable {n n' : Nesting} {pos pos' : Nat} {s after piece t : List Char}

theorem gather_subset_stock (n : Nesting) (rest : List Char) : n.gather View.letters ⊆ n.stock rest :=
  List.subset_append_of_subset_left _ (List.subset_append_left _ _)

theorem names_subset_stock (level : Level) (groups : List OpenGroup) (anomalies : List Anomaly)
    (rest : List Char) : groups.flatMap (·.kind.name) ⊆ stock ⟨level, groups, anomalies⟩ rest :=
  List.subset_append_of_subset_left _ (List.subset_append_right _ _)

theorem rest_subset_stock (n : Nesting) (rest : List Char) : rest ⊆ n.stock rest :=
  List.subset_append_right _ _

theorem stock_among (hgather : n.gather View.letters ⊆ t) (hnames : n.groups.flatMap (·.kind.name) ⊆ t)
    (hpiece : AllIn (Among t) piece) (hafter : after ⊆ t) : AllIn (Among t) (n.stock (piece ++ after)) :=
  ((among_of_subset hgather).append (among_of_subset hnames)).append (hpiece.append (among_of_subset hafter))

/-- An item keeps its letters. -/
theorem add_stock (n : Nesting) {node : Node} (quantifier : Option Quantifier) (anomalies : List Anomaly)
    (hpiece : AllIn (Among (node.views.flatMap View.letters)) piece) (after : List Char) :
    AllIn (Among (stock ⟨n.level.add (node.quantify quantifier), n.groups, anomalies⟩ after))
      (n.stock (piece ++ after)) :=
  stock_among (fun _ hc => gather_subset_stock _ _ (mem_gather_add.2 (.inl hc))) (names_subset_stock _ _ _ _)
    (hpiece.among_mono fun _ hc => gather_subset_stock _ _ (mem_gather_add.2 (.inr hc)))
    (rest_subset_stock _ _)

/-- A group that is opened keeps its name. -/
theorem open_stock (n : Nesting) (offset : Nat) (kind : GroupKind) (span : Span) (anomalies : List Anomaly)
    (hpiece : AllIn (Among kind.name) piece) (after : List Char) :
    AllIn (Among (stock ⟨.opened offset, ⟨kind, span, n.level⟩ :: n.groups, anomalies⟩ after))
      (n.stock (piece ++ after)) := by
  have hread := gather_subset_stock ⟨.opened offset, ⟨kind, span, n.level⟩ :: n.groups, anomalies⟩ after
  rw [gather_opening gathers_letters] at hread
  obtain ⟨hname, hgroups⟩ := List.append_subset.1
    (names_subset_stock (.opened offset) (⟨kind, span, n.level⟩ :: n.groups) anomalies after)
  exact stock_among hread hgroups (hpiece.among_mono hname) (rest_subset_stock _ _)

/-- A group that is closed keeps its name and what stands in it. -/
theorem close_stock {g : OpenGroup} {more : List OpenGroup} (groups : n.groups = g :: more)
    (ending : List Char) (quantifier : Option Quantifier) (anomalies : List Anomaly)
    (hpiece : AllPrintable piece) (after : List Char) :
    AllIn (Among (stock ⟨g.outside.add ((g.close n.level ending).quantify quantifier), more, anomalies⟩ after))
      (n.stock (piece ++ after)) := by
  refine stock_among (fun _ hc => gather_subset_stock _ _ ((mem_gather_close groups).2 (.inl hc))) ?_
    (among_of_printable hpiece) (rest_subset_stock _ _)
  rw [groups, List.flatMap_cons]
  exact List.append_subset.2 ⟨fun _ hc => gather_subset_stock _ _ ((mem_gather_close groups).2 (.inr hc)),
    names_subset_stock _ _ _ _⟩

/-- Every piece that is read keeps what is not printable. -/
theorem step_stock (effect : n.Effect pos s after n' pos') : AllIn (Among (n'.stock after)) (n.stock s) := by
  have hclosing (rest : List Char) : AllPrintable (')' :: quantifierChars (Quantifier.read? rest)) :=
    List.forall_mem_cons.2 ⟨by decide, quantifierChars_printable rest⟩
  cases effect with
  | bar =>
    have hread := gather_subset_stock ⟨n.level.nextBranch (pos + 1), n.groups, n.anomalies⟩ after
    rw [gather_bar gathers_letters] at hread
    exact stock_among hread (names_subset_stock _ _ _ _) (among_of_all (s := ['|']) (by decide))
      (rest_subset_stock _ _)
  | @opening rest _ marker =>
    have hpiece : AllIn (Among (Token.Opening.read rest).kind.name) ('(' :: (Token.Opening.read rest).marker) :=
      List.forall_mem_cons.2 ⟨.inl (by decide), Token.Opening.read_keeps rest⟩
    have hkept := n.open_stock (pos + 1 + byteLength (Token.Opening.read rest).marker) _
      ⟨'(' :: (Token.Opening.read rest).marker, pos⟩ (n.anomalies ++
        (if (Token.Opening.read rest).nameless then [⟨pos + 1, .unterminatedGroupName⟩] else [])) hpiece after
    rwa [List.cons_append, ← marker] at hkept
  | @closing g more rest _ groups quantifier =>
    have hkept := close_stock groups [')'] (Quantifier.read? rest) (n.anomalies ++ malformedAt (pos + 1) rest)
      (hclosing rest) after
    rwa [List.cons_append, ← quantifier] at hkept
  | @unmatched rest _ groups quantifier =>
    have hliteral : AllIn (Among ((Node.literal ⟨[')'], pos⟩ [')']).views.flatMap View.letters)) _ :=
      among_of_printable (hclosing rest)
    have hkept := n.add_stock (Quantifier.read? rest)
      (n.anomalies ++ [⟨pos, .unmatchedParen⟩] ++ malformedAt (pos + 1) rest) hliteral after
    rwa [List.cons_append, ← quantifier, groups] at hkept
  | @atom c rest behind _ _ _ _ atom quantifier =>
    have hatom := (Token.readAtom_keeps pos c rest).append
      (among_of_printable (quantifierChars_printable behind))
    have hkept := n.add_stock (Quantifier.read? behind) (n.anomalies ++ ((Token.readAtom pos c rest).2 ++
      malformedAt (Token.readAtom pos c rest).1.span.stop behind)) hatom after
    rwa [List.append_assoc, ← quantifier, ← atom] at hkept

end Nesting

/-- Everything of a text that is not printable is among the letters of its tree. -/
theorem Alternation.ofText_keeps (start : Nat) (body : List Char) :
    AllIn (Among ((Alternation.ofText start body).1.views.flatMap View.letters)) body := by
  have hstart : body ⊆ (Nesting.start start).stock body := Nesting.rest_subset_stock _ _
  have hclose {level : Level} {g : OpenGroup} {more : List OpenGroup} {anomalies noted : List Anomaly} :
      AllIn (Among (Nesting.stock ⟨g.outside.add (g.close level []), more, noted⟩ []))
        (Nesting.stock ⟨level, g :: more, anomalies⟩ []) := by
    have hnothing : AllPrintable [] := AllIn.nil
    exact Nesting.close_stock (n := ⟨level, g :: more, anomalies⟩) rfl [] none noted hnothing []
  obtain ⟨level, anomalies, stop, hread, heq⟩ := @Alternation.ofText_eq
    (fun n _ rest => AllIn (Among (n.stock rest)) body)
    (fun effect h => h.among_trans (Nesting.step_stock effect)) (fun h => h.among_trans hclose) start body
    (among_of_subset hstart)
  rw [heq]
  rw [Nesting.stock, Nesting.gather, List.flatMap_nil, List.flatMap_nil, List.append_nil, List.append_nil,
    List.append_nil] at hread
  exact hread

/-- Everything of a pattern that is not printable is among its letters: slashes and flags are. -/
theorem read_keeps (input : List Char) :
    AllIn (Among ((read input).root.alternation.views.flatMap View.letters)) input := by
  have hbody : AllIn (Among ((read input).root.alternation.views.flatMap View.letters))
      (read input).root.alternation.span.text := by
    rw [read_alternation_span, read_alternation]
    exact Alternation.ofText_keeps _ _
  have hslash : AllIn (Among ((read input).root.alternation.views.flatMap View.letters)) ['/'] :=
    among_of_all (by decide)
  have htext : (read input).root.span.text = input := rfl
  obtain ⟨-, ⟨hroot, -⟩ | ⟨hroot, -⟩⟩ := read_root_tiled input
  · rwa [← hroot, htext] at hbody
  · rw [htext] at hroot
    have hflags := fun c hc => (printable_of_isAlpha (read_flags input c hc)).1
    have hparts := ((hslash.append hbody).append hslash).append (among_of_printable hflags)
    rwa [← hroot] at hparts

/-- A character that is not printable is among the letters of a pattern just if it stands in the pattern. -/
theorem mem_letters {input : List Char} {c : Char} (h : ¬ Printable c) :
    c ∈ (read input).root.alternation.views.flatMap View.letters ↔ c ∈ input := by
  have hletters := read_allIn (hasPrintable_among input) (among_of_subset (List.Subset.refl input))
  exact ⟨fun hc => (hletters c hc).resolve_left h, fun hc => (read_keeps input c hc).resolve_left h⟩

end RegexDiagram.Pattern
