import RegexDiagram.Proofs.Pattern.Atoms
import RegexDiagram.Proofs.Pattern.Gather
import RegexDiagram.Proofs.Pattern.Lossless
import RegexDiagram.Proofs.Text.Plain

/-!
# The letters of a tree

The characters of a pattern that its drawing shows: those of literals, the labels of escapes and the
names of groups. A name is a piece of the pattern, and a number is written in digits; so all of them belong
to every class that has the characters of the pattern and the printable ones (`read_allIn`). In particular
they are printable if the pattern is (`read_letters`).
-/

namespace RegexDiagram.Pattern

/-! ## Letters -/

def Escape.Shown.letters : Escape.Shown → List Char
  | .named meaning => meaning.label
  | .plain c => [c]

/-- The name of a group that has one. -/
def GroupKind.name : GroupKind → List Char
  | .named name => name
  | _ => []

def ClassAtom.letters : ClassAtom → List Char
  | .literal _ value => value
  | .escape _ meaning => meaning.label

/-- The characters that a node has from the pattern, not counting those of the nodes in it. -/
def View.letters : View → List Char
  | .node (.literal _ value) => value
  | .node (.escape _ meaning) => meaning.label
  | .node (.group _ kind _) => kind.name
  | .member (.single atom) => atom.letters
  | _ => []

theorem gathers_letters : Gathers View.letters where
  alternation _ := rfl
  quantified _ _ _ := rfl
  empty _ := rfl

/-- All characters of the text are printable. -/
def AllPrintable (s : List Char) : Prop := ∀ c ∈ s, Printable c

/-- The characters of a given text are tested one by one. -/
theorem allPrintable_of_all {s : List Char} (h : s.all (fun c => Printable c) = true) : AllPrintable s :=
  fun c hc => of_decide_eq_true (List.all_eq_true.1 h c hc)

/-- All characters of the text belong to a class. -/
def AllIn (K : Char → Prop) (s : List Char) : Prop := ∀ c ∈ s, K c

theorem AllIn.nil {K : Char → Prop} : AllIn K [] := fun _ hc => absurd hc List.not_mem_nil

theorem AllIn.append {K : Char → Prop} {s t : List Char} (hs : AllIn K s) (ht : AllIn K t) :
    AllIn K (s ++ t) :=
  List.forall_mem_append.2 ⟨hs, ht⟩

/-- A class of characters that has all printable ones. -/
def HasPrintable (K : Char → Prop) : Prop := ∀ c, Printable c → K c

theorem HasPrintable.all {K : Char → Prop} (hK : HasPrintable K) {s : List Char} (h : AllPrintable s) :
    AllIn K s :=
  fun c hc => hK c (h c hc)

variable {K : Char → Prop}

/-! ## Escapes -/

namespace Escape

/-- What is shown of the escape belongs to the class. -/
def Lettered (e : Escape) (K : Char → Prop) : Prop := AllIn K e.shown.letters

variable {c : Char} {rest : List Char}

theorem plain_lettered (hc : K c) (length : Nat) (trouble : Option Anomaly.Kind) :
    Lettered ⟨.plain c, length, trouble⟩ K :=
  List.forall_mem_singleton.2 hc

theorem identity_lettered (hc : K c) : (identity c).Lettered K := by
  unfold identity
  split
  · exact plain_lettered hc _ _
  · exact plain_lettered hc _ _

theorem incomplete_lettered (hc : K c) : (incomplete c).Lettered K := plain_lettered hc _ _

section Labels

variable (hK : HasPrintable K)
include hK

/-- A label with a prefix of its own. -/
theorem named_lettered {meaning : Meaning} {front back : List Char} (length : Nat)
    (hlabel : meaning.label = front ++ back) (hfront : front.all (fun c => Printable c) = true)
    (hback : AllIn K back) : (named meaning length).Lettered K := by
  rw [Lettered, named, Shown.letters, hlabel]
  exact List.forall_mem_append.2 ⟨hK.all (allPrintable_of_all hfront), hback⟩

theorem octal_lettered (code length : Nat) : (named (.octal code) length).Lettered K :=
  named_lettered hK length rfl (by decide) fun c hc => hK c (toDigits_seen 8 code c hc).1

theorem zero_lettered (rest : List Char) : (zero rest).Lettered K := by
  unfold zero
  simp only
  split
  · exact hK.all (allPrintable_of_all (by decide))
  · exact octal_lettered hK _ _

omit hK in
/-- A name is a piece of the text in front of its end. -/
theorem before_allIn {stop : Char} {name : List Char} (hrest : AllIn K rest)
    (h : before? stop rest = some name) : AllIn K name := by
  obtain ⟨behind, rfl⟩ := eq_append_of_before? h
  exact fun c hc => hrest c (List.mem_append_left _ hc)

theorem namedBackReference_lettered (hrest : AllIn K rest) :
    (namedBackReference rest).Lettered K := by
  have hletter : (incomplete 'k').Lettered K := incomplete_lettered (hK _ (by decide))
  unfold namedBackReference
  split
  next body =>
    split
    next name hname =>
      split
      · exact hletter
      · have hbody := before_allIn (fun c hc => hrest c (.tail _ hc)) hname
        refine named_lettered hK _ (List.append_assoc _ _ _) (by decide) ?_
        exact List.forall_mem_append.2 ⟨hbody, List.forall_mem_singleton.2 (hK _ (by decide))⟩
    next => exact hletter
  next => exact hletter

theorem control_lettered (rest : List Char) : (control rest).Lettered K := by
  have hletter : (incomplete 'c').Lettered K := incomplete_lettered (hK _ (by decide))
  unfold control
  split
  next letter _ =>
    split
    next halpha =>
      have hupper := (printable_of_isAlpha halpha).1.toUpper
      exact named_lettered hK _ rfl (by decide) (List.forall_mem_singleton.2 (hK _ hupper))
    next => exact hletter
  next => exact hletter

theorem hex_lettered (rest : List Char) : (hex rest).Lettered K := by
  unfold hex
  simp only
  split
  · exact named_lettered hK _ rfl (by decide) (hK.all (upperHex_printable 2 _))
  · exact incomplete_lettered (hK _ (by decide))

theorem unicode_lettered (rest : List Char) : (unicode rest).Lettered K := by
  unfold unicode
  split
  all_goals
    simp only
    split
    · exact named_lettered hK _ rfl (by decide) (hK.all (upperHex_printable 4 _))
    · exact incomplete_lettered (hK _ (by decide))

theorem property_lettered (negated : Bool) (hrest : AllIn K rest) :
    (property negated rest).Lettered K := by
  have hletter : (incomplete (property.letter negated)).Lettered K :=
    incomplete_lettered (hK _ (by cases negated <;> decide))
  unfold property
  split
  next body =>
    split
    next name hname =>
      split
      · exact hletter
      · have hbody := before_allIn (fun c hc => hrest c (.tail _ hc)) hname
        cases negated
        · exact named_lettered hK _ rfl (by decide) hbody
        · exact named_lettered hK _ rfl (by decide) hbody
    next => exact hletter
  next => exact hletter

theorem letterMeaning_lettered {meaning : Meaning} (h : letterMeaning? c = some meaning) :
    (named meaning 1).Lettered K := by
  unfold letterMeaning? at h
  split at h <;> cases h <;> exact hK.all (allPrintable_of_all (by decide))

theorem shared_lettered (hc : K c) (hrest : AllIn K rest) : (shared c rest).Lettered K :=
  shared_cases (P := fun c e => K c → e.Lettered K) (fun hmeaning _ => letterMeaning_lettered hK hmeaning)
    (fun _ => zero_lettered hK rest) (fun _ => control_lettered hK rest) (fun _ => hex_lettered hK rest)
    (fun _ => unicode_lettered hK rest) (fun negated _ => property_lettered hK negated hrest)
    (fun _ hc => identity_lettered hc) c hc

/-- What is shown of an escape has the characters of the pattern and printable ones. -/
theorem outside_lettered {s : List Char} (h : AllIn K s) : (outside s).Lettered K := by
  cases s with
  | nil => exact plain_lettered (hK _ (by decide)) _ _
  | cons c rest =>
    obtain ⟨hc, hrest⟩ := List.forall_mem_cons.1 h
    rw [outside]
    split
    · exact hK.all (allPrintable_of_all (by decide))
    split
    · exact hK.all (allPrintable_of_all (by decide))
    split
    · exact namedBackReference_lettered hK hrest
    split
    · exact named_lettered hK _ rfl (by decide) (List.forall_mem_singleton.2 hc)
    · exact shared_lettered hK hc hrest

/-- The same in a class. -/
theorem inside_lettered {s : List Char} (h : AllIn K s) : (inside s).Lettered K := by
  cases s with
  | nil => exact plain_lettered (hK _ (by decide)) _ _
  | cons c rest =>
    obtain ⟨hc, hrest⟩ := List.forall_mem_cons.1 h
    rw [inside]
    split
    · exact hK.all (allPrintable_of_all (by decide))
    split
    · exact plain_lettered (hK _ (by decide)) _ _
    split
    · exact octal_lettered hK _ _
    · exact shared_lettered hK hc hrest

end Labels

end Escape

/-! ## Atoms -/

section Atoms

variable (hK : HasPrintable K)
include hK

theorem Token.readEscape_letters (offset : Nat) {rest : List Char} (h : AllIn K rest) :
    AllIn K ((readEscape offset rest).1.views.flatMap View.letters) := by
  have hletters : (readEscape offset rest).1.views.flatMap View.letters =
      (Escape.outside rest).shown.letters := by
    unfold readEscape
    simp only
    cases (Escape.outside rest).shown <;> exact List.append_nil _
  rw [hletters]
  exact Escape.outside_lettered hK h

theorem ClassAtom.read_letters (offset : Nat) {c : Char} {rest : List Char} (hc : K c)
    (hrest : AllIn K rest) : AllIn K (ClassAtom.read offset c rest).atom.letters := by
  unfold ClassAtom.read
  split
  · have hletters := Escape.inside_lettered hK hrest
    unfold Escape.Lettered at hletters
    simp only
    cases hshown : (Escape.inside rest).shown with
    | named meaning =>
      rw [hshown] at hletters
      exact hletters
    | plain value =>
      rw [hshown] at hletters
      exact hletters
  · exact List.forall_mem_singleton.2 hc

theorem Member.read_letters (offset : Nat) {c : Char} {rest : List Char} (hc : K c)
    (hrest : AllIn K rest) :
    AllIn K ((Member.read offset c rest).1.views.flatMap View.letters) := by
  have hfirst := ClassAtom.read_letters hK offset hc hrest
  obtain hread | ⟨d, more, stop, -, hdrop, -, hread⟩ := Member.read_cases offset c rest
  · rw [hread]
    exact List.forall_mem_append.2 ⟨hfirst, AllIn.nil⟩
  · have hbehind : AllIn K ('-' :: d :: more) :=
      fun e he => hrest e (List.mem_of_mem_drop (hdrop ▸ he))
    obtain ⟨-, hd, hmore⟩ := List.forall_mem_cons.1 hbehind |>.imp_right List.forall_mem_cons.1
    rw [hread]
    exact List.forall_mem_append.2 ⟨AllIn.nil, List.forall_mem_append.2 ⟨hfirst,
      List.forall_mem_append.2 ⟨ClassAtom.read_letters hK stop hd hmore, AllIn.nil⟩⟩⟩

theorem ClassBody.read_letters (offset : Nat) {s : List Char} (h : AllIn K s) :
    AllIn K (((ClassBody.read offset s).members.flatMap Member.views).flatMap View.letters) := by
  fun_induction ClassBody.read offset s with
  | case1 => exact AllIn.nil
  | case2 => exact AllIn.nil
  | case3 offset c rest hc member noted hread text body ih =>
    obtain ⟨hfirst, hrest⟩ := List.forall_mem_cons.1 h
    have hmember := Member.read_letters hK offset hfirst hrest
    rw [hread] at hmember
    rw [List.flatMap_cons, List.flatMap_append]
    exact List.forall_mem_append.2 ⟨hmember, ih fun d hd => hrest d (List.mem_of_mem_drop hd)⟩

theorem Node.readCharset_letters (offset : Nat) {rest : List Char} (h : AllIn K rest) :
    AllIn K ((Node.readCharset offset rest).1.views.flatMap View.letters) := by
  obtain ⟨negated, inner, body, hinner, hbody, hread⟩ := Node.readCharset_cases offset rest
  have hwhole : AllIn K ('[' :: rest) := List.forall_mem_cons.2 ⟨hK _ (by decide), h⟩
  rw [hinner] at hwhole
  have hmembers := ClassBody.read_letters hK (offset + byteLength (charsetStart negated))
    (List.forall_mem_append.1 hwhole).2
  rw [hread, hbody]
  exact hmembers

/-- What an atom shows has the characters of the pattern and printable ones. -/
theorem Token.readAtom_letters (offset : Nat) {c : Char} {rest : List Char} (hc : K c)
    (hrest : AllIn K rest) :
    AllIn K ((readAtom offset c rest).1.views.flatMap View.letters) := by
  by_cases hbackslash : c = '\\'
  · subst hbackslash
    exact readEscape_letters hK offset hrest
  · have hread := readAtom_cases offset c rest
    generalize readAtom offset c rest = read at hread ⊢
    cases hread with
    | start => exact AllIn.nil
    | finish => exact AllIn.nil
    | wildcard => exact AllIn.nil
    | charset => exact Node.readCharset_letters hK offset hrest
    | escape meaning => exact absurd rfl hbackslash
    | escaped value => exact absurd rfl hbackslash
    | literal special => exact List.forall_mem_append.2 ⟨List.forall_mem_singleton.2 hc, AllIn.nil⟩

end Atoms

theorem Token.Opening.read_letters {rest : List Char} (h : AllIn K rest) :
    AllIn K (Opening.read rest).kind.name := by
  unfold Opening.read
  split
  case h_6 more _ _ =>
    have hmore : AllIn K more := fun c hc => h c (.tail _ (.tail _ hc))
    split
    next name hname =>
      split
      · exact Escape.before_allIn hmore hname
      · exact AllIn.nil
    next => exact AllIn.nil
  all_goals exact AllIn.nil

/-! ## Patterns -/

namespace Nesting

variable {n : Nesting} {quantifier : Option Quantifier} {anomalies : List Anomaly} {c : Char}

/-- An item adds its own letters. -/
theorem mem_gather_add {node : Node} :
    c ∈ gather View.letters ⟨n.level.add (node.quantify quantifier), n.groups, anomalies⟩ ↔
      c ∈ n.gather View.letters ∨ c ∈ node.views.flatMap View.letters := by
  have hperm : (gather View.letters ⟨n.level.add (node.quantify quantifier), n.groups, anomalies⟩).Perm
      (n.gather View.letters ++ ([] ++ node.views.flatMap View.letters)) :=
    gather_add gathers_letters n (.refl []) anomalies
  rw [hperm.mem_iff, List.mem_append, List.nil_append]

/-- A group that is closed adds its name. -/
theorem mem_gather_close {g : OpenGroup} {more : List OpenGroup} (groups : n.groups = g :: more)
    {ending : List Char} :
    c ∈ gather View.letters
        ⟨g.outside.add ((g.close n.level ending).quantify quantifier), more, anomalies⟩ ↔
      c ∈ n.gather View.letters ∨ c ∈ g.kind.name := by
  have hperm : (gather View.letters
      ⟨g.outside.add ((g.close n.level ending).quantify quantifier), more, anomalies⟩).Perm
        (n.gather View.letters ++ ([] ++ g.kind.name)) :=
    gather_close gathers_letters groups (.refl []) anomalies
  rw [hperm.mem_iff, List.mem_append, List.nil_append]

end Nesting

/-- What is read of a pattern belongs to the class, and so does what is left of it. -/
structure Nesting.Lettered (K : Char → Prop) (n : Nesting) (rest : List Char) : Prop where
  read : AllIn K (n.gather View.letters)
  groups : ∀ g ∈ n.groups, AllIn K g.kind.name
  rest : AllIn K rest

namespace Nesting.Lettered

variable {n n' : Nesting} {pos pos' : Nat} {s after : List Char}

theorem at_start (start : Nat) {body : List Char} (h : AllIn K body) :
    (Nesting.start start).Lettered K body where
  read := by
    rw [gather_start gathers_letters]
    exact AllIn.nil
  groups := fun g hg => absurd hg List.not_mem_nil
  rest := h

/-- The characters behind a piece are among those from the piece on. -/
theorem behind {text : List Char} (h : AllIn K (text ++ after)) : AllIn K after :=
  (List.forall_mem_append.1 h).2

/-- An item adds its own letters. -/
theorem add (h : n.Lettered K s) {node : Node} {quantifier : Option Quantifier}
    (hnode : AllIn K (node.views.flatMap View.letters)) (anomalies : List Anomaly)
    (hafter : AllIn K after) :
    Nesting.Lettered K ⟨n.level.add (node.quantify quantifier), n.groups, anomalies⟩ after where
  read c hc := (mem_gather_add.1 hc).elim (h.read c) (hnode c)
  groups := h.groups
  rest := hafter

/-- A group that is closed adds its name. -/
theorem close (h : n.Lettered K s) {g : OpenGroup} {more : List OpenGroup} (hgroups : n.groups = g :: more)
    (ending : List Char) (quantifier : Option Quantifier) (anomalies : List Anomaly)
    (hafter : AllIn K after) :
    Nesting.Lettered K
      ⟨g.outside.add ((g.close n.level ending).quantify quantifier), more, anomalies⟩ after := by
  have hnames := h.groups
  rw [hgroups] at hnames
  obtain ⟨hname, hmore⟩ := List.forall_mem_cons.1 hnames
  exact ⟨fun c hc => ((mem_gather_close hgroups).1 hc).elim (h.read c) (hname c), hmore, hafter⟩

/-- Every piece that is read keeps it so. -/
theorem step (hK : HasPrintable K) (effect : n.Effect pos s after n' pos') (h : n.Lettered K s) : n'.Lettered K after := by
  obtain ⟨hfirst, hbehind⟩ : (∀ c ∈ s.head?, K c) ∧ AllIn K s.tail :=
    ⟨fun c hc => h.rest c (List.mem_of_head? hc), fun c hc => h.rest c (List.mem_of_mem_tail hc)⟩
  cases effect with
  | bar =>
    refine ⟨?_, h.groups, hbehind⟩
    rw [gather_bar gathers_letters]
    exact h.read
  | @opening rest _ marker =>
    refine ⟨?_, List.forall_mem_cons.2 ⟨Token.Opening.read_letters hbehind, h.groups⟩, ?_⟩
    · rw [gather_opening gathers_letters]
      exact h.read
    · rw [List.tail_cons, marker] at hbehind
      exact behind hbehind
  | @closing g more rest _ groups quantifier =>
    rw [List.tail_cons, quantifier] at hbehind
    exact h.close groups _ _ _ (behind hbehind)
  | @unmatched rest _ groups quantifier =>
    rw [List.tail_cons, quantifier] at hbehind
    have hnode : AllIn K ((Node.literal ⟨[')'], pos⟩ [')']).views.flatMap View.letters) :=
      List.forall_mem_append.2 ⟨List.forall_mem_singleton.2 (hK _ (by decide)), AllIn.nil⟩
    rw [← groups]
    exact h.add hnode _ (behind hbehind)
  | @atom c rest behind _ _ _ _ atom quantifier =>
    have hall := h.rest
    have hnode := Token.readAtom_letters hK pos (hall c (.head _)) hbehind
    rw [atom, quantifier] at hall
    exact h.add hnode _ (Nesting.Lettered.behind (Nesting.Lettered.behind hall))

end Nesting.Lettered

/-- What is shown of a text has its characters and printable ones. -/
theorem Alternation.ofText_letters (hK : HasPrintable K) (start : Nat) {body : List Char} (h : AllIn K body) :
    AllIn K ((Alternation.ofText start body).1.views.flatMap View.letters) := by
  obtain ⟨level, anomalies, stop, hread, heq⟩ := @Alternation.ofText_eq (fun n _ rest => n.Lettered K rest)
    (Nesting.Lettered.step hK) (fun h => h.close rfl [] none _ AllIn.nil) start body
    (Nesting.Lettered.at_start start h)
  have hletters := hread.read
  rw [heq]
  rw [Nesting.gather, List.flatMap_nil, List.append_nil] at hletters
  exact hletters

/-- What a pattern shows has its characters and printable ones. -/
theorem read_allIn (hK : HasPrintable K) {input : List Char} (h : AllIn K input) :
    AllIn K ((read input).root.alternation.views.flatMap View.letters) := by
  rw [read_alternation]
  refine Alternation.ofText_letters hK _ ?_
  unfold bodySpan
  cases hform : LiteralForm.read? input with
  | none => exact h
  | some form =>
    rw [LiteralForm.eq_of_read? hform] at h
    exact fun c hc => h c (List.mem_append_left _ (List.mem_append_left _ (List.mem_append_right _ hc)))

/-- What a printable pattern shows is printable. -/
theorem read_letters {input : List Char} (h : AllPrintable input) :
    AllPrintable ((read input).root.alternation.views.flatMap View.letters) :=
  read_allIn (fun _ hc => hc) h

/-- Flags are letters. -/
theorem read_flags (input : List Char) : ∀ c ∈ (read input).root.flags, c.isAlpha = true := by
  have hflags (form : LiteralForm) (h : LiteralForm.read? input = some form) :
      ∀ c ∈ form.flags, c.isAlpha = true := by
    unfold LiteralForm.read? at h
    split at h
    · simp only at h
      split at h
      · split at h
        next halpha =>
          cases h
          exact List.all_eq_true.1 halpha
        next => exact nomatch h
      · exact nomatch h
    · exact nomatch h
  unfold read
  cases hform : LiteralForm.read? input with
  | none => exact fun c hc => absurd hc List.not_mem_nil
  | some form => exact hflags form hform

end RegexDiagram.Pattern
