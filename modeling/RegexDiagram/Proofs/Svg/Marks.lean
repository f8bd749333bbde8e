import RegexDiagram.Proofs.Svg.Reader

/-!
# Marks

Whatever the reader reads is well marked: a `<` stands only at the front of one of the seven tags and an
ampersand only at the front of one of the five entities (`marked_of_nest`). The lexer loses nothing
(`lex_written`), so a document is what its tokens are written as, and the tokens are well marked one by
one.
-/

namespace RegexDiagram.Svg

/-- What may follow a `<`: the name of a tag and an end of the name, or all of an end tag. -/
def tagMarks : List (List Char) :=
  tagNames.flatMap fun name =>
    [name.toList ++ [' '], name.toList ++ ['/'], name.toList ++ ['>'], '/' :: name.toList ++ ['>']]

/-- What may follow an ampersand. -/
def entityMarks : List (List Char) :=
  ["amp;".toList, "lt;".toList, "gt;".toList, "quot;".toList, "apos;".toList]

/-- One of the marks stands behind every occurrence of a character. -/
def Heads (c : Char) (marks : List (List Char)) (s : List Char) : Prop :=
  ∀ front rest, s = front ++ c :: rest → ∃ mark ∈ marks, mark <+: rest

namespace Heads

variable {c : Char} {marks : List (List Char)} {s t : List Char}

theorem of_not_mem (h : c ∉ s) : Heads c marks s := by
  rintro front rest rfl
  exact absurd (List.mem_append_right front (.head rest)) h

theorem append (h : Heads c marks s) (h' : Heads c marks t) : Heads c marks (s ++ t) := by
  intro front rest heq
  obtain ⟨more, rfl, hrest⟩ | ⟨more, hs, ht⟩ := List.append_eq_append_iff.1 heq
  · exact h' more rest hrest
  · cases more with
    | nil => exact h' [] rest ht.symm
    | cons d more =>
      obtain ⟨rfl, rfl⟩ := List.cons.inj ht
      obtain ⟨mark, hmark, hprefix⟩ := h front more hs
      exact ⟨mark, hmark, hprefix.trans (List.prefix_append _ _)⟩

theorem cons (h : ∃ mark ∈ marks, mark <+: s) (hs : Heads c marks s) : Heads c marks (c :: s) := by
  intro front rest heq
  cases front with
  | nil =>
    obtain rfl := (List.cons.inj heq).2
    exact h
  | cons d front => exact hs front rest (List.cons.inj heq).2

theorem flatMap {α : Type} {f : α → List Char} {xs : List α} (h : ∀ x ∈ xs, Heads c marks (f x)) :
    Heads c marks (xs.flatMap f) := by
  induction xs with
  | nil => exact of_not_mem List.not_mem_nil
  | cons x rest ih =>
    obtain ⟨hx, hrest⟩ := List.forall_mem_cons.1 h
    exact hx.append (ih hrest)

end Heads

/-! ## The lexer loses nothing -/

/-- A token as it is written. -/
def Token.written : Token → List Char
  | .text raw => raw
  | .opening name attributes => '<' :: name ++ writeAttributes attributes ++ ['>']
  | .empty name attributes => '<' :: name ++ writeAttributes attributes ++ ['/', '>']
  | .closing name => '<' :: '/' :: name ++ ['>']

namespace Mode

/-- What has been read since the last token. -/
def written : Mode → List Char
  | .content raw => raw
  | .tag => ['<']
  | .opening name => '<' :: name
  | .closing name => '<' :: '/' :: name
  | .key name attributes word => '<' :: name ++ writeAttributes attributes ++ ' ' :: word
  | .quote name attributes word => '<' :: name ++ writeAttributes attributes ++ ' ' :: word ++ ['=']
  | .value name attributes word raw =>
    '<' :: name ++ writeAttributes attributes ++ ' ' :: word ++ ['=', '"'] ++ raw
  | .after name attributes => '<' :: name ++ writeAttributes attributes
  | .slash name attributes => '<' :: name ++ writeAttributes attributes ++ ['/']

theorem step_written {mode next : Mode} {c : Char} {tokens : List Token}
    (h : mode.step c = some (tokens, next)) :
    mode.written ++ [c] = tokens.flatMap Token.written ++ next.written := by
  cases mode <;> simp only [step] at h <;> split_ifs at h <;>
    obtain ⟨rfl, rfl⟩ := Prod.mk.inj (Option.some.inj h) <;>
    simp_all [written, Token.written, writeAttributes]

/-- A run over one more character is a step and the run behind it. -/
theorem exists_step_of_run_cons {mode last : Mode} {c : Char} {rest : List Char} {tokens : List Token}
    (h : mode.run (c :: rest) = some (tokens, last)) :
    ∃ first next more, mode.step c = some (first, next) ∧ next.run rest = some (more, last) ∧
      tokens = first ++ more := by
  rw [run] at h
  obtain ⟨⟨first, next⟩, hfirst, h⟩ := Option.bind_eq_some_iff.1 h
  obtain ⟨⟨more, last'⟩, hmore, h⟩ := Option.map_eq_some_iff.1 h
  obtain ⟨rfl, rfl⟩ := Prod.mk.inj h
  exact ⟨first, next, more, hfirst, hmore, rfl⟩

theorem run_written {mode last : Mode} {s : List Char} {tokens : List Token}
    (h : mode.run s = some (tokens, last)) :
    mode.written ++ s = tokens.flatMap Token.written ++ last.written := by
  induction s generalizing mode tokens with
  | nil =>
    obtain ⟨rfl, rfl⟩ := Prod.mk.inj (Option.some.inj h)
    exact List.append_nil _
  | cons c rest ih =>
    obtain ⟨first, next, more, hfirst, hmore, rfl⟩ := exists_step_of_run_cons h
    have hstep := step_written hfirst
    have hrest := ih hmore
    rw [List.flatMap_append, List.append_assoc, ← hrest, ← List.append_assoc, ← hstep,
      List.append_assoc]
    rfl

end Mode

/-- A text is what its tokens are written as. -/
theorem lex_written {s : List Char} {tokens : List Token} (h : lex s = some tokens) :
    tokens.flatMap Token.written = s := by
  unfold lex at h
  split at h
  next tokens' heq =>
    obtain rfl := Option.some.inj h
    have hwritten := Mode.run_written heq
    exact (List.append_nil _).symm.trans hwritten.symm
  next => exact nomatch h

/-! ## What the lexer lets through -/

/-- A word: letters only. -/
def Word (s : List Char) : Prop := ∀ c ∈ s, c.isAlpha = true

/-- The names are words, and no value holds a `<` or a quote. -/
def Attributes.Sound (attributes : Attributes) : Prop :=
  ∀ a ∈ attributes, Word a.1 ∧ '<' ∉ a.2 ∧ '"' ∉ a.2

theorem Word.nil : Word [] := fun _ hc => absurd hc List.not_mem_nil

theorem Word.snoc {s : List Char} {c : Char} (hs : Word s) (hc : c.isAlpha = true) : Word (s ++ [c]) :=
  List.forall_mem_append.2 ⟨hs, List.forall_mem_singleton.2 hc⟩

theorem Attributes.sound_nil : Attributes.Sound [] := fun _ ha => absurd ha List.not_mem_nil

def Token.Sound : Token → Prop
  | .text raw => '<' ∉ raw
  | .opening name attributes | .empty name attributes => Word name ∧ attributes.Sound
  | .closing name => Word name

namespace Mode

def Sound : Mode → Prop
  | .content raw => '<' ∉ raw
  | .tag => True
  | .opening name | .closing name => Word name
  | .key name attributes word | .quote name attributes word =>
    Word name ∧ attributes.Sound ∧ Word word
  | .value name attributes word raw =>
    Word name ∧ attributes.Sound ∧ Word word ∧ '<' ∉ raw ∧ '"' ∉ raw
  | .after name attributes | .slash name attributes => Word name ∧ attributes.Sound

theorem step_sound {mode next : Mode} {c : Char} {tokens : List Token} (hmode : mode.Sound)
    (h : mode.step c = some (tokens, next)) : (∀ t ∈ tokens, t.Sound) ∧ next.Sound := by
  have hnone : ∀ t ∈ ([] : List Token), t.Sound := fun t ht => absurd ht List.not_mem_nil
  have hsnoc {s : List Char} {d : Char} (hs : d ∉ s) (hc : c ≠ d) : d ∉ s ++ [c] := fun hd =>
    (List.mem_append.1 hd).elim hs fun hd => hc (List.mem_singleton.1 hd).symm
  cases mode with
  | content raw =>
    simp only [step] at h
    split_ifs at h with hc <;> cases h
    · exact ⟨List.forall_mem_singleton.2 hmode, trivial⟩
    · exact ⟨hnone, hsnoc hmode hc⟩
  | tag =>
    simp only [step] at h
    split_ifs at h with _ hc <;> cases h
    · exact ⟨hnone, .nil⟩
    · exact ⟨hnone, Word.nil.snoc hc⟩
  | opening name =>
    simp only [step] at h
    split_ifs at h with _ _ _ hc <;> cases h
    · exact ⟨hnone, hmode, Attributes.sound_nil, .nil⟩
    · exact ⟨hnone, hmode, Attributes.sound_nil⟩
    · exact ⟨List.forall_mem_singleton.2 ⟨hmode, Attributes.sound_nil⟩, List.not_mem_nil⟩
    · exact ⟨hnone, Word.snoc hmode hc⟩
  | closing name =>
    simp only [step] at h
    split_ifs at h with _ hc <;> cases h
    · exact ⟨List.forall_mem_singleton.2 hmode, List.not_mem_nil⟩
    · exact ⟨hnone, Word.snoc hmode hc⟩
  | key name attributes word =>
    obtain ⟨hname, hattributes, hkey⟩ := hmode
    simp only [step] at h
    split_ifs at h with _ hc <;> cases h
    · exact ⟨hnone, hname, hattributes, hkey⟩
    · exact ⟨hnone, hname, hattributes, hkey.snoc hc⟩
  | quote name attributes word =>
    obtain ⟨hname, hattributes, hkey⟩ := hmode
    simp only [step] at h
    split_ifs at h
    cases h
    exact ⟨hnone, hname, hattributes, hkey, List.not_mem_nil, List.not_mem_nil⟩
  | value name attributes word raw =>
    obtain ⟨hname, hattributes, hkey, hangle, hquote⟩ := hmode
    simp only [step] at h
    split_ifs at h with hc hc' <;> cases h
    · exact ⟨hnone, hname, List.forall_mem_append.2
        ⟨hattributes, List.forall_mem_singleton.2 ⟨hkey, hangle, hquote⟩⟩⟩
    · exact ⟨hnone, hname, hattributes, hkey, hsnoc hangle hc', hsnoc hquote hc⟩
  | after name attributes =>
    obtain ⟨hname, hattributes⟩ := hmode
    simp only [step] at h
    split_ifs at h <;> cases h
    · exact ⟨hnone, hname, hattributes, .nil⟩
    · exact ⟨hnone, hname, hattributes⟩
    · exact ⟨List.forall_mem_singleton.2 ⟨hname, hattributes⟩, List.not_mem_nil⟩
  | slash name attributes =>
    simp only [step] at h
    split_ifs at h
    cases h
    exact ⟨List.forall_mem_singleton.2 hmode, List.not_mem_nil⟩

theorem run_sound {mode last : Mode} {s : List Char} {tokens : List Token} (hmode : mode.Sound)
    (h : mode.run s = some (tokens, last)) : ∀ t ∈ tokens, t.Sound := by
  induction s generalizing mode tokens with
  | nil =>
    obtain ⟨rfl, rfl⟩ := Prod.mk.inj (Option.some.inj h)
    exact fun t ht => absurd ht List.not_mem_nil
  | cons c rest ih =>
    obtain ⟨first, next, more, hfirst, hmore, rfl⟩ := exists_step_of_run_cons h
    obtain ⟨htokens, hnext⟩ := step_sound hmode hfirst
    exact List.forall_mem_append.2 ⟨htokens, ih hnext hmore⟩

end Mode

theorem lex_sound {s : List Char} {tokens : List Token} (h : lex s = some tokens) :
    ∀ t ∈ tokens, t.Sound := by
  unfold lex at h
  split at h
  next tokens' heq =>
    obtain rfl := Option.some.inj h
    have hstart : (Mode.content []).Sound := List.not_mem_nil
    exact Mode.run_sound hstart heq
  next => exact nomatch h

theorem Token.sound_attributes {t : Token} (h : t.Sound) : t.attributes.Sound := by
  cases t with
  | text raw => exact Attributes.sound_nil
  | opening name attributes => exact h.2
  | empty name attributes => exact h.2
  | closing name => exact Attributes.sound_nil

/-! ## What the reader accepts -/

/-- The token has a known name, and its entities are known. -/
def Token.Accepted : Token → Prop
  | .text raw => (decode raw).isSome
  | .opening name attributes | .empty name attributes =>
    (∃ known ∈ tagNames, name = known.toList) ∧ (decodeAttributes attributes).isSome
  | .closing name => ∃ known ∈ tagNames, name = known.toList

/-- Between elements there is nothing to decode. -/
theorem decode_blank {raw : List Char} (h : raw.all (fun c => c = ' ' || c = '\n') = true) :
    (decode raw).isSome := by
  have hescape : escape raw = raw := escape_neutral fun c hc => by
    have hc : c = ' ' ∨ c = '\n' := by simpa using List.all_eq_true.1 h c hc
    obtain rfl | rfl := hc <;> rfl
  rw [← hescape, decode_escape]
  rfl

theorem known_of_contains {names : List (List Char)} {name : List Char}
    (hnames : ∀ n ∈ names, ∃ known ∈ tagNames, n = known.toList) (h : names.contains name = true) :
    ∃ known ∈ tagNames, name = known.toList :=
  hnames name (List.contains_iff_mem.1 h)

theorem known_pairedNames : ∀ n ∈ pairedNames, ∃ known ∈ tagNames, n = known.toList := by decide

theorem known_emptyNames : ∀ n ∈ emptyNames, ∃ known ∈ tagNames, n = known.toList := by decide

theorem accepted_of_step {state next : Open} {t : Token} (h : state.step t = some next) :
    t.Accepted := by
  obtain ⟨frame, around⟩ := state
  cases t with
  | text raw =>
    simp only [Open.step] at h
    split_ifs at h with _ hblank
    · exact decode_blank hblank
    · obtain ⟨text, htext, -⟩ := Option.map_eq_some_iff.1 h
      exact Option.isSome_iff_exists.2 ⟨text, htext⟩
  | opening name attributes =>
    simp only [Open.step] at h
    split_ifs at h with hname
    obtain ⟨decoded, hdecoded, -⟩ := Option.map_eq_some_iff.1 h
    exact ⟨known_of_contains known_pairedNames (Bool.and_eq_true_iff.1 hname).2,
      Option.isSome_iff_exists.2 ⟨decoded, hdecoded⟩⟩
  | empty name attributes =>
    simp only [Open.step] at h
    split_ifs at h with hname
    obtain ⟨decoded, hdecoded, -⟩ := Option.map_eq_some_iff.1 h
    exact ⟨known_of_contains known_emptyNames (Bool.and_eq_true_iff.1 hname).2,
      Option.isSome_iff_exists.2 ⟨decoded, hdecoded⟩⟩
  | closing name =>
    cases around with
    | nil => exact nomatch h
    | cons parent around =>
      simp only [Open.step] at h
      split_ifs at h with hname
      exact known_of_contains known_pairedNames (Bool.and_eq_true_iff.1 hname).2

theorem accepted_of_nest {state last : Open} {tokens : List Token}
    (h : tokens.foldlM Open.step state = some last) : ∀ t ∈ tokens, t.Accepted := by
  induction tokens generalizing state with
  | nil => exact fun t ht => absurd ht List.not_mem_nil
  | cons t rest ih =>
    rw [List.foldlM_cons] at h
    obtain ⟨next, hnext, hrest⟩ := Option.bind_eq_some_iff.1 h
    exact List.forall_mem_cons.2 ⟨accepted_of_step hnext, ih hrest⟩

/-! ## Marks of what is read -/

/-- An entity at the front is one of the marks, and there is no other ampersand in it. -/
theorem heads_entity {entity rest : List Char} (hmark : entity ∈ entityMarks)
    (h : Heads '&' entityMarks rest) : Heads '&' entityMarks ('&' :: (entity ++ rest)) := by
  have hinner : ∀ mark ∈ entityMarks, '&' ∉ mark := by decide
  exact .cons ⟨entity, hmark, List.prefix_append _ _⟩ ((Heads.of_not_mem (hinner entity hmark)).append h)

/-- Where a text can be decoded, every ampersand starts an entity. -/
theorem heads_of_decode {raw : List Char} (h : (decode raw).isSome) : Heads '&' entityMarks raw := by
  induction raw using decode.induct with
  | case1 => exact .of_not_mem List.not_mem_nil
  | case2 rest ih =>
    rw [decode, Option.isSome_map] at h
    exact heads_entity (show "amp;".toList ∈ entityMarks by decide) (ih h)
  | case3 rest ih =>
    rw [decode, Option.isSome_map] at h
    exact heads_entity (show "lt;".toList ∈ entityMarks by decide) (ih h)
  | case4 rest ih =>
    rw [decode, Option.isSome_map] at h
    exact heads_entity (show "gt;".toList ∈ entityMarks by decide) (ih h)
  | case5 rest ih =>
    rw [decode, Option.isSome_map] at h
    exact heads_entity (show "quot;".toList ∈ entityMarks by decide) (ih h)
  | case6 rest ih =>
    rw [decode, Option.isSome_map] at h
    exact heads_entity (show "apos;".toList ∈ entityMarks by decide) (ih h)
  | case7 rest hamp hlt hgt hquot hapos =>
    rw [decode.eq_7 _ _ hamp hlt hgt hquot hapos, if_pos rfl] at h
    exact absurd h Bool.false_ne_true
  | case8 c rest _ _ _ _ _ hc ih =>
    rw [decode_cons hc, Option.isSome_map] at h
    have hfirst : '&' ∉ [c] := fun hmem => hc (List.mem_singleton.1 hmem).symm
    exact (Heads.of_not_mem hfirst).append (ih h)

theorem Word.not_mem {s : List Char} (h : Word s) {c : Char} (hc : c.isAlpha = false) : c ∉ s := by
  intro hmem
  have hletter := h c hmem
  rw [hc] at hletter
  exact Bool.false_ne_true hletter

theorem heads_of_decodeAttributes {attributes : Attributes} (hsound : attributes.Sound)
    (h : (decodeAttributes attributes).isSome) :
    Heads '&' entityMarks (writeAttributes attributes) := by
  induction attributes with
  | nil => exact .of_not_mem List.not_mem_nil
  | cons a rest ih =>
    obtain ⟨⟨hkey, -⟩, hrest⟩ := List.forall_mem_cons.1 hsound
    obtain ⟨decoded, hdecoded⟩ := Option.isSome_iff_exists.1 h
    rw [decodeAttributes] at hdecoded
    obtain ⟨value, hvalue, hdecoded⟩ := Option.bind_eq_some_iff.1 hdecoded
    obtain ⟨others, hothers, -⟩ := Option.map_eq_some_iff.1 hdecoded
    have hblank : '&' ∉ [' '] := by decide
    have hopen : '&' ∉ ['=', '"'] := by decide
    have hclose : '&' ∉ ['"'] := by decide
    have hraw := heads_of_decode (Option.isSome_iff_exists.2 ⟨value, hvalue⟩)
    exact (((((Heads.of_not_mem hblank).append (.of_not_mem (hkey.not_mem rfl))).append
      (.of_not_mem hopen)).append hraw).append (.of_not_mem hclose)).append
        (ih hrest (Option.isSome_iff_exists.2 ⟨others, hothers⟩))

theorem not_mem_writeAttributes {attributes : Attributes} (h : attributes.Sound) :
    '<' ∉ writeAttributes attributes := by
  intro hmem
  obtain ⟨a, ha, hmem⟩ := List.mem_flatMap.1 hmem
  obtain ⟨hkey, hangle, -⟩ := h a ha
  simp only [List.mem_append, List.mem_cons, List.not_mem_nil, or_false] at hmem
  obtain (((hmem | hmem) | hmem | hmem) | hmem) | hmem := hmem
  · exact absurd hmem (by decide)
  · exact hkey.not_mem rfl hmem
  · exact absurd hmem (by decide)
  · exact absurd hmem (by decide)
  · exact hangle hmem
  · exact absurd hmem (by decide)

/-- What is written behind the name of a tag begins with one of the three ends of a name. -/
theorem ends_name (attributes : Attributes) {ending : List Char}
    (h : ending = ['>'] ∨ ending = ['/', '>']) :
    ∃ c ∈ [' ', '/', '>'], ∃ rest, writeAttributes attributes ++ ending = c :: rest := by
  cases attributes with
  | cons a more => exact ⟨' ', .head _, _, rfl⟩
  | nil =>
    obtain rfl | rfl := h
    · exact ⟨'>', by decide, [], rfl⟩
    · exact ⟨'/', by decide, ['>'], rfl⟩

theorem mem_tagMarks : ∀ known ∈ tagNames, '/' :: known.toList ++ ['>'] ∈ tagMarks ∧
    [' ', '/', '>'].all (fun c => known.toList ++ [c] ∈ tagMarks) = true := by decide

/-- A tag starts with a `<` that heads a mark, and there is no other in it. -/
theorem heads_tag {known : String} (hknown : known ∈ tagNames) (hword : Word known.toList)
    {attributes : Attributes} (h : attributes.Sound) {ending : List Char}
    (hend : ending = ['>'] ∨ ending = ['/', '>']) :
    Heads '<' tagMarks ('<' :: known.toList ++ writeAttributes attributes ++ ending) := by
  obtain ⟨c, hc, rest, hrest⟩ := ends_name attributes hend
  have hmark := of_decide_eq_true (List.all_eq_true.1 (mem_tagMarks known hknown).2 c hc)
  have hending : '<' ∉ ending := by obtain rfl | rfl := hend <;> decide
  have hinner : '<' ∉ known.toList ++ (writeAttributes attributes ++ ending) := by
    simp only [List.mem_append, not_or]
    exact ⟨hword.not_mem rfl, not_mem_writeAttributes h, hending⟩
  rw [List.cons_append, List.cons_append, List.append_assoc]
  refine .cons ⟨known.toList ++ [c], hmark, ?_⟩ (.of_not_mem hinner)
  rw [hrest]
  exact List.prefix_append_right_inj _ |>.2 (List.prefix_append [c] rest)

/-- Every `<` in an accepted token starts a tag. -/
theorem Token.heads_tags {t : Token} (hsound : t.Sound) (h : t.Accepted) :
    Heads '<' tagMarks t.written := by
  cases t with
  | text raw => exact .of_not_mem hsound
  | opening name attributes =>
    obtain ⟨⟨known, hknown, rfl⟩, -⟩ := h
    exact heads_tag hknown hsound.1 hsound.2 (.inl rfl)
  | empty name attributes =>
    obtain ⟨⟨known, hknown, rfl⟩, -⟩ := h
    exact heads_tag hknown hsound.1 hsound.2 (.inr rfl)
  | closing name =>
    obtain ⟨known, hknown, rfl⟩ := h
    have hinner : '<' ∉ '/' :: known.toList ++ ['>'] := by
      simp only [List.cons_append, List.mem_cons, List.mem_append, List.not_mem_nil, or_false, not_or]
      exact ⟨by decide, Word.not_mem hsound rfl, by decide⟩
    exact .cons ⟨_, (mem_tagMarks known hknown).1, List.prefix_rfl⟩ (.of_not_mem hinner)

/-- Every ampersand in an accepted token starts an entity. -/
theorem Token.heads_entities {t : Token} (hsound : t.Sound) (h : t.Accepted) :
    Heads '&' entityMarks t.written := by
  have hname {name : List Char} (hword : Word name) : Heads '&' entityMarks ('<' :: name) :=
    .of_not_mem fun hmem => (List.mem_cons.1 hmem).elim (by decide) (hword.not_mem rfl)
  cases t with
  | text raw => exact heads_of_decode h
  | opening name attributes =>
    exact ((hname hsound.1).append (heads_of_decodeAttributes hsound.2 h.2)).append
      (.of_not_mem (by decide))
  | empty name attributes =>
    exact ((hname hsound.1).append (heads_of_decodeAttributes hsound.2 h.2)).append
      (.of_not_mem (by decide))
  | closing name =>
    refine .of_not_mem fun hmem => ?_
    simp only [written, List.cons_append, List.mem_cons, List.mem_append, List.not_mem_nil,
      or_false] at hmem
    obtain hmem | hmem | hmem | hmem := hmem
    · exact absurd hmem (by decide)
    · exact absurd hmem (by decide)
    · exact Word.not_mem hsound rfl hmem
    · exact absurd hmem (by decide)

/-- What nests is well marked. -/
theorem marked_of_nest {s : List Char} {tokens : List Token} {state last : Open}
    (hlex : lex s = some tokens) (hnest : tokens.foldlM Open.step state = some last) :
    Heads '<' tagMarks s ∧ Heads '&' entityMarks s := by
  have hsound := lex_sound hlex
  have haccepted := accepted_of_nest hnest
  rw [← lex_written hlex]
  exact ⟨.flatMap fun t ht => Token.heads_tags (hsound t ht) (haccepted t ht),
    .flatMap fun t ht => Token.heads_entities (hsound t ht) (haccepted t ht)⟩

end RegexDiagram.Svg
