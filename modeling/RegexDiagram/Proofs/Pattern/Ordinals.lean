import RegexDiagram.Proofs.Pattern.Built
import RegexDiagram.Proofs.Text.Numerals
import RegexDiagram.Proofs.Text.Plain

/-!
# Characters by number

An escape can name a character by its number, in base eight or sixteen, or by the letter of a control
character. `Numbered` lists the ways to write such an escape with the number and the label that belong to it,
without the readers; `read_numbered` says that every escape with a number is one of them. How many digits an
escape takes depends on what stands behind it, so the list speaks of that as well.

`read_ordinal_le` bounds the numbers. They are numbers of characters with one exception: digits in braces
may go beyond the last one.
-/

namespace RegexDiagram

/-! ## Digits -/

theorem digitValue_lt_of_isOctalDigit {c : Char} (h : isOctalDigit c = true) : digitValue c < 8 :=
  forall_printable (P := fun c => isOctalDigit c = true → digitValue c < 8) (by decide)
    (printable_of_isOctalDigit h) h

theorem isOctalDigit_of_between {c : Char} (hlow : '1' ≤ c) (hhigh : c ≤ '7') : isOctalDigit c = true :=
  Bool.and_eq_true_iff.2 ⟨decide_eq_true (Char.le_trans (by decide) hlow), decide_eq_true hhigh⟩

theorem digitValue_lt_of_isHexDigit {c : Char} (h : isHexDigit c = true) : digitValue c < 16 :=
  forall_printable (P := fun c => isHexDigit c = true → digitValue c < 16) (by decide)
    (printable_of_isHexDigit h) h

/-- A control letter has the same number in either case. -/
theorem toUpper_ordinal {c : Char} (h : c.isAlpha = true) : c.toUpper.toNat % 32 = c.toNat % 32 :=
  forall_printable (P := fun c => c.isAlpha = true → c.toUpper.toNat % 32 = c.toNat % 32) (by decide)
    (printable_of_isAlpha h).1 h

/-- All octal digits up to three that stand in front of the text. -/
structure IsOctalRun (digits after : List Char) : Prop where
  digit : ∀ c ∈ digits, isOctalDigit c = true
  short : digits.length ≤ 3
  maximal : digits.length = 3 ∨ ∀ c ∈ after.head?, isOctalDigit c = false

theorem isOctalRun_leading (s : List Char) :
    IsOctalRun (leading 3 isOctalDigit s) (s.drop (leading 3 isOctalDigit s).length) :=
  ⟨leading_all _ _ _, length_leading_le_bound _ _ _, leading_maximal _ _ _⟩

theorem IsOctalRun.value_lt {digits after : List Char} (h : IsOctalRun digits after) :
    numeralValue 8 digits < 512 :=
  Nat.lt_of_lt_of_le (numeralValue_lt fun c hc => digitValue_lt_of_isOctalDigit (h.digit c hc))
    (Nat.pow_le_pow_right (by decide) h.short : Nat.pow 8 digits.length ≤ Nat.pow 8 3)

/-- Digits of base sixteen. -/
def IsHex (digits : List Char) : Prop := ∀ c ∈ digits, isHexDigit c = true

theorem IsHex.value_lt {digits : List Char} (h : IsHex digits) {width : Nat} (hlength : digits.length ≤ width) :
    numeralValue 16 digits < Nat.pow 16 width :=
  Nat.lt_of_lt_of_le (numeralValue_lt fun c hc => digitValue_lt_of_isHexDigit (h c hc))
    (Nat.pow_le_pow_right (by decide) hlength)

namespace Pattern

/-! ## Escapes with a number -/

/-- The ways to write an escape with a number: its text and what stands behind it in the pattern, its number
and its label. In a class there is one way more. -/
inductive Numbered (inClass : Bool) : List Char → List Char → Nat → List Char → Prop
  | null {after} : IsOctalRun [] after → Numbered inClass ['\\', '0'] after 0 "null".toList
  | zero {digits after shown} : digits ≠ [] → IsOctalRun digits after →
    IsNumeral 8 1 shown (numeralValue 8 digits) →
    Numbered inClass (['\\', '0'] ++ digits) after (numeralValue 8 digits) ("0o".toList ++ shown)
  | octal {first digits after shown} : inClass = true → '1' ≤ first → first ≤ '7' →
    IsOctalRun (first :: digits) after → IsNumeral 8 1 shown (numeralValue 8 (first :: digits)) →
    Numbered inClass (['\\', first] ++ digits) after (numeralValue 8 (first :: digits)) ("0o".toList ++ shown)
  | hex {digits after shown} : IsHex digits → digits.length = 2 →
    IsNumeral 16 2 shown (numeralValue 16 digits) → shown.length = 2 →
    Numbered inClass (['\\', 'x'] ++ digits) after (numeralValue 16 digits) ("0x".toList ++ shown)
  | unicode {digits after shown} : IsHex digits → digits.length = 4 →
    IsNumeral 16 4 shown (numeralValue 16 digits) →
    Numbered inClass (['\\', 'u'] ++ digits) after (numeralValue 16 digits) ("U+".toList ++ shown)
  | braces {digits after shown} : IsHex digits → 1 ≤ digits.length → digits.length ≤ 6 →
    IsNumeral 16 4 shown (numeralValue 16 digits) →
    Numbered inClass (['\\', 'u', '\x7b'] ++ digits ++ ['\x7d']) after (numeralValue 16 digits)
      ("U+".toList ++ shown)
  | control {letter after} : letter.isAlpha = true →
    Numbered inClass ['\\', 'c', letter] after (letter.toNat % 32) ("ctrl-".toList ++ [letter.toUpper])

namespace Escape

/-- If the escape at the front of a text has a number, it is written in one of the ways. -/
def Numbers (inClass : Bool) (s : List Char) (e : Escape) : Prop :=
  ∀ meaning, e.shown = .named meaning → ∀ n ∈ meaning.ordinal,
    Numbered inClass ('\\' :: s.take e.length) (s.drop e.length) n meaning.label

variable {inClass : Bool}

theorem plain_numbers (s : List Char) (c : Char) (length : Nat) (trouble : Option Anomaly.Kind) :
    Numbers inClass s ⟨.plain c, length, trouble⟩ :=
  fun _ h => absurd h Shown.noConfusion

theorem identity_numbers (c : Char) (s : List Char) : (identity c).Numbers inClass s := by
  unfold identity
  split <;> exact plain_numbers _ _ _ _

/-- A named escape without a number. -/
theorem named_numbers {meaning : Meaning} (h : meaning.ordinal = none) (s : List Char) (length : Nat) :
    (named meaning length).Numbers inClass s := by
  rintro _ hshown n hn
  obtain rfl := Shown.named.inj hshown
  exact absurd (h ▸ hn) (Option.not_mem_none n)

theorem numbered_numbers {meaning : Meaning} {n length : Nat} {s : List Char} (hn : meaning.ordinal = some n)
    (h : Numbered inClass ('\\' :: s.take length) (s.drop length) n meaning.label) :
    (named meaning length).Numbers inClass s := by
  rintro _ hshown m hm
  obtain rfl := Shown.named.inj hshown
  obtain rfl := Option.some.inj (hn.symm.trans hm)
  exact h

/-- An escape of digits behind a letter. -/
theorem digits_numbers {meaning : Meaning} {n limit : Nat} {p : Char → Bool} {c : Char} {s : List Char}
    (hn : meaning.ordinal = some n)
    (h : Numbered inClass ('\\' :: c :: leading limit p s) (s.drop (leading limit p s).length) n
      meaning.label) :
    (named meaning ((leading limit p s).length + 1)).Numbers inClass (c :: s) := by
  refine numbered_numbers hn ?_
  rw [List.take_succ_cons, take_leading, List.drop_succ_cons]
  exact h

/-! ## The readers -/

theorem letterMeaning_ordinal {c : Char} {meaning : Meaning} (h : letterMeaning? c = some meaning) :
    meaning.ordinal = none := by
  unfold letterMeaning? at h
  split at h
  all_goals first | exact absurd h (Option.some_ne_none _).symm | exact Option.some.inj h ▸ rfl

theorem zero_numbers (rest : List Char) : (zero rest).Numbers inClass ('0' :: rest) := by
  have hrun := isOctalRun_leading rest
  unfold zero
  simp only
  split
  next hnone =>
    rw [hnone] at hrun
    exact numbered_numbers rfl (.null hrun)
  next hsome => exact digits_numbers rfl (.zero hsome hrun (isNumeral_octal _))

/-- A digit between one and seven begins a run of octal digits. -/
theorem octal_numbers {c : Char} (hlow : '1' ≤ c) (hhigh : c ≤ '7') (rest : List Char) :
    (octal (c :: rest)).Numbers true (c :: rest) := by
  have hcons : leading 3 isOctalDigit (c :: rest) = c :: leading 2 isOctalDigit rest := by
    rw [leading, List.take_succ_cons, List.takeWhile_cons_of_pos (isOctalDigit_of_between hlow hhigh)]
    rfl
  have hrun := isOctalRun_leading (c :: rest)
  refine numbered_numbers rfl ?_
  rw [take_leading]
  rw [hcons] at hrun ⊢
  exact .octal rfl hlow hhigh hrun (isNumeral_octal _)

theorem control_numbers (rest : List Char) : (control rest).Numbers inClass ('c' :: rest) := by
  unfold control
  split
  next letter more =>
    split
    next halpha =>
      exact numbered_numbers (congrArg some (toUpper_ordinal halpha)) (.control halpha)
    next => exact plain_numbers _ _ _ _
  next => exact plain_numbers _ _ _ _

theorem hex_numbers (rest : List Char) : (hex rest).Numbers inClass ('x' :: rest) := by
  unfold hex
  simp only
  split
  next htwo =>
    have hdigits : IsHex (leading 2 isHexDigit rest) := leading_all _ _ _
    have hless := numeralValue_lt fun c hc => digitValue_lt_of_isHexDigit (hdigits c hc)
    rw [htwo] at hless
    have hnumbers : (named (.hex (numeralValue 16 (leading 2 isHexDigit rest)))
        ((leading 2 isHexDigit rest).length + 1)).Numbers inClass ('x' :: rest) :=
      digits_numbers rfl
        (.hex hdigits htwo (isNumeral_upperHex (by decide) _) (length_upperHex (by decide) hless))
    rwa [htwo] at hnumbers
  next => exact plain_numbers _ _ _ _

theorem unicode_numbers (rest : List Char) : (unicode rest).Numbers inClass ('u' :: rest) := by
  unfold unicode
  split
  next body =>
    simp only
    split
    next hclosed =>
      obtain ⟨hsome, hbrace⟩ := hclosed
      have hdigits : IsHex (leading 6 isHexDigit body) := leading_all _ _ _
      have hlength := length_leading_le_bound 6 isHexDigit body
      obtain ⟨more, hmore⟩ := List.head?_eq_some_iff.1 hbrace
      have hbody := List.prefix_iff_eq_append.1 (leading_isPrefix 6 isHexDigit body)
      rw [hmore] at hbody
      generalize leading 6 isHexDigit body = digits at *
      subst hbody
      refine numbered_numbers rfl ?_
      have htake : ('u' :: '\x7b' :: (digits ++ '\x7d' :: more)).take (digits.length + 3) =
          ['u', '\x7b'] ++ digits ++ ['\x7d'] := by
        rw [List.take_succ_cons, List.take_succ_cons, List.take_length_add_append]
        rfl
      rw [htake]
      exact .braces hdigits (List.length_pos_of_ne_nil hsome) hlength (isNumeral_upperHex (by decide) _)
    next => exact plain_numbers _ _ _ _
  next =>
    simp only
    split
    next hfour =>
      have hnumbers : (named (.unicode (numeralValue 16 (leading 4 isHexDigit rest)))
          ((leading 4 isHexDigit rest).length + 1)).Numbers inClass ('u' :: rest) :=
        digits_numbers rfl (.unicode (leading_all _ _ _) hfour (isNumeral_upperHex (by decide) _))
      rwa [hfour] at hnumbers
    next => exact plain_numbers _ _ _ _

theorem property_numbers (negated : Bool) (s rest : List Char) :
    (property negated rest).Numbers inClass s := by
  unfold property
  split
  · split
    · split
      · exact plain_numbers _ _ _ _
      · exact named_numbers rfl _ _
    · exact plain_numbers _ _ _ _
  · exact plain_numbers _ _ _ _

theorem namedBackReference_numbers (s rest : List Char) :
    (namedBackReference rest).Numbers inClass s := by
  unfold namedBackReference
  split
  · split
    · split
      · exact plain_numbers _ _ _ _
      · exact named_numbers rfl _ _
    · exact plain_numbers _ _ _ _
  · exact plain_numbers _ _ _ _

theorem shared_numbers (c : Char) (rest : List Char) : (shared c rest).Numbers inClass (c :: rest) :=
  shared_cases (P := fun c e => e.Numbers inClass (c :: rest))
    (fun h => named_numbers (letterMeaning_ordinal h) _ _) (zero_numbers rest) (control_numbers rest)
    (hex_numbers rest) (unicode_numbers rest) (fun negated => property_numbers negated _ rest)
    (fun c => identity_numbers c _) c

/-- Outside a class. -/
theorem outside_numbers (s : List Char) : (outside s).Numbers false s := by
  cases s with
  | nil => exact plain_numbers _ _ _ _
  | cons c rest =>
    rw [outside]
    split_ifs
    · exact named_numbers rfl _ _
    · exact named_numbers rfl _ _
    · exact namedBackReference_numbers _ rest
    · exact named_numbers rfl _ _
    · exact shared_numbers c rest

/-- In a class. -/
theorem inside_numbers (s : List Char) : (inside s).Numbers true s := by
  cases s with
  | nil => exact plain_numbers _ _ _ _
  | cons c rest =>
    rw [inside]
    split_ifs with hb hB hdigit
    · exact named_numbers rfl _ _
    · exact plain_numbers _ _ _ _
    · exact octal_numbers hdigit.1 hdigit.2 rest
    · exact shared_numbers c rest

end Escape

/-! ## Patterns -/

/-- A member of a class, or an end of a range in one. -/
def View.inClass : View → Bool
  | .member _ => true
  | _ => false

/-- If the node is an escape with a number, it is written in one of the ways, at its place in the pattern. -/
def View.Numbers (body : Span) (v : View) : Prop :=
  ∀ meaning ∈ v.meaning?, ∀ n ∈ meaning.ordinal,
    Numbered v.inClass v.span.text (body.onward v.span.stop) n meaning.label

theorem View.numbers_of_meaning {body : Span} {v : View} (h : v.meaning? = none) : v.Numbers body :=
  fun meaning hmeaning => absurd (h ▸ hmeaning) (Option.not_mem_none meaning)

/-- What is read behind a backslash of the pattern is written in one of the ways at this place. -/
theorem Escape.Numbers.placed {inClass : Bool} {body : Span} {offset : Nat} {rest : List Char} {e : Escape}
    (h : e.Numbers inClass rest) (hat : body.At offset ('\\' :: rest)) {meaning : Meaning}
    (hshown : e.shown = .named meaning) : ∀ n ∈ meaning.ordinal,
      Numbered inClass ('\\' :: rest.take e.length)
        (body.onward (Span.stop ⟨'\\' :: rest.take e.length, offset⟩)) n meaning.label := by
  rw [hat.onward_take]
  exact h meaning hshown

/-- The reader writes no number that is not in the pattern. -/
theorem built_numbers (body : Span) : Built body (View.Numbers body) :=
  built_of_meanings View.numbers_of_meaning
    (fun hat hshown _ hmeaning => by
      obtain rfl := Option.some.inj hmeaning
      exact (Escape.outside_numbers _).placed hat hshown)
    (fun hat hshown _ hmeaning => by
      obtain rfl := Option.some.inj hmeaning
      exact (Escape.inside_numbers _).placed hat hshown)

theorem read_numbers (input : List Char) :
    ∀ v ∈ (read input).root.descendants, v.Numbers (read input).root.alternation.span :=
  List.forall_mem_cons.2 ⟨View.numbers_of_meaning rfl, read_built (built_numbers _)⟩

/-! ## Labels -/

/-- The number that a label spells, if it spells one. -/
def Meaning.labelOrdinal : List Char → Option Nat
  | ['n', 'u', 'l', 'l'] => some 0
  | '0' :: 'o' :: digits => some (numeralValue 8 digits)
  | '0' :: 'x' :: digits => some (numeralValue 16 digits)
  | 'U' :: '+' :: digits => some (numeralValue 16 digits)
  | ['c', 't', 'r', 'l', '-', letter] => some (letter.toNat % 32)
  | _ => none

/-- The number of an escape can be read off its label. -/
theorem Meaning.labelOrdinal_label (meaning : Meaning) : labelOrdinal meaning.label = meaning.ordinal := by
  cases meaning with
  | octal code => exact congrArg some (isNumeral_octal code).value
  | hex code => exact congrArg some (isNumeral_upperHex (by decide) code).value
  | unicode code => exact congrArg some (isNumeral_upperHex (by decide) code).value
  | property negated name => cases negated <;> rfl
  | _ => rfl

/-- **An escape with a number denotes what it says.** It is written in one of the ways, at its place in the
pattern and with the label that belongs to it; and escapes with the same label have the same number. -/
theorem read_numbered (input : List Char) :
    (∀ v ∈ (read input).root.descendants, ∀ meaning ∈ v.meaning?, ∀ n ∈ meaning.ordinal,
      Numbered v.inClass v.span.text ((read input).root.alternation.span.onward v.span.stop) n meaning.label) ∧
      ∀ meaning meaning' : Meaning, meaning.label = meaning'.label → meaning.ordinal = meaning'.ordinal := by
  refine ⟨read_numbers input, fun meaning meaning' hlabel => ?_⟩
  rw [← meaning.labelOrdinal_label, ← meaning'.labelOrdinal_label, hlabel]

/-! ## Bounds -/

/-- Digits in braces that go beyond the last character. -/
def IsBeyond (text : List Char) : Prop :=
  ∃ digits, text = ['\\', 'u', '\x7b'] ++ digits ++ ['\x7d'] ∧ 0x10FFFF < numeralValue 16 digits

theorem isBeyond_braces {digits : List Char} :
    IsBeyond (['\\', 'u', '\x7b'] ++ digits ++ ['\x7d']) ↔ 0x10FFFF < numeralValue 16 digits := by
  refine ⟨?_, fun h => ⟨digits, rfl, h⟩⟩
  rintro ⟨found, htext, h⟩
  obtain rfl := List.append_cancel_left (List.append_cancel_right htext)
  exact h

/-- Where no brace stands behind a `u`, digits do not go beyond the last character. -/
theorem bounded_of_le {text : List Char} {n : Nat} (hn : n ≤ 0x10FFFF)
    (htext : ¬ ['\\', 'u', '\x7b'] <+: text) : n ≤ 0xFFFFFF ∧ (0x10FFFF < n ↔ IsBeyond text) := by
  refine ⟨by omega, fun h => absurd hn (Nat.not_le.2 h), ?_⟩
  rintro ⟨digits, rfl, -⟩
  exact absurd ⟨digits ++ ['\x7d'], (List.append_assoc ..).symm⟩ htext

/-- The number of an escape has at most six digits of base sixteen, and only digits in braces go beyond the
last character. -/
theorem Numbered.bounded {inClass : Bool} {text after label : List Char} {n : Nat}
    (h : Numbered inClass text after n label) : n ≤ 0xFFFFFF ∧ (0x10FFFF < n ↔ IsBeyond text) := by
  cases h with
  | null => exact bounded_of_le (by decide) (by decide)
  | zero _ hrun =>
    have hless := hrun.value_lt
    exact bounded_of_le (by omega) fun h => by simp [List.cons_prefix_cons] at h
  | octal _ _ hhigh hrun =>
    have hless := hrun.value_lt
    refine bounded_of_le (by omega) fun h => ?_
    obtain rfl := (List.cons_prefix_cons.1 (List.cons_prefix_cons.1 h).2).1
    exact absurd hhigh (by decide)
  | hex hdigits hlength =>
    have hless : numeralValue 16 _ < 0x100 := hdigits.value_lt (Nat.le_of_eq hlength)
    exact bounded_of_le (by omega) fun h => by simp [List.cons_prefix_cons] at h
  | unicode hdigits hlength =>
    have hless : numeralValue 16 _ < 0x10000 := hdigits.value_lt (Nat.le_of_eq hlength)
    refine bounded_of_le (by omega) fun h => ?_
    have hbrace := (List.cons_prefix_cons.1 (List.cons_prefix_cons.1 h).2).2
    exact absurd (hdigits _ (hbrace.subset (.head _))) (by decide)
  | braces hdigits _ hlength =>
    exact ⟨Nat.le_of_lt_succ (hdigits.value_lt hlength), isBeyond_braces.symm⟩
  | @control letter =>
    have hless := Nat.mod_lt letter.toNat (by decide : 0 < 32)
    exact bounded_of_le (by omega) fun h => by simp [List.cons_prefix_cons] at h

/-- Digits in braces are taken whatever number they spell. -/
theorem Escape.unicode_braces {digits : List Char} (hdigits : IsHex digits) (hsome : digits ≠ [])
    (hlength : digits.length ≤ 6) (rest : List Char) :
    unicode ('\x7b' :: (digits ++ '\x7d' :: rest)) =
      named (.unicode (numeralValue 16 digits)) (digits.length + 3) := by
  have hleading : leading 6 isHexDigit (digits ++ '\x7d' :: rest) = digits := by
    rw [leading, List.take_append, List.take_of_length_le hlength,
      List.takeWhile_append_of_pos hdigits]
    cases 6 - digits.length with
    | zero => exact List.append_nil _
    | succ n => exact List.append_nil _
  unfold unicode
  simp only
  rw [hleading, List.drop_left]
  exact if_pos ⟨hsome, rfl⟩

/-- **The numbers of escapes** are numbers of characters, but for digits in braces that go beyond the last
one: there is nothing in either place that keeps such an escape from being taken. -/
theorem read_ordinal_le (input : List Char) :
    (∀ v ∈ (read input).root.descendants, ∀ meaning ∈ v.meaning?, ∀ n ∈ meaning.ordinal,
      n ≤ 0xFFFFFF ∧ (0x10FFFF < n ↔ IsBeyond v.span.text)) ∧
      ∀ digits rest, IsHex digits → digits ≠ [] → digits.length ≤ 6 → ∀ reader ∈ [Escape.outside, Escape.inside],
        reader ('u' :: '\x7b' :: (digits ++ '\x7d' :: rest)) =
          .named (.unicode (numeralValue 16 digits)) (digits.length + 3) := by
  refine ⟨fun v hv meaning hmeaning n hn => (read_numbers input v hv meaning hmeaning n hn).bounded, ?_⟩
  intro digits rest hdigits hsome hlength reader hreader
  have hbraces := Escape.unicode_braces hdigits hsome hlength rest
  simp only [List.mem_cons, List.not_mem_nil, or_false] at hreader
  obtain rfl | rfl := hreader <;> exact hbraces

/-- The number in `\u{110000}` is taken without complaint, and there is no such character. -/
theorem beyond_read :
    (read "\\u\x7b110000\x7d".toList).anomalies = [] ∧
      ∃ v ∈ (read "\\u\x7b110000\x7d".toList).root.descendants, ∃ meaning ∈ v.meaning?,
        ∃ n ∈ meaning.ordinal, ¬ n ≤ 0x10FFFF := by
  refine ⟨by decide +kernel, ?_⟩
  have hmeaning : (some (.unicode 0x110000) : Option Meaning) ∈
      (read "\\u\x7b110000\x7d".toList).root.descendants.map View.meaning? := by decide +kernel
  obtain ⟨v, hv, hv'⟩ := List.mem_map.1 hmeaning
  exact ⟨v, hv, _, hv', 0x110000, rfl, by decide⟩

end Pattern

end RegexDiagram
