import RegexDiagram.Proofs.Pattern.Ordinals
import RegexDiagram.Proofs.Text.Slices

/-!
# Escapes by byte positions

An escape can be read by cutting the text into slices and counting bytes. `ByteEscape.read?` does so and
checks each cut: it fails where a slice would not begin and end between two characters, and where digits that
were found are no number of thirty-two bits. No reading of an escape ever fails, and what it takes are the bytes
of the characters that belong to the escape (`ByteEscape.read?_eq`).
-/

namespace RegexDiagram

/-! ## Numbers of thirty-two bits -/

/-- What a digit of a base up to sixteen is worth. -/
def digitIn? (base : Nat) (c : Char) : Option Nat :=
  if isHexDigit c ∧ digitValue c < base then some (digitValue c) else none

/-- The number with one more digit, unless it has more than thirty-two bits. -/
def appendDigit? (base n : Nat) (c : Char) : Option Nat := do
  let d ← digitIn? base c
  if n * base + d < 4294967296 then some (n * base + d) else none

/-- The number of thirty-two bits that a text spells, behind a plus sign or without one. -/
def number32? (base : Nat) : List Char → Option Nat
  | [] => none
  | '+' :: d :: rest => (d :: rest).foldlM (appendDigit? base) 0
  | s => s.foldlM (appendDigit? base) 0

theorem foldlM_appendDigit? {base : Nat} {digits : List Char}
    (hdigits : ∀ c ∈ digits, isHexDigit c = true ∧ digitValue c < base)
    (hvalue : numeralValue base digits < 4294967296) :
    digits.foldlM (appendDigit? base) 0 = some (numeralValue base digits) := by
  induction digits using List.reverseRecOn with
  | nil => rfl
  | append_singleton digits c ih =>
    obtain ⟨hfront, hc⟩ := List.forall_mem_append.1 hdigits
    have hlast := hc c (.head _)
    rw [numeralValue_snoc] at hvalue
    have hless : numeralValue base digits < 4294967296 := by
      have hbase : 1 ≤ base := by omega
      have hle := Nat.mul_le_mul_left (numeralValue base digits) hbase
      omega
    have hdigit : digitIn? base c = some (digitValue c) := if_pos hlast
    rw [List.foldlM_append, ih hfront hless, numeralValue_snoc]
    show appendDigit? base (numeralValue base digits) c >>= pure = _
    rw [bind_pure, appendDigit?, hdigit]
    exact if_pos hvalue

/-- Digits of a base spell a number unless there are too many of them. -/
theorem number32?_eq {base : Nat} {digits : List Char} (hne : digits ≠ [])
    (hdigits : ∀ c ∈ digits, isHexDigit c = true ∧ digitValue c < base)
    (hvalue : numeralValue base digits < 4294967296) :
    number32? base digits = some (numeralValue base digits) := by
  unfold number32?
  split
  next => exact absurd rfl hne
  next => exact absurd (hdigits '+' (.head _)).1 (by decide)
  next => exact foldlM_appendDigit? hdigits hvalue

theorem number32?_octal {digits after : List Char} (hne : digits ≠ []) (h : IsOctalRun digits after) :
    number32? 8 digits = some (numeralValue 8 digits) := by
  refine number32?_eq hne (fun c hc => ⟨?_, digitValue_lt_of_isOctalDigit (h.digit c hc)⟩)
    (Nat.lt_trans h.value_lt (by decide))
  have hdigit := h.digit c hc
  exact forall_printable (P := fun c => isOctalDigit c = true → isHexDigit c = true) (by decide)
    (printable_of_isOctalDigit hdigit) hdigit

theorem number32?_hex {digits : List Char} (hne : digits ≠ []) (h : IsHex digits) (hlength : digits.length ≤ 6) :
    number32? 16 digits = some (numeralValue 16 digits) :=
  number32?_eq hne (fun c hc => ⟨h c hc, digitValue_lt_of_isHexDigit (h c hc)⟩)
    (Nat.lt_trans (h.value_lt hlength) (by decide))

/-! ## Sizes -/

theorem utf8Size_of_printable {c : Char} (h : Printable c) : c.utf8Size = 1 := by
  have hle : c.val ≤ 0x7F := UInt32.le_iff_toNat_le.2 (Nat.le_trans h.2 (by decide))
  exact if_pos hle

theorem IsHex.byteLength {digits : List Char} (h : IsHex digits) :
    RegexDiagram.byteLength digits = digits.length :=
  byteLength_eq_length fun c hc => utf8Size_of_printable (printable_of_isHexDigit (h c hc))

namespace Pattern

/-! ## Readers -/

/-- One escape as read by byte positions: how it is shown, how many bytes after the backslash belong to it,
and what is wrong with it. -/
structure ByteEscape where
  shown : Escape.Shown
  size : Nat
  trouble : Option Anomaly.Kind
  deriving DecidableEq, Repr

/-- The escape with its length in bytes, of the text that it is read from. -/
def Escape.inBytes (e : Escape) (s : List Char) : ByteEscape :=
  ⟨e.shown, byteLength (s.take e.length), e.trouble⟩

namespace ByteEscape

def named (meaning : Meaning) (size : Nat) : ByteEscape := ⟨.named meaning, size, none⟩

def plain (c : Char) (trouble : Option Anomaly.Kind) : ByteEscape := ⟨.plain c, c.utf8Size, trouble⟩

def incomplete (c : Char) : ByteEscape := plain c (some (.incompleteEscape c))

def trailing : ByteEscape := ⟨.plain '\\', 0, some .trailingBackslash⟩

def identity (c : Char) : ByteEscape :=
  plain c (if c.isAlphanum then some (.unknownEscape c) else none)

/-- Octal digits that were found are a number. -/
def octalNumber? (digits : List Char) (size : Nat) : Option ByteEscape :=
  (number32? 8 digits).map fun code => named (.octal code) size

def zero? (s : List Char) : Option ByteEscape := do
  let digits ← leadingSlice? 3 isOctalDigit (← sliceFrom? 1 s)
  if digits = [] then return named .null 1 else octalNumber? digits (1 + byteLength digits)

def octal? (s : List Char) : Option ByteEscape := do
  let digits ← leadingSlice? 3 isOctalDigit s
  octalNumber? digits (byteLength digits)

/-- A letter and a name between brackets. -/
def bracketed? (letter opening closing : Char) (meaning : List Char → Meaning) (s : List Char) :
    Option ByteEscape := do
  match ← sliceFrom? 1 s with
  | [] => return incomplete letter
  | c :: body =>
    if c = opening then
      match findByte? closing body with
      | none => return incomplete letter
      | some close =>
        let name ← sliceTo? close body
        if name = [] then return incomplete letter else return named (meaning name) (1 + 1 + close + 1)
    else return incomplete letter

def control? (s : List Char) : Option ByteEscape := do
  match ← sliceFrom? 1 s with
  | [] => return incomplete 'c'
  | letter :: _ =>
    if letter.isAlpha then return named (.control letter.toUpper) 2 else return incomplete 'c'

def hex? (s : List Char) : Option ByteEscape := do
  let digits ← leadingSlice? 2 isHexDigit (← sliceFrom? 1 s)
  match number32? 16 digits with
  | none => return incomplete 'x'
  | some code => if byteLength digits = 2 then return named (.hex code) 3 else return incomplete 'x'

/-- Digits that were found, four of them or up to six in braces, are a number. -/
def unicodeNumber? (digits : List Char) (size : Nat) : Option ByteEscape :=
  (number32? 16 digits).map fun code => named (.unicode code) size

def unicode? (s : List Char) : Option ByteEscape := do
  match ← sliceFrom? 1 s with
  | '\x7b' :: body =>
    let digits ← leadingSlice? 6 isHexDigit body
    if digits = [] then return incomplete 'u'
    else
      let behind ← sliceFrom? (byteLength digits) body
      if behind.head? = some '\x7d' then unicodeNumber? digits (1 + 1 + byteLength digits + 1)
      else return incomplete 'u'
  | after =>
    let digits ← leadingSlice? 4 isHexDigit after
    if byteLength digits = 4 then unicodeNumber? digits 5 else return incomplete 'u'

def property? (negated : Bool) : List Char → Option ByteEscape :=
  bracketed? (Escape.property.letter negated) '\x7b' '\x7d' (.property negated)

def namedBackReference? : List Char → Option ByteEscape := bracketed? 'k' '<' '>' .namedBackReference

/-- The escapes that are read alike inside and outside a class. The text begins with the character `c`. -/
def shared? (c : Char) (s : List Char) : Option ByteEscape :=
  match Escape.letterMeaning? c with
  | some meaning => some (named meaning 1)
  | none =>
    if c = '0' then zero? s
    else if c = 'c' then control? s
    else if c = 'x' then hex? s
    else if c = 'u' then unicode? s
    else if c = 'p' then property? false s
    else if c = 'P' then property? true s
    else some (identity c)

def outside? (s : List Char) : Option ByteEscape :=
  match s.head? with
  | none => some trailing
  | some c =>
    if c = 'b' then some (named .wordBoundary 1)
    else if c = 'B' then some (named .nonWordBoundary 1)
    else if c = 'k' then namedBackReference? s
    else if '1' ≤ c ∧ c ≤ '9' then some (named (.backReference c) 1)
    else shared? c s

def inside? (s : List Char) : Option ByteEscape :=
  match s.head? with
  | none => some trailing
  | some c =>
    if c = 'b' then some (named .backspace 1)
    else if c = 'B' then some (plain 'B' none)
    else if '1' ≤ c ∧ c ≤ '7' then octal? s
    else shared? c s

/-- The escape after its backslash, inside or outside a class. -/
def read? (inClass : Bool) (s : List Char) : Option ByteEscape := if inClass then inside? s else outside? s

end ByteEscape

/-! ## Agreement -/

/-- A letter and a name between brackets. -/
def Escape.bracketed (letter opening closing : Char) (meaning : List Char → Meaning) : List Char → Escape
  | [] => incomplete letter
  | c :: body =>
    if c = opening then
      match before? closing body with
      | some name => if name = [] then incomplete letter else named (meaning name) (name.length + 3)
      | none => incomplete letter
    else incomplete letter

/-- The escape after its backslash, inside or outside a class. -/
def Escape.read (inClass : Bool) (s : List Char) : Escape := if inClass then inside s else outside s

theorem utf8Size_of_letterMeaning {c : Char} {meaning : Meaning} (h : Escape.letterMeaning? c = some meaning) :
    c.utf8Size = 1 := by
  unfold Escape.letterMeaning? at h
  split at h
  all_goals first | rfl | exact nomatch h

theorem Escape.property_eq (negated : Bool) (rest : List Char) :
    property negated rest =
      bracketed (property.letter negated) '\x7b' '\x7d' (.property negated) rest := by
  unfold property
  split
  next body =>
    unfold bracketed
    exact (if_pos rfl).symm
  next hbody =>
    cases rest with
    | nil => rfl
    | cons c body => exact (if_neg (by rintro rfl; exact hbody body rfl)).symm

theorem Escape.namedBackReference_eq (rest : List Char) :
    namedBackReference rest = bracketed 'k' '<' '>' .namedBackReference rest := by
  unfold namedBackReference
  split
  next body =>
    unfold bracketed
    exact (if_pos rfl).symm
  next hbody =>
    cases rest with
    | nil => rfl
    | cons c body => exact (if_neg (by rintro rfl; exact hbody body rfl)).symm

open Escape (inBytes)

section Readers

variable {c : Char} {rest : List Char}

/-- Behind a character of one byte there is a position. -/
theorem sliceFrom?_cons (hc : c.utf8Size = 1) : sliceFrom? 1 (c :: rest) = some rest := by
  have hslice := sliceFrom?_append [c] rest
  rwa [byteLength_cons, hc, byteLength_nil] at hslice

theorem inBytes_named (meaning : Meaning) (length : Nat) (s : List Char) :
    (Escape.named meaning length).inBytes s = ByteEscape.named meaning (byteLength (s.take length)) := rfl

theorem inBytes_single (hc : c.utf8Size = 1) (meaning : Meaning) :
    (Escape.named meaning 1).inBytes (c :: rest) = ByteEscape.named meaning 1 := by
  rw [inBytes_named, List.take_succ_cons, List.take_zero, byteLength_cons, hc, byteLength_nil]

/-- An escape with a run of digits takes a byte and the bytes of its digits. -/
theorem inBytes_run (hc : c.utf8Size = 1) (n : Nat) (p : Char → Bool) (rest : List Char) (meaning : Meaning) :
    (Escape.named meaning ((leading n p rest).length + 1)).inBytes (c :: rest) =
      ByteEscape.named meaning (1 + byteLength (leading n p rest)) := by
  rw [inBytes_named, List.take_succ_cons, take_leading, byteLength_cons, hc]

/-- An escape with something between brackets takes its bytes, and one each for the letter and the brackets. -/
theorem inBytes_bracketed {opening closing : Char} (hc : c.utf8Size = 1) (hopening : opening.utf8Size = 1)
    (hclosing : closing.utf8Size = 1) (inner more : List Char) (meaning : Meaning) :
    (Escape.named meaning (inner.length + 3)).inBytes (c :: opening :: (inner ++ closing :: more)) =
      ByteEscape.named meaning (1 + 1 + byteLength inner + 1) := by
  have htake : (c :: opening :: (inner ++ closing :: more)).take (inner.length + 3) =
      [c, opening] ++ inner ++ [closing] := by
    rw [List.take_succ_cons, List.take_succ_cons, List.take_length_add_append]
    rfl
  rw [inBytes_named, htake]
  simp only [byteLength_append, byteLength_cons, byteLength_nil, hc, hopening, hclosing]

namespace ByteEscape

theorem identity_eq (c : Char) (rest : List Char) : identity c = (Escape.identity c).inBytes (c :: rest) := by
  unfold identity Escape.identity
  split <;> rfl

theorem zero?_eq (rest : List Char) : zero? ('0' :: rest) = some ((Escape.zero rest).inBytes ('0' :: rest)) := by
  rw [zero?, sliceFrom?_cons rfl, Escape.zero]
  simp only [Option.bind_eq_bind, Option.bind_some, leadingSlice?_eq]
  by_cases hnone : leading 3 isOctalDigit rest = []
  · rw [if_pos hnone, if_pos hnone]
    rfl
  · rw [if_neg hnone, if_neg hnone, octalNumber?, number32?_octal hnone (isOctalRun_leading rest),
      inBytes_run rfl]
    rfl

theorem octal?_eq {c : Char} (hc : isOctalDigit c = true) (rest : List Char) :
    octal? (c :: rest) = some ((Escape.octal (c :: rest)).inBytes (c :: rest)) := by
  have hsome : leading 3 isOctalDigit (c :: rest) ≠ [] := by
    rw [leading, List.take_succ_cons, List.takeWhile_cons_of_pos hc]
    exact List.cons_ne_nil _ _
  rw [octal?, leadingSlice?_eq, Escape.octal]
  simp only [Option.bind_eq_bind, Option.bind_some]
  rw [octalNumber?, number32?_octal hsome (isOctalRun_leading (c :: rest)), inBytes_named, take_leading]
  rfl

theorem control?_eq (rest : List Char) : control? ('c' :: rest) = some ((Escape.control rest).inBytes ('c' :: rest)) := by
  rw [control?, sliceFrom?_cons rfl]
  simp only [Option.bind_eq_bind, Option.bind_some]
  cases rest with
  | nil => rfl
  | cons letter more =>
    rw [Escape.control]
    simp only
    split
    next hletter =>
      have hsize := utf8Size_of_printable (printable_of_isAlpha hletter).1
      rw [inBytes_named]
      simp only [List.take_succ_cons, List.take_zero, byteLength_cons, byteLength_nil, hsize]
      rfl
    next => rfl

theorem hex?_eq (rest : List Char) : hex? ('x' :: rest) = some ((Escape.hex rest).inBytes ('x' :: rest)) := by
  have hdigits : IsHex (leading 2 isHexDigit rest) := leading_all _ _ _
  rw [hex?, sliceFrom?_cons rfl, Escape.hex]
  simp only [Option.bind_eq_bind, Option.bind_some, leadingSlice?_eq, hdigits.byteLength]
  by_cases htwo : (leading 2 isHexDigit rest).length = 2
  · have hsome : leading 2 isHexDigit rest ≠ [] := List.ne_nil_of_length_pos (by omega)
    have hsize := inBytes_run (c := 'x') rfl 2 isHexDigit rest
      (.hex (numeralValue 16 (leading 2 isHexDigit rest)))
    rw [hdigits.byteLength, htwo] at hsize
    have hlength : (leading 2 isHexDigit rest).length ≤ 6 := by omega
    rw [number32?_hex hsome hdigits hlength, if_pos htwo, hsize]
    exact if_pos htwo
  · simp only [if_neg htwo]
    split <;> rfl

/-- A name between brackets, with the bytes of all characters up to the closing one. -/
theorem bracketed?_eq {letter opening closing : Char} (hletter : letter.utf8Size = 1)
    (hopening : opening.utf8Size = 1) (hclosing : closing.utf8Size = 1) (meaning : List Char → Meaning)
    (rest : List Char) :
    bracketed? letter opening closing meaning (letter :: rest) =
      some ((Escape.bracketed letter opening closing meaning rest).inBytes (letter :: rest)) := by
  rw [bracketed?, sliceFrom?_cons hletter]
  simp only [Option.bind_eq_bind, Option.bind_some]
  fun_cases Escape.bracketed letter opening closing meaning rest with
  | case1 => rfl
  | case2 body hname =>
    simp only [findByte?_eq, hname, Option.map_some, if_true]
    obtain ⟨more, rfl⟩ := eq_append_of_before? hname
    rw [sliceTo?_append]
    rfl
  | case3 body name hname hne =>
    obtain ⟨more, rfl⟩ := eq_append_of_before? hname
    simp only [findByte?_eq, hname, Option.map_some, if_true, sliceTo?_append, Option.bind_some, if_neg hne,
      inBytes_bracketed hletter hopening hclosing]
    rfl
  | case4 body hnone =>
    simp only [findByte?_eq, hnone]
    rfl
  | case5 c body hc =>
    simp only [if_neg hc]
    rfl

theorem property?_eq (negated : Bool) (rest : List Char) :
    property? negated (Escape.property.letter negated :: rest) =
      some ((Escape.property negated rest).inBytes (Escape.property.letter negated :: rest)) := by
  have hletter : (Escape.property.letter negated).utf8Size = 1 := by cases negated <;> rfl
  rw [property?, bracketed?_eq hletter rfl rfl, Escape.property_eq]

theorem namedBackReference?_eq (rest : List Char) :
    namedBackReference? ('k' :: rest) = some ((Escape.namedBackReference rest).inBytes ('k' :: rest)) := by
  rw [namedBackReference?, bracketed?_eq rfl rfl rfl, Escape.namedBackReference_eq]

theorem unicode?_eq (rest : List Char) : unicode? ('u' :: rest) = some ((Escape.unicode rest).inBytes ('u' :: rest)) := by
  rw [unicode?, sliceFrom?_cons rfl]
  simp only [Option.bind_eq_bind, Option.bind_some]
  unfold Escape.unicode
  split
  next body =>
    have hdigits : IsHex (leading 6 isHexDigit body) := leading_all _ _ _
    have hlength := length_leading_le_bound 6 isHexDigit body
    have hbody := List.prefix_iff_eq_append.1 (leading_isPrefix 6 isHexDigit body)
    simp only [leadingSlice?_eq, Option.bind_some]
    generalize leading 6 isHexDigit body = digits at *
    generalize body.drop digits.length = behind at *
    subst hbody
    by_cases hnone : digits = []
    · rw [if_pos hnone, if_neg fun h => h.1 hnone]
      rfl
    rw [if_neg hnone, sliceFrom?_append]
    simp only [Option.bind_some]
    by_cases hclosed : behind.head? = some '\x7d'
    · obtain ⟨more, rfl⟩ := List.head?_eq_some_iff.1 hclosed
      rw [if_pos hclosed, if_pos ⟨hnone, hclosed⟩, unicodeNumber?, number32?_hex hnone hdigits hlength,
        inBytes_bracketed rfl rfl rfl]
      rfl
    · rw [if_neg hclosed, if_neg fun h => hclosed h.2]
      rfl
  next after hafter =>
    have hdigits : IsHex (leading 4 isHexDigit rest) := leading_all _ _ _
    simp only [leadingSlice?_eq, Option.bind_some, hdigits.byteLength]
    by_cases hfour : (leading 4 isHexDigit rest).length = 4
    · have hsome : leading 4 isHexDigit rest ≠ [] := List.ne_nil_of_length_pos (by omega)
      have hlength : (leading 4 isHexDigit rest).length ≤ 6 := by omega
      have hsize := inBytes_run (c := 'u') rfl 4 isHexDigit rest
        (.unicode (numeralValue 16 (leading 4 isHexDigit rest)))
      rw [hdigits.byteLength, hfour] at hsize
      rw [if_pos hfour, if_pos hfour, unicodeNumber?, number32?_hex hsome hdigits hlength, hsize]
      rfl
    · rw [if_neg hfour, if_neg hfour]
      rfl

theorem shared?_eq (c : Char) (rest : List Char) :
    shared? c (c :: rest) = some ((Escape.shared c rest).inBytes (c :: rest)) := by
  unfold shared? Escape.shared
  cases hmeaning : Escape.letterMeaning? c with
  | some meaning => exact congrArg some (inBytes_single (utf8Size_of_letterMeaning hmeaning) meaning).symm
  | none =>
    simp only
    split_ifs with hzero hcontrol hhex hunicode hproperty hnegated
    · exact hzero ▸ zero?_eq rest
    · exact hcontrol ▸ control?_eq rest
    · exact hhex ▸ hex?_eq rest
    · exact hunicode ▸ unicode?_eq rest
    · exact hproperty ▸ property?_eq false rest
    · exact hnegated ▸ property?_eq true rest
    · exact congrArg some (identity_eq c rest)

theorem outside?_eq (s : List Char) : outside? s = some ((Escape.outside s).inBytes s) := by
  cases s with
  | nil => rfl
  | cons c rest =>
    rw [outside?, Escape.outside, List.head?_cons]
    simp only
    split_ifs with hboundary hbetween hname hdigit
    · exact hboundary ▸ rfl
    · exact hbetween ▸ rfl
    · exact hname ▸ namedBackReference?_eq rest
    · have hsize := utf8Size_of_printable
        (printable_of_between hdigit.1 hdigit.2 (by decide) (by decide))
      exact congrArg some (inBytes_single hsize _).symm
    · exact shared?_eq c rest

theorem inside?_eq (s : List Char) : inside? s = some ((Escape.inside s).inBytes s) := by
  cases s with
  | nil => rfl
  | cons c rest =>
    rw [inside?, Escape.inside, List.head?_cons]
    simp only
    split_ifs with hbackspace hletter hdigit
    · exact hbackspace ▸ rfl
    · exact hletter ▸ rfl
    · exact octal?_eq (isOctalDigit_of_between hdigit.1 hdigit.2) rest
    · exact shared?_eq c rest

/-- **No reading by byte positions fails**, and it takes the bytes of the characters that belong to the
escape. -/
theorem read?_eq (inClass : Bool) (s : List Char) :
    read? inClass s = some ((Escape.read inClass s).inBytes s) := by
  cases inClass with
  | false => exact outside?_eq s
  | true => exact inside?_eq s

end ByteEscape

end Readers

end Pattern

end RegexDiagram
