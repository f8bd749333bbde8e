import RegexDiagram.Pattern.Repetition
import RegexDiagram.Text.Bytes
import RegexDiagram.Proofs.Text.Numerals

/-!
# How quantifiers are written

The forms of a quantifier as relations between its characters and what they ask for, stated without
the reader. `Quantifier.read?_written` says that the reader only accepts these forms and takes their
bounds. In braces it accepts each of them whose bounds are admitted (`Bounds.braces?_iff`), and a
repetition that is written in braces is read again as it was (`Repetition.read?_text`).

Braces are read in two steps. The first one that closes ends a candidate (`Bounds.braces?_eq_some_iff`), and
the candidate is parsed as a whole (`Bounds.parse?_eq_some_iff`). No form reaches beyond that brace, since
each of them has only one that closes, in the last place (`Bounds.Braces.parts`).
-/

namespace RegexDiagram

/-- A text whose characters take a byte each. -/
theorem byteLength_eq_length {s : List Char} (h : ∀ c ∈ s, c.utf8Size = 1) : byteLength s = s.length := by
  induction s with
  | nil => rfl
  | cons c rest ih =>
    obtain ⟨hc, hrest⟩ := List.forall_mem_cons.1 h
    rw [byteLength_cons, hc, ih hrest, List.length_cons, Nat.add_comm]

namespace Pattern

/-! ## Numbers -/

/-- A number in decimal digits; zeros may stand in front. -/
def IsNumber (digits : List Char) : Prop := digits ≠ [] ∧ ∀ c ∈ digits, c.isDigit = true

/-- The digits in front of a text that begins with one are a number. -/
theorem isNumber_takeWhile {s : List Char} (h : s.takeWhile Char.isDigit ≠ []) :
    IsNumber (s.takeWhile Char.isDigit) :=
  ⟨h, List.all_eq_true.1 List.all_takeWhile⟩

theorem isNumber_decimal (n : Nat) : IsNumber (decimal n) :=
  ⟨List.ne_nil_of_length_pos Nat.length_toDigits_pos,
    fun _ hc => Nat.isDigit_of_mem_toDigits (by decide) (by decide) hc⟩

/-- A number that is written is read again. -/
theorem numeralValue_decimal (n : Nat) : numeralValue 10 (decimal n) = n := by
  have hdigit : ∀ k < 10, digitValue (id (Nat.digitChar k)) = k := by decide
  rw [decimal, ← List.map_id (Nat.toDigits 10 n)]
  exact numeralValue_map_toDigits (by decide) hdigit n

namespace IsNumber

variable {digits : List Char} (h : IsNumber digits)
include h

/-- A number ends where no digit follows. -/
theorem takeWhile {c : Char} (hc : c.isDigit = false) (after : List Char) :
    (digits ++ c :: after).takeWhile Char.isDigit = digits := by
  rw [List.takeWhile_append_of_pos h.2, List.takeWhile_cons_of_neg (ne_true_of_eq_false hc), List.append_nil]

theorem dropWhile {c : Char} (hc : c.isDigit = false) (after : List Char) :
    (digits ++ c :: after).dropWhile Char.isDigit = c :: after := by
  rw [List.dropWhile_append_of_pos h.2, List.dropWhile_cons_of_neg (ne_true_of_eq_false hc)]

end IsNumber

theorem utf8Size_of_isDigit {c : Char} (h : c.isDigit = true) : c.utf8Size = 1 := by
  have hle : c.val ≤ '9'.val := of_decide_eq_true (Bool.and_eq_true_iff.1 h).2
  have hnine : '9'.val ≤ 0x7F := by decide
  exact if_pos (UInt32.le_trans hle hnine)

namespace Bounds

/-! ## Bounds -/

/-- Bounds that a quantifier may name: numbers of thirty-two bits, in order. -/
structure Admitted (b : Bounds) : Prop where
  min : b.min < UInt32.size
  max : ∀ max ∈ b.max, max < UInt32.size ∧ b.min ≤ max

theorem bound?_eq_some_iff {digits : List Char} {n : Nat} :
    bound? digits = some n ↔ n = numeralValue 10 digits ∧ n < UInt32.size := by
  have hbound (n : Nat) : n ≤ Repetition.greatestBound ↔ n < UInt32.size := Nat.lt_succ_iff.symm
  rw [bound?, Option.ite_none_right_eq_some, hbound, Option.some_inj]
  constructor
  · rintro ⟨hn, rfl⟩
    exact ⟨rfl, hn⟩
  · rintro ⟨rfl, hn⟩
    exact ⟨hn, rfl⟩

/-- A quantifier in braces and its bounds: an exact count, a least count, or a least and a greatest
count. -/
inductive Braces : List Char → Bounds → Prop
  | exact {low : List Char} : IsNumber low →
    Braces (['\x7b'] ++ low ++ ['\x7d']) ⟨numeralValue 10 low, some (numeralValue 10 low)⟩
  | least {low : List Char} : IsNumber low →
    Braces (['\x7b'] ++ low ++ [',', '\x7d']) ⟨numeralValue 10 low, none⟩
  | between {low high : List Char} : IsNumber low → IsNumber high →
    Braces (['\x7b'] ++ low ++ [','] ++ high ++ ['\x7d'])
      ⟨numeralValue 10 low, some (numeralValue 10 high)⟩

/-- A quantifier and its bounds. -/
inductive Written : List Char → Bounds → Prop
  | star : Written ['*'] ⟨0, none⟩
  | plus : Written ['+'] ⟨1, none⟩
  | question : Written ['?'] ⟨0, some 1⟩
  | braces {text : List Char} {b : Bounds} : Braces text b → Written text b

/-- Between the brace that begins it and the one that closes it, a quantifier in braces has digits and
commas. -/
theorem Braces.parts {text : List Char} {b : Bounds} (h : Braces text b) :
    ∃ body, text = '\x7b' :: body ++ ['\x7d'] ∧ ∀ c ∈ body, c.isDigit = true ∨ c = ',' := by
  cases h with
  | @exact low hlow => exact ⟨low, rfl, fun c hc => .inl (hlow.2 c hc)⟩
  | @least low hlow =>
    refine ⟨low ++ [','], by simp, List.forall_mem_append.2 ⟨fun c hc => .inl (hlow.2 c hc), ?_⟩⟩
    exact List.forall_mem_singleton.2 (.inr rfl)
  | @between low high hlow hhigh =>
    refine ⟨low ++ ',' :: high, by simp, List.forall_mem_append.2 ⟨fun c hc => .inl (hlow.2 c hc), ?_⟩⟩
    exact List.forall_mem_cons.2 ⟨.inr rfl, fun c hc => .inl (hhigh.2 c hc)⟩

/-- What is written in braces is digits, braces and a comma. -/
theorem Braces.forall_mem {P : Char → Prop} (hdigit : ∀ c, c.isDigit = true → P c)
    (hmarks : ∀ c ∈ ['\x7b', ',', '\x7d'], P c) {text : List Char} {b : Bounds} (h : Braces text b) :
    ∀ c ∈ text, P c := by
  obtain ⟨hopen, hmarks⟩ := List.forall_mem_cons.1 hmarks
  obtain ⟨hcomma, hclose⟩ := List.forall_mem_cons.1 hmarks
  obtain ⟨body, rfl, hbody⟩ := h.parts
  refine List.forall_mem_append.2 ⟨List.forall_mem_cons.2 ⟨hopen, fun c hc => ?_⟩, hclose⟩
  obtain hc | rfl := hbody c hc
  · exact hdigit c hc
  · exact hcomma

/-- A quantifier is digits and marks. -/
theorem Written.forall_mem {P : Char → Prop} (hdigit : ∀ c, c.isDigit = true → P c)
    (hmarks : ∀ c ∈ ['*', '+', '?', '\x7b', ',', '\x7d'], P c) {text : List Char} {b : Bounds}
    (h : Written text b) : ∀ c ∈ text, P c := by
  cases h with
  | star => exact List.forall_mem_singleton.2 (hmarks _ (by decide))
  | plus => exact List.forall_mem_singleton.2 (hmarks _ (by decide))
  | question => exact List.forall_mem_singleton.2 (hmarks _ (by decide))
  | braces h =>
    exact h.forall_mem hdigit fun c hc => hmarks c (.tail _ (.tail _ (.tail _ hc)))

theorem Written.ne_nil {text : List Char} {b : Bounds} (h : Written text b) : text ≠ [] := by
  cases h with
  | braces h => cases h <;> simp
  | _ => simp

/-! ## Reading bounds -/

/-- Digits in braces. -/
def braced (low : List Char) : Option (Option (List Char)) → List Char
  | none => ['\x7b'] ++ low ++ ['\x7d']
  | some none => ['\x7b'] ++ low ++ [',', '\x7d']
  | some (some high) => ['\x7b'] ++ low ++ [','] ++ high ++ ['\x7d']

/-- A text in which digits are found is numbers in braces, with nothing behind them. -/
theorem eq_braced_of_digits? {text low : List Char} {rest : Option (Option (List Char))}
    (h : digits? text = some (low, rest)) :
    text = braced low rest ∧ IsNumber low ∧ ∀ high, rest = some (some high) → IsNumber high := by
  unfold digits? at h
  split at h
  next body =>
    have hlow := isNumber_takeWhile (s := body)
    have hbody := List.takeWhile_append_dropWhile (p := Char.isDigit) (l := body)
    generalize body.takeWhile Char.isDigit = digits at hlow hbody h
    generalize body.dropWhile Char.isDigit = tail at hbody h
    subst hbody
    simp only at h
    split at h
    · cases h
    next hne =>
    split at h
    next =>
      cases h
      exact ⟨rfl, hlow hne, fun _ hhigh => nomatch hhigh⟩
    next more =>
      have hhigh := isNumber_takeWhile (s := more)
      have hmore := List.takeWhile_append_dropWhile (p := Char.isDigit) (l := more)
      generalize more.takeWhile Char.isDigit = digits' at hhigh hmore h
      generalize more.dropWhile Char.isDigit = tail at hmore h
      subst hmore
      split at h
      next =>
        cases h
        split_ifs with hnone
        · rw [hnone]
          exact ⟨by simp [braced], hlow hne, fun _ hhigh => nomatch hhigh⟩
        · refine ⟨by simp [braced], hlow hne, fun high hsome => ?_⟩
          obtain rfl : digits' = high := Option.some.inj (Option.some.inj hsome)
          exact hhigh hnone
      next => cases h
    next => cases h
  next => cases h

/-- Numbers in braces are found again. -/
theorem digits?_braced {low : List Char} {rest : Option (Option (List Char))} (hlow : IsNumber low)
    (hhigh : ∀ high, rest = some (some high) → IsNumber high) :
    digits? (braced low rest) = some (low, rest) := by
  have hcomma : ','.isDigit = false := by decide
  have hclose : '\x7d'.isDigit = false := by decide
  cases rest with
  | none =>
    have htext : braced low none = '\x7b' :: (low ++ ['\x7d']) := rfl
    rw [htext, digits?]
    simp only [hlow.takeWhile hclose, hlow.dropWhile hclose, if_neg hlow.1]
  | some rest =>
    cases rest with
    | none =>
      have htext : braced low (some none) = '\x7b' :: (low ++ ',' :: ['\x7d']) := rfl
      rw [htext, digits?]
      simp only [hlow.takeWhile hcomma, hlow.dropWhile hcomma, if_neg hlow.1, List.takeWhile_cons,
        List.dropWhile_cons, hclose, Bool.false_eq_true, if_false, if_true]
    | some high =>
      have htext : braced low (some (some high)) = '\x7b' :: (low ++ ',' :: (high ++ ['\x7d'])) := by
        simp [braced]
      replace hhigh := hhigh high rfl
      rw [htext, digits?]
      simp only [hlow.takeWhile hcomma, hlow.dropWhile hcomma, hhigh.takeWhile hclose,
        hhigh.dropWhile hclose, if_neg hlow.1, if_neg hhigh.1]

/-- What a candidate is parsed in: its digits, each bound by itself, and the two in order. -/
theorem parse?_steps {text : List Char} {min : Nat} {max : Option Nat} :
    parse? text = some ⟨min, max⟩ ↔ ∃ low rest, digits? text = some (low, rest) ∧ bound? low = some min ∧
      greatest? min rest = some max ∧ ∀ m ∈ max, min ≤ m := by
  constructor
  · intro h
    obtain ⟨⟨low, rest⟩, hdigits, h⟩ := Option.bind_eq_some_iff.1 h
    obtain ⟨min, hmin, h⟩ := Option.bind_eq_some_iff.1 h
    obtain ⟨max, hmax, h⟩ := Option.bind_eq_some_iff.1 h
    obtain ⟨hordered, hb⟩ := Option.ite_none_left_eq_some.1 h
    cases hb
    refine ⟨low, rest, hdigits, hmin, hmax, fun m hm => Nat.le_of_not_lt fun hlt => hordered ?_⟩
    exact (Option.any_eq_true _ _).2 ⟨m, hm, decide_eq_true hlt⟩
  · rintro ⟨low, rest, hdigits, hmin, hmax, hordered⟩
    refine Option.bind_eq_some_iff.2 ⟨_, hdigits, Option.bind_eq_some_iff.2 ⟨_, hmin, ?_⟩⟩
    refine Option.bind_eq_some_iff.2 ⟨_, hmax, Option.ite_none_left_eq_some.2 ⟨fun hany => ?_, rfl⟩⟩
    obtain ⟨m, hm, hlt⟩ := (Option.any_eq_true _ _).1 hany
    exact absurd (of_decide_eq_true hlt) (Nat.not_lt_of_le (hordered m hm))

/-- A candidate has bounds just if it is written in one of the forms and they are admitted. -/
theorem parse?_eq_some_iff {text : List Char} {b : Bounds} :
    parse? text = some b ↔ Braces text b ∧ b.Admitted := by
  obtain ⟨min, max⟩ := b
  rw [parse?_steps]
  constructor
  · rintro ⟨low, rest, hdigits, hmin, hmax, hordered⟩
    obtain ⟨rfl, hlow, hhigh⟩ := eq_braced_of_digits? hdigits
    obtain ⟨rfl, hsmall⟩ := bound?_eq_some_iff.1 hmin
    cases rest with
    | none =>
      cases hmax
      exact ⟨.exact hlow, hsmall, fun m hm => Option.some.inj hm ▸ ⟨hsmall, Nat.le_refl _⟩⟩
    | some rest =>
      cases rest with
      | none =>
        cases hmax
        exact ⟨.least hlow, hsmall, fun m hm => nomatch hm⟩
      | some high =>
        obtain ⟨n, hn, rfl⟩ := Option.map_eq_some_iff.1 hmax
        obtain ⟨rfl, hn⟩ := bound?_eq_some_iff.1 hn
        refine ⟨.between hlow (hhigh high rfl), hsmall, fun m hm => ?_⟩
        exact ⟨Option.some.inj hm ▸ hn, hordered m hm⟩
  · rintro ⟨hbraces, hsmall, hmax⟩
    have hordered := fun m hm => (hmax m hm).2
    cases hbraces with
    | @exact low hlow =>
      have hdigits : digits? (braced low none) = some (low, none) :=
        digits?_braced hlow fun _ hhigh => nomatch hhigh
      exact ⟨low, none, hdigits, bound?_eq_some_iff.2 ⟨rfl, hsmall⟩, rfl, hordered⟩
    | @least low hlow =>
      have hdigits : digits? (braced low (some none)) = some (low, some none) :=
        digits?_braced hlow fun _ hhigh => nomatch hhigh
      exact ⟨low, some none, hdigits, bound?_eq_some_iff.2 ⟨rfl, hsmall⟩, rfl, hordered⟩
    | @between low high hlow hhigh =>
      have hdigits : digits? (braced low (some (some high))) = some (low, some (some high)) :=
        digits?_braced hlow fun _ hsome => Option.some.inj (Option.some.inj hsome) ▸ hhigh
      have hgreatest := bound?_eq_some_iff.2 ⟨rfl, (hmax _ rfl).1⟩
      exact ⟨low, some (some high), hdigits, bound?_eq_some_iff.2 ⟨rfl, hsmall⟩,
        Option.map_eq_some_iff.2 ⟨_, hgreatest, rfl⟩, hordered⟩

/-- What is read in braces is a candidate with bounds, up to the first brace that closes. -/
theorem braces?_eq_some_iff {s : List Char} {b : Bounds} {n : Nat} :
    braces? s = some (b, n) ↔
      ∃ front after, s = front ++ '\x7d' :: after ∧ '\x7d' ∉ front ∧ n = front.length + 1 ∧
        parse? (front ++ ['\x7d']) = some b := by
  constructor
  · intro h
    obtain ⟨close, hclose, h⟩ := Option.bind_eq_some_iff.1 h
    obtain ⟨b, hparse, h⟩ := Option.bind_eq_some_iff.1 h
    cases h
    obtain ⟨hlt, hat, hbefore⟩ := List.idxOf?_eq_some_iff.1 hclose
    have hlength := List.length_take_of_le (Nat.le_of_lt hlt)
    have htake : s.take (close + 1) = s.take close ++ ['\x7d'] := by
      rw [List.take_add_one, List.getElem?_eq_getElem hlt, hat]
      rfl
    refine ⟨s.take close, s.drop (close + 1), ?_, fun hmem => ?_, ?_, htake ▸ hparse⟩
    · rw [List.append_cons, ← htake, List.take_append_drop]
    · obtain ⟨i, hi, hchar⟩ := List.mem_iff_getElem.1 hmem
      rw [List.getElem_take] at hchar
      exact hbefore i (hlength ▸ hi) hchar
    · rw [hlength]
  · rintro ⟨front, after, rfl, hfront, rfl, hparse⟩
    have hclose : (front ++ '\x7d' :: after).idxOf? '\x7d' = some front.length := by
      refine List.idxOf?_eq_some_iff.2 ⟨by simp, by simp, fun i hi hchar => ?_⟩
      rw [List.getElem_append_left hi] at hchar
      exact hfront (hchar ▸ List.getElem_mem hi)
    have htake : (front ++ '\x7d' :: after).take (front.length + 1) = front ++ ['\x7d'] := by
      rw [List.append_cons]
      exact List.take_left' (by simp)
    refine Option.bind_eq_some_iff.2 ⟨_, hclose, Option.bind_eq_some_iff.2 ⟨b, ?_, rfl⟩⟩
    rw [htake, hparse]

/-- What is read in braces is written in braces, in front of the text. -/
theorem braces?_written {s : List Char} {b : Bounds} {n : Nat} (h : braces? s = some (b, n)) :
    ∃ text after, s = text ++ after ∧ text.length = n ∧ Braces text b ∧ b.Admitted := by
  obtain ⟨front, after, rfl, -, rfl, hparse⟩ := braces?_eq_some_iff.1 h
  exact ⟨front ++ ['\x7d'], after, by simp, by simp, parse?_eq_some_iff.1 hparse⟩

theorem Braces.read_admitted {text : List Char} {b : Bounds} (h : Braces text b) (hb : b.Admitted)
    (after : List Char) : braces? (text ++ after) = some (b, text.length) := by
  have hparse := parse?_eq_some_iff.2 ⟨h, hb⟩
  obtain ⟨body, rfl, hbody⟩ := h.parts
  refine braces?_eq_some_iff.2 ⟨'\x7b' :: body, after, by simp, fun hclose => ?_, by simp, hparse⟩
  obtain hclose | hclose := List.mem_cons.1 hclose
  · exact absurd hclose (by decide)
  · exact absurd (hbody _ hclose) (by decide)

/-- Only a brace begins a quantifier in braces. -/
theorem braces?_brace {c : Char} {rest : List Char} (h : (braces? (c :: rest)).isSome) : c = '\x7b' := by
  obtain ⟨⟨b, n⟩, h⟩ := Option.isSome_iff_exists.1 h
  obtain ⟨text, after, hs, -, hbraces, -⟩ := braces?_written h
  obtain ⟨body, rfl, -⟩ := hbraces.parts
  exact (List.cons.inj hs).1

/-- A quantifier in braces takes a byte for each character. -/
theorem Braces.byteLength {text : List Char} {b : Bounds} (h : Braces text b) :
    byteLength text = text.length := by
  have hmarks : ∀ c ∈ ['\x7b', ',', '\x7d'], c.utf8Size = 1 :=
    List.forall_mem_cons.2 ⟨rfl, List.forall_mem_cons.2 ⟨rfl, List.forall_mem_singleton.2 rfl⟩⟩
  exact byteLength_eq_length (h.forall_mem (fun _ => utf8Size_of_isDigit) hmarks)

/-- **Quantifiers in braces.** Bounds are read from the front of a text exactly if they are written there
in one of the three forms and admitted, and the quantifier is as long as it is written. If nothing of
this kind stands there, nothing is read. -/
theorem braces?_iff (s : List Char) :
    (∀ b n, braces? s = some (b, n) ↔ ∃ text after,
      s = text ++ after ∧ RegexDiagram.byteLength text = n ∧ Braces text b ∧ b.Admitted) ∧
    (braces? s = none ↔ ∀ text b, text <+: s → Braces text b → ¬ b.Admitted) := by
  have hwritten (b : Bounds) (n : Nat) : braces? s = some (b, n) ↔ ∃ text after,
      s = text ++ after ∧ RegexDiagram.byteLength text = n ∧ Braces text b ∧ b.Admitted := by
    constructor
    · intro h
      obtain ⟨text, after, hs, hn, hbraces, hadmitted⟩ := braces?_written h
      exact ⟨text, after, hs, hbraces.byteLength.trans hn, hbraces, hadmitted⟩
    · rintro ⟨text, after, rfl, rfl, hbraces, hadmitted⟩
      rw [hbraces.read_admitted hadmitted, hbraces.byteLength]
  refine ⟨hwritten, ?_⟩
  constructor
  · rintro hnone text b ⟨after, rfl⟩ hbraces hadmitted
    exact nomatch hnone.symm.trans (hbraces.read_admitted hadmitted after)
  · intro hnothing
    cases hread : braces? s with
    | none => rfl
    | some found =>
      obtain ⟨text, after, rfl, -, hbraces, hadmitted⟩ := (hwritten found.1 found.2).1 hread
      exact absurd hadmitted (hnothing text found.1 (List.prefix_append text after) hbraces)

/-- What is read is written in front of the text. -/
theorem read?_written {s : List Char} {b : Bounds} {n : Nat} (h : read? s = some (b, n)) :
    ∃ text after, s = text ++ after ∧ text.length = n ∧ Written text b := by
  unfold read? at h
  split at h
  next after =>
    cases h
    exact ⟨['*'], after, rfl, rfl, .star⟩
  next after =>
    cases h
    exact ⟨['+'], after, rfl, rfl, .plus⟩
  next after =>
    cases h
    exact ⟨['?'], after, rfl, rfl, .question⟩
  next =>
    obtain ⟨text, after, hs, hn, hw, -⟩ := braces?_written h
    exact ⟨text, after, hs, hn, .braces hw⟩

theorem read?_admitted {s : List Char} {b : Bounds} {n : Nat} (h : read? s = some (b, n)) : b.Admitted := by
  unfold read? at h
  split at h
  next =>
    cases h
    exact ⟨by decide, by simp⟩
  next =>
    cases h
    exact ⟨by decide, by simp⟩
  next =>
    cases h
    exact ⟨by decide, by simp [UInt32.size]⟩
  next =>
    obtain ⟨-, -, -, -, -, hadmitted⟩ := braces?_written h
    exact hadmitted

end Bounds

/-- A quantifier begins with a mark or a brace. -/
theorem Quantifier.read?_of_notMem {c : Char} (h : c ∉ ['*', '+', '?', '\x7b']) (rest : List Char) :
    read? (c :: rest) = none := by
  have hbrace : (Bounds.braces? (c :: rest)).isSome ≠ true := fun hbraces => by
    obtain rfl := Bounds.braces?_brace hbraces
    exact h (by decide)
  refine Option.map_eq_none_iff.2 ?_
  unfold Bounds.read?
  split
  next heq => exact absurd ((List.cons.inj heq).1 ▸ .head _) h
  next heq => exact absurd ((List.cons.inj heq).1 ▸ .tail _ (.head _)) h
  next heq => exact absurd ((List.cons.inj heq).1 ▸ .tail _ (.tail _ (.head _))) h
  next => exact Option.not_isSome_iff_eq_none.1 hbrace

/-- A quantifier and the repetition it stands for: bounds, and a question mark behind them that makes
it lazy. -/
def Quantifier.Written (text : List Char) (r : Repetition) : Prop :=
  ∃ bounds mark, text = bounds ++ mark ∧ Bounds.Written bounds ⟨r.min, r.max⟩ ∧
    (mark = [] ∧ r.greedy = true ∨ mark = ['?'] ∧ r.greedy = false)

theorem Quantifier.Written.forall_mem {P : Char → Prop} (hdigit : ∀ c, c.isDigit = true → P c)
    (hmarks : ∀ c ∈ ['*', '+', '?', '\x7b', ',', '\x7d'], P c) {text : List Char} {r : Repetition}
    (h : Quantifier.Written text r) : ∀ c ∈ text, P c := by
  obtain ⟨bounds, mark, rfl, hbounds, hmark⟩ := h
  refine List.forall_mem_append.2 ⟨hbounds.forall_mem hdigit hmarks, ?_⟩
  obtain ⟨rfl, -⟩ | ⟨rfl, -⟩ := hmark
  · exact fun _ hc => absurd hc List.not_mem_nil
  · exact List.forall_mem_singleton.2 (hmarks _ (by decide))

/-- No quantifier is empty. -/
theorem Quantifier.Written.ne_nil {text : List Char} {r : Repetition}
    (h : Quantifier.Written text r) : text ≠ [] := by
  obtain ⟨bounds, mark, rfl, hb, -⟩ := h
  intro h
  exact hb.ne_nil (List.append_eq_nil_iff.1 h).1

/-- A quantifier that is read is written in one of the forms, and stands for its repetition. -/
theorem Quantifier.read?_written {s : List Char} {q : Quantifier}
    (h : Quantifier.read? s = some q) : Quantifier.Written q.text q.repetition := by
  obtain ⟨⟨b, n⟩, hb, rfl⟩ := Option.map_eq_some_iff.1 h
  obtain ⟨text, after, rfl, rfl, hw⟩ := Bounds.read?_written hb
  simp only [List.drop_left]
  cases after with
  | nil => exact ⟨text, [], by simp, hw, .inl ⟨rfl, rfl⟩⟩
  | cons c more =>
    by_cases hc : c = '?'
    · rw [hc]
      refine ⟨text, ['?'], ?_, hw, .inr ⟨rfl, rfl⟩⟩
      simp [List.take_append, List.take_of_length_le]
    · refine ⟨text, [], ?_, hw, .inl ⟨rfl, ?_⟩⟩
      · simp [hc]
      · simp [hc]

namespace Repetition

/-- The bounds of the repetition are admitted. -/
def Admitted (r : Repetition) : Prop := Bounds.Admitted ⟨r.min, r.max⟩

/-- A repetition that is read is admitted. -/
theorem admitted_of_read? {s : List Char} {q : Quantifier} (h : Quantifier.read? s = some q) :
    q.repetition.Admitted := by
  obtain ⟨_, hbounds, rfl⟩ := Option.map_eq_some_iff.1 h
  exact Bounds.read?_admitted hbounds

/-- The text of a repetition is a quantifier in braces and the mark of a lazy one. -/
theorem text_braces (r : Repetition) :
    ∃ bounds, r.text = bounds ++ (if r.greedy then [] else ['?']) ∧ Bounds.Braces bounds ⟨r.min, r.max⟩ := by
  obtain ⟨min, max, greedy⟩ := r
  have hmin := isNumber_decimal min
  have hvalue := numeralValue_decimal min
  cases max with
  | none =>
    refine ⟨['\x7b'] ++ decimal min ++ [',', '\x7d'], by simp [text], ?_⟩
    have hbraces := Bounds.Braces.least hmin
    rwa [hvalue] at hbraces
  | some max =>
    by_cases heq : max = min
    · subst heq
      refine ⟨['\x7b'] ++ decimal max ++ ['\x7d'], by simp [text], ?_⟩
      have hbraces := Bounds.Braces.exact hmin
      rwa [hvalue] at hbraces
    · refine ⟨['\x7b'] ++ decimal min ++ [','] ++ decimal max ++ ['\x7d'], by simp [text, heq], ?_⟩
      have hbraces := Bounds.Braces.between hmin (isNumber_decimal max)
      rwa [hvalue, numeralValue_decimal max] at hbraces

/-- A repetition that is written in braces is read again as it was. -/
theorem read?_text {r : Repetition} (h : r.Admitted) : Quantifier.read? r.text = some ⟨r, r.text⟩ := by
  obtain ⟨bounds, htext, hbraces⟩ := r.text_braces
  have hread : Bounds.read? r.text = some (⟨r.min, r.max⟩, bounds.length) := by
    rw [htext, ← hbraces.read_admitted h (if r.greedy then [] else ['?'])]
    obtain ⟨body, rfl, -⟩ := hbraces.parts
    rfl
  rw [Quantifier.read?, hread, Option.map_some, htext]
  simp only [List.drop_left]
  obtain ⟨min, max, greedy⟩ := r
  cases greedy with
  | true => simp
  | false => simp [List.take_of_length_le]

end Repetition

end Pattern

end RegexDiagram
