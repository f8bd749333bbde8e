import RegexDiagram.Pattern.Tree
import Mathlib.Tactic.SplitIfs

/-!
# What is wrong with an escape

The readers of escapes note what is wrong while they read. `Escape.troubleOf` says the same by the
characters of the escape alone, without the reader: nothing is wrong with an escape that has a name,
and one that stands for a character is judged by what is behind its backslash.

`Escape.outside_judged` and `Escape.inside_judged` are the two results, for the two places an escape
can be in. `Escape.troubles` puts the judgement at the place of a literal in the pattern.

What both places share is taken apart once, by the letters that begin an escape: `Escape.shared_cases`. The
last section bounds how many characters an escape takes: `Escape.length_outside_le` and
`Escape.length_inside_le`.
-/

namespace RegexDiagram

section Leading

variable (n : Nat) (p : Char → Bool) (s : List Char)

theorem leading_isPrefix : leading n p s <+: s :=
  (List.takeWhile_prefix p).trans (List.take_prefix n s)

theorem length_leading_le : (leading n p s).length ≤ s.length := (leading_isPrefix n p s).length_le

/-- As many characters as there are in the leading run are the leading run. -/
theorem take_leading : s.take (leading n p s).length = leading n p s :=
  (List.prefix_iff_eq_take.1 (leading_isPrefix n p s)).symm

theorem leading_all : ∀ c ∈ leading n p s, p c = true := List.all_eq_true.1 List.all_takeWhile

theorem length_leading_le_bound : (leading n p s).length ≤ n :=
  Nat.le_trans (List.takeWhile_prefix p).length_le (List.length_take_le n s)

/-- The leading run ends where it is as long as it may be or where a character is of another kind. -/
theorem leading_maximal : (leading n p s).length = n ∨
    ∀ c ∈ (s.drop (leading n p s).length).head?, p c = false := by
  induction n generalizing s with
  | zero => exact .inl rfl
  | succ n ih =>
    cases s with
    | nil => exact .inr fun _ hc => absurd hc (Option.not_mem_none _)
    | cons c rest =>
      by_cases hc : p c = true
      · have hrun : leading (n + 1) p (c :: rest) = c :: leading n p rest := by
          rw [leading, List.take_succ_cons, List.takeWhile_cons_of_pos hc]
          rfl
        rw [hrun, List.length_cons, List.drop_succ_cons]
        exact (ih rest).imp_left (congrArg Nat.succ)
      · have hrun : leading (n + 1) p (c :: rest) = [] := by
          rw [leading, List.take_succ_cons, List.takeWhile_cons_of_neg hc]
        rw [hrun]
        refine .inr fun d hd => ?_
        obtain rfl := Option.some.inj hd
        exact Bool.eq_false_iff.2 hc

end Leading

namespace Pattern

namespace Escape

/-! ## The escapes of both places -/

/-- What holds of each of the escapes that both places share, by the character behind the backslash. -/
theorem shared_cases {P : Char → Escape → Prop} {rest : List Char}
    (letter : ∀ {c : Char} {meaning : Meaning}, letterMeaning? c = some meaning → P c (named meaning 1))
    (zero : P '0' (zero rest)) (control : P 'c' (control rest)) (hex : P 'x' (hex rest))
    (unicode : P 'u' (unicode rest))
    (property : ∀ negated, P (property.letter negated) (property negated rest))
    (identity : ∀ c, P c (identity c)) (c : Char) : P c (shared c rest) := by
  unfold shared
  split
  next meaning hmeaning => exact letter hmeaning
  split
  next hc => exact hc ▸ zero
  split
  next hc => exact hc ▸ control
  split
  next hc => exact hc ▸ hex
  split
  next hc => exact hc ▸ unicode
  split
  next hc => exact hc ▸ property false
  split
  next hc => exact hc ▸ property true
  next => exact identity c

/-! ## Judgements -/

/-- What is wrong with an escape that stands for a character, by what is behind its backslash. Some
letters begin longer escapes, and some letters may be escaped without need. -/
def troubleOf (begun allowed : List Char) : List Char → Option Anomaly.Kind
  | [] => some .trailingBackslash
  | [c] =>
    if c ∈ begun then some (.incompleteEscape c)
    else if c.isAlphanum ∧ c ∉ allowed then some (.unknownEscape c)
    else none
  | _ => none

/-- The judgement outside a class. -/
def troubleOutside : List Char → Option Anomaly.Kind :=
  troubleOf ['c', 'x', 'u', 'p', 'P', 'k'] []

/-- The judgement inside a class, where `k` begins nothing and `B` stands for itself. -/
def troubleInside : List Char → Option Anomaly.Kind :=
  troubleOf ['c', 'x', 'u', 'p', 'P'] ['B']

/-- The trouble of an escape read from the front of the text is what the judgement says of its
characters; there is none if the escape has a name. -/
def Judged (judge : List Char → Option Anomaly.Kind) (s : List Char) (e : Escape) : Prop :=
  match e.shown with
  | .named _ => e.trouble = none
  | .plain _ => e.trouble = judge (s.take e.length)

/-- A longer escape has a name, or it is not completed and its letter is left. -/
def Completes (letter : Char) (e : Escape) : Prop :=
  (∃ meaning length, e = named meaning length) ∨ e = incomplete letter

theorem namedBackReference_completes (rest : List Char) :
    (namedBackReference rest).Completes 'k' := by
  unfold namedBackReference
  split
  · split
    · split
      · exact .inr rfl
      · exact .inl ⟨_, _, rfl⟩
    · exact .inr rfl
  · exact .inr rfl

theorem control_completes (rest : List Char) : (control rest).Completes 'c' := by
  unfold control
  split
  · split
    · exact .inl ⟨_, _, rfl⟩
    · exact .inr rfl
  · exact .inr rfl

theorem hex_completes (rest : List Char) : (hex rest).Completes 'x' := by
  unfold hex
  simp only
  split
  · exact .inl ⟨_, _, rfl⟩
  · exact .inr rfl

theorem unicode_completes (rest : List Char) : (unicode rest).Completes 'u' := by
  unfold unicode
  split
  all_goals
    simp only
    split
    · exact .inl ⟨_, _, rfl⟩
    · exact .inr rfl

theorem property_completes (negated : Bool) (rest : List Char) :
    (property negated rest).Completes (property.letter negated) := by
  unfold property
  split
  · split
    · split
      · exact .inr rfl
      · exact .inl ⟨_, _, rfl⟩
    · exact .inr rfl
  · exact .inr rfl

section Judged

variable {begun allowed : List Char} {c : Char}

theorem named_judged (meaning : Meaning) (length : Nat) (judge : List Char → Option Anomaly.Kind)
    (s : List Char) : (named meaning length).Judged judge s := rfl

/-- A letter that begins longer escapes is judged as such. -/
theorem Completes.judged {e : Escape} (h : e.Completes c) (hc : c ∈ begun) (rest : List Char) :
    e.Judged (troubleOf begun allowed) (c :: rest) := by
  rcases h with ⟨meaning, length, rfl⟩ | rfl
  · exact named_judged ..
  · exact (if_pos hc).symm

theorem identity_judged (hbegun : c ∉ begun) (hallowed : c ∉ allowed) (rest : List Char) :
    (identity c).Judged (troubleOf begun allowed) (c :: rest) := by
  unfold identity
  by_cases hc : c.isAlphanum = true
  · rw [if_pos hc]
    show _ = troubleOf begun allowed [c]
    rw [troubleOf, if_neg hbegun, if_pos ⟨hc, hallowed⟩]
  · rw [if_neg hc]
    show _ = troubleOf begun allowed [c]
    rw [troubleOf, if_neg hbegun, if_neg (fun h => hc h.1)]
    rfl

/-- The escapes that both places share are judged alike, whatever else begins a longer escape. -/
theorem shared_judged {more : List Char} (hmore : c ∉ more) (hallowed : c ∉ allowed)
    (rest : List Char) :
    (shared c rest).Judged (troubleOf (['c', 'x', 'u', 'p', 'P'] ++ more) allowed) (c :: rest) := by
  have hb : ∀ letter ∈ ['c', 'x', 'u', 'p', 'P'], c = letter →
      c ∈ ['c', 'x', 'u', 'p', 'P'] ++ more := by
    intro letter hmem hc
    rw [hc]
    exact List.mem_append_left more hmem
  unfold shared
  split
  · exact named_judged ..
  split
  · unfold zero
    simp only
    split <;> exact named_judged ..
  split
  next hc => exact Completes.judged (hc ▸ control_completes rest) (hb _ (by decide) hc) rest
  next hcontrol =>
  split
  next hc => exact Completes.judged (hc ▸ hex_completes rest) (hb _ (by decide) hc) rest
  next hhex =>
  split
  next hc => exact Completes.judged (hc ▸ unicode_completes rest) (hb _ (by decide) hc) rest
  next hunicode =>
  split
  next hc => exact Completes.judged (hc ▸ property_completes false rest) (hb _ (by decide) hc) rest
  next hproperty =>
  split
  next hc => exact Completes.judged (hc ▸ property_completes true rest) (hb _ (by decide) hc) rest
  next hnegated =>
  refine identity_judged (fun h => ?_) hallowed rest
  rcases List.mem_append.1 h with hmem | hmem
  · simp only [List.mem_cons, hcontrol, hhex, hunicode, hproperty, hnegated, List.not_mem_nil,
      or_self] at hmem
  · exact hmore hmem

end Judged

/-- Outside a class, an escape is judged by its characters. -/
theorem outside_judged (s : List Char) : (outside s).Judged troubleOutside s := by
  cases s with
  | nil => rfl
  | cons c rest =>
    rw [outside]
    split
    · exact named_judged ..
    split
    · exact named_judged ..
    split
    next hc =>
      refine Completes.judged (hc ▸ namedBackReference_completes rest) ?_ rest
      rw [hc]
      decide
    next hk =>
    split
    · exact named_judged ..
    · exact shared_judged (fun h => hk (List.mem_singleton.1 h)) List.not_mem_nil rest

/-- Inside a class, an escape is judged by its characters. -/
theorem inside_judged (s : List Char) : (inside s).Judged troubleInside s := by
  cases s with
  | nil => rfl
  | cons c rest =>
    rw [inside]
    split
    · exact named_judged ..
    split
    next hc =>
      rw [hc]
      rfl
    next hB =>
    split
    · exact named_judged ..
    · exact shared_judged List.not_mem_nil (fun h => hB (List.mem_singleton.1 h)) rest

/-- What can be wrong with an escape. -/
def IsTrouble : Anomaly.Kind → Prop
  | .unknownEscape _ | .incompleteEscape _ | .trailingBackslash => True
  | _ => False

theorem isTrouble_troubleOf {begun allowed s : List Char} {kind : Anomaly.Kind}
    (h : troubleOf begun allowed s = some kind) : IsTrouble kind := by
  unfold troubleOf at h
  split at h
  · cases h
    trivial
  · split at h
    · cases h
      trivial
    · split at h
      · cases h
        trivial
      · cases h
  · cases h

/-! ## Literals -/

/-- What is wrong with a literal, by its characters. Only an escape is judged. -/
def troubles (judge : List Char → Option Anomaly.Kind) (span : Span) : List Anomaly :=
  match span.text with
  | '\\' :: s => ((judge s).map (Anomaly.mk span.offset)).toList
  | _ => []

/-- Nothing is wrong with a character that is not escaped. -/
theorem troubles_bare (judge : List Char → Option Anomaly.Kind) {c : Char} (hc : c ≠ '\\')
    (offset : Nat) : troubles judge ⟨[c], offset⟩ = [] := by
  unfold troubles
  split
  next h => exact absurd (List.cons.inj h).1 hc
  next => rfl

/-- What the reader of an escape notes is what is wrong with the literal, or nothing if the escape
has a name. -/
theorem Judged.noted {judge : List Char → Option Anomaly.Kind} {s : List Char} {e : Escape}
    (h : e.Judged judge s) (offset : Nat) :
    (e.trouble.map (Anomaly.mk offset)).toList =
      match e.shown with
      | .named _ => []
      | .plain _ => troubles judge ⟨'\\' :: s.take e.length, offset⟩ := by
  unfold Judged at h
  cases hshown : e.shown with
  | named meaning =>
    rw [hshown] at h
    rw [show e.trouble = none from h]
    rfl
  | plain value =>
    rw [hshown] at h
    rw [show e.trouble = judge (s.take e.length) from h]
    rfl

/-- Only what can be wrong with an escape is wrong with a literal. -/
theorem isTrouble_troubles {begun allowed : List Char} {span : Span} {a : Anomaly}
    (h : a ∈ troubles (troubleOf begun allowed) span) : IsTrouble a.kind ∧ a.offset = span.offset := by
  unfold troubles at h
  split at h
  next s _ =>
    rw [Option.mem_toList, Option.map_eq_some_iff] at h
    obtain ⟨kind, hkind, rfl⟩ := h
    exact ⟨isTrouble_troubleOf hkind, rfl⟩
  next => cases h

end Escape

/-! ## Widths of escapes

An escape takes only characters that are there. -/

namespace Escape

theorem length_identity (c : Char) : (identity c).length = 1 := by
  unfold identity
  split <;> rfl

theorem length_octal_le (s : List Char) : (octal s).length ≤ s.length :=
  length_leading_le 3 isOctalDigit s

theorem length_zero_le (s : List Char) : (zero s).length ≤ s.length + 1 := by
  have hle := length_leading_le 3 isOctalDigit s
  unfold zero
  simp only
  split
  · exact Nat.le_add_left 1 _
  · exact Nat.succ_le_succ hle

theorem length_control_le (s : List Char) : (control s).length ≤ s.length + 1 := by
  unfold control
  split
  · split
    · simp [named]
    · exact Nat.le_add_left 1 _
  · exact Nat.le_refl 1

theorem length_hex_le (s : List Char) : (hex s).length ≤ s.length + 1 := by
  have hle := length_leading_le 2 isHexDigit s
  unfold hex
  simp only
  split
  next htwo => exact Nat.succ_le_succ (htwo ▸ hle)
  next => exact Nat.le_add_left 1 _

theorem length_unicode_le (s : List Char) : (unicode s).length ≤ s.length + 1 := by
  unfold unicode
  split
  next body =>
    simp only
    split
    next hclosed =>
      have hlt : (leading 6 isHexDigit body).length < body.length := by
        refine Nat.lt_of_not_le fun hge => ?_
        rw [List.drop_eq_nil_of_le hge] at hclosed
        exact nomatch hclosed.2
      simp only [named, List.length_cons]
      omega
    next => exact Nat.le_add_left 1 _
  next =>
    have hle := length_leading_le 4 isHexDigit s
    simp only
    split
    next hfour => exact Nat.succ_le_succ (hfour ▸ hle)
    next => exact Nat.le_add_left 1 _

theorem length_property_le (negated : Bool) (s : List Char) :
    (property negated s).length ≤ s.length + 1 := by
  fun_cases property negated s with
  | case2 body name hname hne =>
    obtain ⟨more, rfl⟩ := eq_append_of_before? hname
    simp only [named, List.length_cons, List.length_append]
    omega
  | _ => exact Nat.le_add_left 1 _

theorem length_namedBackReference_le (s : List Char) :
    (namedBackReference s).length ≤ s.length + 1 := by
  fun_cases namedBackReference s with
  | case2 body name hname hne =>
    obtain ⟨more, rfl⟩ := eq_append_of_before? hname
    simp only [named, List.length_cons, List.length_append]
    omega
  | _ => exact Nat.le_add_left 1 _

theorem length_shared_le (c : Char) (s : List Char) : (shared c s).length ≤ s.length + 1 := by
  refine shared_cases (P := fun _ e => e.length ≤ s.length + 1) (fun _ => Nat.le_add_left 1 _)
    (length_zero_le s) (length_control_le s) (length_hex_le s) (length_unicode_le s)
    (fun negated => length_property_le negated s) (fun c => ?_) c
  rw [length_identity]
  exact Nat.le_add_left 1 _

theorem length_outside_le (s : List Char) : (outside s).length ≤ s.length := by
  cases s with
  | nil => exact Nat.le_refl 0
  | cons c rest =>
    rw [outside, List.length_cons]
    split_ifs
    · exact Nat.le_add_left 1 _
    · exact Nat.le_add_left 1 _
    · exact length_namedBackReference_le rest
    · exact Nat.le_add_left 1 _
    · exact length_shared_le c rest

theorem length_inside_le (s : List Char) : (inside s).length ≤ s.length := by
  cases s with
  | nil => exact Nat.le_refl 0
  | cons c rest =>
    rw [inside, List.length_cons]
    split_ifs
    · exact Nat.le_add_left 1 _
    · exact Nat.le_add_left 1 _
    · exact length_octal_le (c :: rest)
    · exact length_shared_le c rest

end Escape

end Pattern

end RegexDiagram
