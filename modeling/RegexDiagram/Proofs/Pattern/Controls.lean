import RegexDiagram.Proofs.Pattern.Letters
import RegexDiagram.Proofs.Pattern.Shapes

/-!
# Control characters

Texts without control characters are the ones that can be measured. The names of groups are among them, and so
are the labels of escapes, but for what they copy from the pattern: the name behind a `k` or a `p` may have any
character (`read_worded`).
-/

namespace RegexDiagram

open Pattern

/-! ## Texts without control characters -/

/-- There is a control character in the text. -/
def isRefused (text : List Char) : Bool := text.any isControl

/-- No control character. -/
def Calm (c : Char) : Prop := isControl c = false

instance (c : Char) : Decidable (Calm c) := inferInstanceAs (Decidable (_ = _))

theorem hasPrintable_calm : HasPrintable Calm := fun _ h => h.isControl

theorem isRefused_eq_false {text : List Char} : isRefused text = false ↔ AllIn Calm text := by
  rw [isRefused, List.any_eq_false]
  exact forall₂_congr fun _ _ => Bool.eq_false_iff.symm

theorem calm_of_printable {text : List Char} (h : AllPrintable text) : AllIn Calm text :=
  hasPrintable_calm.all h

/-- The letters and numbers outside ASCII lie behind the control characters. -/
theorem calm_of_isAlphanumeric {c : Char} (h : isAlphanumeric c = true) : Calm c := by
  unfold isAlphanumeric at h
  split at h
  · obtain halpha | hdigit := Bool.or_eq_true_iff.1 h
    · exact (printable_of_isAlpha halpha).1.isControl
    · exact (printable_of_isDigit hdigit).isControl
  · obtain ⟨range, hrange, hin⟩ := List.any_eq_true.1 h
    have hbehind : alphanumericRanges.all (fun range => 0x9F < range.1) = true := by decide +kernel
    have hlow : 0x9F < range.1 := of_decide_eq_true (List.all_eq_true.1 hbehind range hrange)
    have hle : range.1 ≤ c.toNat := of_decide_eq_true (Bool.and_eq_true_iff.1 hin).1
    have hcontrol : ¬ (c.toNat < 0x20 ∨ 0x7F ≤ c.toNat ∧ c.toNat ≤ 0x9F) := by omega
    refine Bool.eq_false_iff.2 fun h => hcontrol ?_
    simpa only [isControl, Bool.or_eq_true, Bool.and_eq_true, decide_eq_true_eq] using h

theorem calm_of_isName {name : List Char} (h : IsName name) : AllIn Calm name := fun c hc => by
  obtain halpha | rfl | rfl := h.2 c hc
  · exact calm_of_isAlphanumeric halpha
  · rfl
  · rfl

/-! ## Labels of escapes -/

namespace Pattern

/-- The part of an escape's label that is copied from the pattern: the name of a group or a property. -/
def Meaning.name : Meaning → List Char
  | .namedBackReference name => name
  | .property _ name => name
  | _ => []

/-- The label has nothing but its name and printable characters. -/
def Meaning.Worded (meaning : Meaning) : Prop := ∀ c ∈ meaning.label, c ∈ meaning.name ∨ Printable c

namespace Escape

def Worded (e : Escape) : Prop := ∀ meaning, e.shown = .named meaning → meaning.Worded

theorem Lettered.worded {e : Escape} (h : e.Lettered Printable) : e.Worded := fun meaning hshown c hc => by
  rw [Lettered, hshown] at h
  exact .inr (h c hc)

theorem plain_worded (c : Char) (length : Nat) (trouble : Option Anomaly.Kind) :
    Worded ⟨.plain c, length, trouble⟩ :=
  fun _ h => absurd h Shown.noConfusion

theorem identity_worded (c : Char) : (identity c).Worded := by
  unfold identity
  split <;> exact plain_worded _ _ _

/-- A label that is a name between texts of the layout. -/
theorem named_worded {meaning : Meaning} (front back : List Char)
    (hlabel : meaning.label = front ++ meaning.name ++ back) (hfront : front.all (fun c => Printable c) = true)
    (hback : back.all (fun c => Printable c) = true) (length : Nat) : (named meaning length).Worded := by
  rintro _ hshown c hc
  obtain rfl := Shown.named.inj hshown
  rw [hlabel, List.mem_append, List.mem_append] at hc
  obtain (hc | hc) | hc := hc
  · exact .inr (allPrintable_of_all hfront c hc)
  · exact .inl hc
  · exact .inr (allPrintable_of_all hback c hc)

theorem property_worded (negated : Bool) (rest : List Char) : (property negated rest).Worded := by
  unfold property
  split
  · split
    · split
      · exact plain_worded _ _ _
      · cases negated with
        | false =>
          exact named_worded "unicode property ".toList [] (List.append_nil _).symm (by decide) rfl _
        | true =>
          exact named_worded "not unicode property ".toList [] (List.append_nil _).symm (by decide) rfl _
    · exact plain_worded _ _ _
  · exact plain_worded _ _ _

theorem namedBackReference_worded (rest : List Char) : (namedBackReference rest).Worded := by
  unfold namedBackReference
  split
  · split
    · split
      · exact plain_worded _ _ _
      · exact named_worded "back reference (".toList [')'] rfl (by decide) (by decide) _
    · exact plain_worded _ _ _
  · exact plain_worded _ _ _

theorem shared_worded (c : Char) (rest : List Char) : (shared c rest).Worded :=
  have hprintable : HasPrintable Printable := fun _ h => h
  shared_cases (P := fun _ e => e.Worded)
    (fun hmeaning => (letterMeaning_lettered hprintable hmeaning).worded)
    (zero_lettered hprintable rest).worded (control_lettered hprintable rest).worded
    (hex_lettered hprintable rest).worded (unicode_lettered hprintable rest).worded
    (fun negated => property_worded negated rest) identity_worded c

theorem outside_worded (s : List Char) : (outside s).Worded := by
  cases s with
  | nil => exact plain_worded _ _ _
  | cons c rest =>
    rw [outside]
    split_ifs with hb hB hk hdigit
    · exact named_worded "word boundary".toList [] rfl (by decide) rfl _
    · exact named_worded "non-word boundary".toList [] rfl (by decide) rfl _
    · exact namedBackReference_worded rest
    · have hprintable := printable_of_between hdigit.1 hdigit.2 (by decide) (by decide)
      have hlabel : (Meaning.backReference c).label = "back reference #".toList ++ [c] := rfl
      exact (named_lettered (fun _ h => h) 1 hlabel (by decide) (List.forall_mem_singleton.2 hprintable)).worded
    · exact shared_worded c rest

theorem inside_worded (s : List Char) : (inside s).Worded := by
  cases s with
  | nil => exact plain_worded _ _ _
  | cons c rest =>
    rw [inside]
    split_ifs
    · exact named_worded "backspace".toList [] rfl (by decide) rfl _
    · exact plain_worded _ _ _
    · exact (octal_lettered (fun _ h => h) _ _).worded
    · exact shared_worded c rest

end Escape

def View.Worded (v : View) : Prop := ∀ meaning ∈ v.meaning?, meaning.Worded

theorem View.worded_of_meaning {v : View} (h : v.meaning? = none) : v.Worded :=
  fun meaning hmeaning => absurd (h ▸ hmeaning) (Option.not_mem_none meaning)

/-- The labels of a pattern copy nothing from it but the names. -/
theorem read_worded (input : List Char) : ∀ v ∈ (read input).root.descendants, v.Worded :=
  List.forall_mem_cons.2 ⟨View.worded_of_meaning rfl, read_built (built_of_meanings View.worded_of_meaning
    (fun _ hshown _ hmeaning => by
      obtain rfl := Option.some.inj hmeaning
      exact Escape.outside_worded _ _ hshown)
    (fun _ hshown _ hmeaning => by
      obtain rfl := Option.some.inj hmeaning
      exact Escape.inside_worded _ _ hshown))⟩

/-- Only the name of an escape can bring a control character into its label. -/
def View.Copies (v : View) : Prop :=
  ∀ meaning ∈ v.meaning?, AllIn Calm meaning.name → AllIn Calm meaning.label

theorem read_copies (input : List Char) : ∀ v ∈ (read input).root.descendants, v.Copies :=
  fun v hv meaning hmeaning hname c hc =>
    (read_worded input v hv meaning hmeaning c hc).elim (hname c) (hasPrintable_calm c)

/-- A name stands in its label as it is. -/
theorem Meaning.name_subset_label (meaning : Meaning) : meaning.name ⊆ meaning.label := by
  cases meaning with
  | namedBackReference name =>
    exact List.Subset.trans (List.subset_append_right _ _) (List.subset_append_left _ _)
  | property negated name =>
    cases negated with
    | false => exact List.subset_append_right _ _
    | true => exact List.subset_append_right _ _
  | _ => exact List.nil_subset _

/-- The label of an escape. -/
def View.label? (v : View) : Option (List Char) := v.meaning?.map Meaning.label

end Pattern

end RegexDiagram
