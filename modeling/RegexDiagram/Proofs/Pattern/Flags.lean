import RegexDiagram.Pattern.Label
import Mathlib.Data.List.Sort

/-!
# Captions of flags

A caption has a name for each flag that is given, in the order of the letters, so it does not matter how
often and in which order they are given (`distinctInOrder_eq_iff`). The names are told apart by the commas
between them, of which they have none themselves (`joinWith_comma_inj`), and different flags have different
names (`flagName_inj`). So a caption tells exactly which flags there are (`flagsCaption_eq_iff`).
-/

namespace RegexDiagram.Pattern

/-! ## Letters in order -/

theorem mem_insertOrdered {c d : Char} {s : List Char} : d ∈ insertOrdered c s ↔ d = c ∨ d ∈ s := by
  induction s with
  | nil => exact List.mem_cons
  | cons e rest ih =>
    rw [insertOrdered]
    split_ifs with hlt heq
    · exact List.mem_cons
    · subst heq
      exact ⟨.inr, fun h => h.elim (fun hd => hd ▸ .head _) id⟩
    · rw [List.mem_cons, ih, List.mem_cons, or_left_comm]

theorem mem_distinctInOrder {d : Char} {s : List Char} : d ∈ distinctInOrder s ↔ d ∈ s := by
  induction s with
  | nil => exact Iff.rfl
  | cons c rest ih =>
    have hstep : distinctInOrder (c :: rest) = insertOrdered c (distinctInOrder rest) := rfl
    rw [hstep, mem_insertOrdered, ih, List.mem_cons]

theorem pairwise_insertOrdered (c : Char) {s : List Char} (h : s.Pairwise (· < ·)) :
    (insertOrdered c s).Pairwise (· < ·) := by
  induction s with
  | nil => exact List.pairwise_singleton _ _
  | cons d rest ih =>
    obtain ⟨hd, hrest⟩ := List.pairwise_cons.1 h
    rw [insertOrdered]
    split_ifs with hlt heq
    · refine List.pairwise_cons.2 ⟨List.forall_mem_cons.2 ⟨hlt, fun e he => ?_⟩, h⟩
      exact Char.lt_trans hlt (hd e he)
    · exact h
    · have hless : d < c := Std.lt_of_le_of_ne (Char.not_lt.1 hlt) (Ne.symm heq)
      refine List.pairwise_cons.2 ⟨fun e he => ?_, ih hrest⟩
      obtain rfl | he := mem_insertOrdered.1 he
      · exact hless
      · exact hd e he

theorem pairwise_distinctInOrder (s : List Char) : (distinctInOrder s).Pairwise (· < ·) := by
  induction s with
  | nil => exact List.Pairwise.nil
  | cons c rest ih => exact pairwise_insertOrdered c ih

/-- A text in order, each character once, tells which characters there are and nothing else. -/
theorem distinctInOrder_eq_iff {s t : List Char} :
    distinctInOrder s = distinctInOrder t ↔ ∀ c, c ∈ s ↔ c ∈ t := by
  constructor
  · intro h c
    rw [← mem_distinctInOrder, h, mem_distinctInOrder]
  · intro h
    refine (pairwise_distinctInOrder s).eq_of_mem_iff (pairwise_distinctInOrder t) fun c => ?_
    rw [mem_distinctInOrder, mem_distinctInOrder, h]

/-! ## Names -/

/-- The flags that have a meaning. -/
def knownFlags : List Char := ['d', 'g', 'i', 'm', 's', 'u', 'v', 'y']

theorem flagName_of_unknown {flag : Char} (h : flag ∉ knownFlags) : flagName flag = [flag] := by
  simp only [knownFlags, List.mem_cons, List.not_mem_nil, or_false, not_or] at h
  obtain ⟨hd, hg, hi, hm, hs, hu, hv, hy⟩ := h
  rw [flagName, if_neg hd, if_neg hg, if_neg hi, if_neg hm, if_neg hs, if_neg hu, if_neg hv, if_neg hy]

/-- What holds of the eight flags with a meaning holds of each of them. -/
theorem forall_knownFlags {P : Char → Prop} [DecidablePred P]
    (h : knownFlags.all (fun flag => P flag) = true) {flag : Char} (hflag : flag ∈ knownFlags) : P flag :=
  of_decide_eq_true (List.all_eq_true.1 h flag hflag)

/-- A meaning is longer than a letter. -/
theorem length_flagName_of_known {flag : Char} (h : flag ∈ knownFlags) : 1 < (flagName flag).length :=
  forall_knownFlags (P := fun flag => 1 < (flagName flag).length) (by decide) h

/-- Different flags have different names. -/
theorem flagName_inj {c d : Char} (h : flagName c = flagName d) : c = d := by
  have hall : knownFlags.all (fun c => knownFlags.all fun d => flagName c = flagName d → c = d) = true := by
    decide +kernel
  by_cases hc : c ∈ knownFlags <;> by_cases hd : d ∈ knownFlags
  · exact of_decide_eq_true (List.all_eq_true.1 (List.all_eq_true.1 hall c hc) d hd) h
  · have hlong := length_flagName_of_known hc
    rw [h, flagName_of_unknown hd] at hlong
    exact absurd hlong (lt_irrefl 1)
  · have hlong := length_flagName_of_known hd
    rw [← h, flagName_of_unknown hc] at hlong
    exact absurd hlong (lt_irrefl 1)
  · rw [flagName_of_unknown hc, flagName_of_unknown hd] at h
    exact List.singleton_inj.1 h

/-- No name of a letter has a comma. -/
theorem comma_notMem_flagName {flag : Char} (h : flag.isAlpha = true) : ',' ∉ flagName flag := by
  by_cases hflag : flag ∈ knownFlags
  · exact forall_knownFlags (P := fun flag => ',' ∉ flagName flag) (by decide) hflag
  · rw [flagName_of_unknown hflag, List.mem_singleton]
    rintro rfl
    exact absurd h (by decide)

/-! ## Captions -/

/-- What stands in front of the first `stop` is found. -/
theorem before?_append_stop {stop : Char} {s : List Char} (h : stop ∉ s) (rest : List Char) :
    before? stop (s ++ stop :: rest) = some s := by
  induction s with
  | nil => exact if_pos rfl
  | cons c s ih =>
    obtain ⟨hc, hs⟩ := not_or.1 (fun hmem => h (List.mem_cons.2 hmem))
    rw [List.cons_append, before?, if_neg (Ne.symm hc), ih hs, Option.map_some]

/-- Pieces without commas can be told apart where they are joined by commas. -/
theorem joinWith_comma_inj {pieces others : List (List Char)} (hpieces : ∀ p ∈ pieces, ',' ∉ p)
    (hothers : ∀ p ∈ others, ',' ∉ p) (hne : pieces ≠ []) (hne' : others ≠ [])
    (h : joinWith [',', ' '] pieces = joinWith [',', ' '] others) : pieces = others := by
  -- a piece that is not the last has a comma behind it
  have hcons (p q : List Char) (more : List (List Char)) :
      joinWith [',', ' '] (p :: q :: more) = p ++ ',' :: ' ' :: joinWith [',', ' '] (q :: more) := by
    rw [joinWith, List.append_assoc]
    rfl
  have hcomma (p q : List Char) (more : List (List Char)) : ',' ∈ joinWith [',', ' '] (p :: q :: more) := by
    rw [hcons]
    exact List.mem_append_right _ (.head _)
  induction pieces generalizing others with
  | nil => exact absurd rfl hne
  | cons p rest ih =>
    obtain ⟨q, more, rfl⟩ := List.exists_cons_of_ne_nil hne'
    obtain ⟨hp, hrest⟩ := List.forall_mem_cons.1 hpieces
    obtain ⟨hq, hmore⟩ := List.forall_mem_cons.1 hothers
    match rest, more with
    | [], [] => exact congrArg ([·]) h
    | [], q' :: more =>
      have hmem := hcomma q q' more
      rw [← h] at hmem
      exact absurd hmem hp
    | p' :: rest, [] =>
      have hmem := hcomma p p' rest
      rw [h] at hmem
      exact absurd hmem hq
    | p' :: rest, q' :: more =>
      rw [hcons, hcons] at h
      have hfirst : some p = some q := by
        rw [← before?_append_stop hp, h, before?_append_stop hq]
      obtain rfl := Option.some.inj hfirst
      have hbehind := List.append_cancel_left h
      simp only [List.cons.injEq, true_and] at hbehind
      rw [ih hrest hmore (List.cons_ne_nil _ _) (List.cons_ne_nil _ _) hbehind]

/-- **A caption is a name for the set of flags**: two lists of letters have the same caption exactly if they
have the same letters, in whatever order and however often. -/
theorem flagsCaption_eq_iff {flags others : List Char} (hflags : ∀ c ∈ flags, c.isAlpha = true)
    (hothers : ∀ c ∈ others, c.isAlpha = true) :
    flagsCaption flags = flagsCaption others ↔ ∀ c, c ∈ flags ↔ c ∈ others := by
  have hnames {flags : List Char} (hflags : ∀ c ∈ flags, c.isAlpha = true) :
      ∀ name ∈ (distinctInOrder flags).map flagName, ',' ∉ name :=
    List.forall_mem_map.2 fun c hc => comma_notMem_flagName (hflags c (mem_distinctInOrder.1 hc))
  rw [← distinctInOrder_eq_iff]
  constructor
  · intro h
    have hleft := hnames hflags
    have hright := hnames hothers
    rw [flagsCaption, flagsCaption] at h
    generalize distinctInOrder flags = letters at h hleft ⊢
    generalize distinctInOrder others = letters' at h hright ⊢
    match letters, letters' with
    | [], [] => rfl
    | [], c :: rest => exact nomatch h
    | c :: rest, [] => exact nomatch h
    | c :: rest, d :: more =>
      have hjoined := List.append_cancel_left (Option.some.inj h)
      have hequal := joinWith_comma_inj hleft hright (List.cons_ne_nil _ _) (List.cons_ne_nil _ _) hjoined
      exact List.map_injective_iff.2 (fun _ _ => flagName_inj) hequal
  · intro h
    rw [flagsCaption, flagsCaption, h]

/-- Flags in another order, one of them twice. -/
theorem flagsCaption_repeated :
    (∀ c ∈ "yggi".toList, c.isAlpha = true) ∧ (∀ c ∈ "igy".toList, c.isAlpha = true) ∧
      flagsCaption "yggi".toList = flagsCaption "igy".toList := by
  have hflags : ∀ c ∈ "yggi".toList, c.isAlpha = true := List.all_eq_true.1 (by decide)
  have hothers : ∀ c ∈ "igy".toList, c.isAlpha = true := List.all_eq_true.1 (by decide)
  have hsubset : "yggi".toList ⊆ "igy".toList := by decide
  have hsubset' : "igy".toList ⊆ "yggi".toList := by decide
  exact ⟨hflags, hothers, (flagsCaption_eq_iff hflags hothers).2 fun c => ⟨@hsubset c, @hsubset' c⟩⟩

end RegexDiagram.Pattern
