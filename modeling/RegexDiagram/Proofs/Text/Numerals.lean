import RegexDiagram.Text.Numeral
import Mathlib.Data.List.Induction

/-!
# What numerals stand for

The digits that a number is written in stand for it again, in either case and with zeros in front
(`numeralValue_map_toDigits`, `numeralValue_zeros`), and digits of a base stay below its power
(`numeralValue_lt`). `IsNumeral` describes the one way to write a number in a given width, without the
writer; `isNumeral_padded` says that the writer keeps to it.
-/

namespace RegexDiagram

/-! ## Values -/

theorem numeralValue_snoc (base : Nat) (digits : List Char) (c : Char) :
    numeralValue base (digits ++ [c]) = numeralValue base digits * base + digitValue c := by
  rw [numeralValue, List.foldl_append]
  rfl

/-- Zeros in front do not count. -/
theorem numeralValue_zeros (base count : Nat) (digits : List Char) :
    numeralValue base (List.replicate count '0' ++ digits) = numeralValue base digits := by
  induction count with
  | zero => rfl
  | succ count ih =>
    have hzero : 0 * base + digitValue '0' = 0 := Nat.zero_mul base
    rw [List.replicate_succ, List.cons_append, numeralValue, List.foldl_cons, hzero]
    exact ih

/-- Digits of a base are below its power. -/
theorem numeralValue_lt {base : Nat} {digits : List Char} (h : ∀ c ∈ digits, digitValue c < base) :
    numeralValue base digits < Nat.pow base digits.length := by
  induction digits using List.reverseRecOn with
  | nil => exact Nat.one_pos
  | append_singleton digits c ih =>
    obtain ⟨hdigits, hc⟩ := List.forall_mem_append.1 h
    have hlast := hc c (.head _)
    have hfront : (numeralValue base digits + 1) * base ≤ Nat.pow base digits.length * base :=
      Nat.mul_le_mul_right base (ih hdigits)
    have hpow : Nat.pow base (digits ++ [c]).length = Nat.pow base digits.length * base := by
      rw [List.length_append, List.length_singleton]
      rfl
    rw [numeralValue_snoc, hpow]
    rw [Nat.add_mul, Nat.one_mul] at hfront
    omega

/-- A number stands for itself if each of its digits does, in whatever form they are written. -/
theorem numeralValue_map_toDigits {base : Nat} (hbase : 1 < base) {form : Char → Char}
    (hform : ∀ k < base, digitValue (form (Nat.digitChar k)) = k) (n : Nat) :
    numeralValue base ((Nat.toDigits base n).map form) = n := by
  induction n using Nat.strongRecOn with
  | ind n ih =>
    obtain hn | hn := Nat.lt_or_ge n base
    · rw [Nat.toDigits_of_lt_base hn, List.map_singleton, numeralValue, List.foldl_cons, Nat.zero_mul,
        Nat.zero_add]
      exact hform n hn
    · have hless : n / base < n := Nat.div_lt_self (by omega) hbase
      rw [Nat.toDigits_of_base_le hbase hn, List.map_append, List.map_singleton, numeralValue_snoc,
        ih _ hless, hform _ (Nat.mod_lt n (by omega)), Nat.mul_comm]
      exact Nat.div_add_mod n base

/-! ## Numerals -/

/-- The digits of a base up to sixteen, letters in upper case. -/
def digitsOf (base : Nat) : List Char := "0123456789ABCDEF".toList.take base

/-- The digits spell the number: with the digits of the base, and with no more zeros in front than the width
asks for. -/
structure IsNumeral (base width : Nat) (digits : List Char) (n : Nat) : Prop where
  digit : ∀ c ∈ digits, c ∈ digitsOf base
  value : numeralValue base digits = n
  room : width ≤ digits.length
  zeros : width < digits.length → digits.head? ≠ some '0'

section Padded

variable {base : Nat} (hbase : 1 < base) (hsixteen : base ≤ 16)

include hsixteen

theorem upper_digitChar {k : Nat} (hk : k < base) :
    digitValue (Nat.digitChar k).toUpper = k ∧ (Nat.digitChar k).toUpper ∈ digitsOf base := by
  have hdigits : ∀ k < 16, "0123456789ABCDEF".toList[k]? = some (Nat.digitChar k).toUpper ∧
      digitValue (Nat.digitChar k).toUpper = k := by decide
  obtain ⟨hdigit, hvalue⟩ := hdigits k (Nat.lt_of_lt_of_le hk hsixteen)
  refine ⟨hvalue, List.mem_of_getElem? (i := k) ?_⟩
  rw [digitsOf, List.getElem?_take_of_lt hk, hdigit]

include hbase

/-- The digits of a number that is not zero begin with one that is not zero. -/
theorem toDigits_head {n : Nat} (hn : 0 < n) :
    ∃ k rest, 0 < k ∧ k < base ∧ Nat.toDigits base n = Nat.digitChar k :: rest := by
  induction n using Nat.strongRecOn with
  | ind n ih =>
    obtain hless | hge := Nat.lt_or_ge n base
    · exact ⟨n, [], hn, hless, Nat.toDigits_of_lt_base hless⟩
    · obtain ⟨k, rest, hk, hless, hdigits⟩ :=
        ih (n / base) (Nat.div_lt_self hn hbase) (Nat.div_pos hge (by omega))
      refine ⟨k, rest ++ [Nat.digitChar (n % base)], hk, hless, ?_⟩
      rw [Nat.toDigits_of_base_le hbase hge, hdigits, List.cons_append]

theorem mem_toDigits {n : Nat} {c : Char} (h : c ∈ Nat.toDigits base n) : ∃ k < base, c = Nat.digitChar k := by
  induction n using Nat.strongRecOn with
  | ind n ih =>
    obtain hless | hge := Nat.lt_or_ge n base
    · rw [Nat.toDigits_of_lt_base hless, List.mem_singleton] at h
      exact ⟨n, hless, h⟩
    · rw [Nat.toDigits_of_base_le hbase hge, List.mem_append, List.mem_singleton] at h
      obtain h | h := h
      · exact ih (n / base) (Nat.div_lt_self (by omega) hbase) h
      · exact ⟨n % base, Nat.mod_lt n (by omega), h⟩

/-- A number that is written in upper case and padded to a width is spelled in that width. -/
theorem isNumeral_padded {width : Nat} (hwidth : 0 < width) (n : Nat) :
    IsNumeral base width ((paddedDigits base width n).map Char.toUpper) n := by
  have hlength : ((paddedDigits base width n).map Char.toUpper).length =
      width - (Nat.toDigits base n).length + (Nat.toDigits base n).length := by
    rw [List.length_map, paddedDigits, List.length_append, List.length_replicate]
  have hpadded : (paddedDigits base width n).map Char.toUpper =
      List.replicate (width - (Nat.toDigits base n).length) '0' ++ (Nat.toDigits base n).map Char.toUpper := by
    rw [paddedDigits, List.map_append, List.map_replicate]
    rfl
  constructor
  · rw [hpadded]
    refine List.forall_mem_append.2 ⟨fun c hc => ?_, List.forall_mem_map.2 fun c hc => ?_⟩
    · rw [List.eq_of_mem_replicate hc]
      exact (upper_digitChar hsixteen (k := 0) (by omega)).2
    · obtain ⟨k, hk, rfl⟩ := mem_toDigits hbase hsixteen hc
      exact (upper_digitChar hsixteen hk).2
  · rw [hpadded, numeralValue_zeros]
    exact numeralValue_map_toDigits hbase (fun k hk => (upper_digitChar hsixteen hk).1) n
  · omega
  · -- a number that is longer than the width has no zeros in front, and is not zero
    intro hlonger
    have hcount : width - (Nat.toDigits base n).length = 0 := by omega
    have hn : 0 < n := by
      refine Nat.pos_of_ne_zero ?_
      rintro rfl
      rw [Nat.toDigits_of_lt_base (by omega : 0 < base), List.length_singleton] at hlength
      omega
    obtain ⟨k, rest, hk, hless, hdigits⟩ := toDigits_head hbase hsixteen hn
    rw [hpadded, hcount, hdigits]
    intro hhead
    have hvalue := (upper_digitChar hsixteen hless).1
    rw [Option.some.inj hhead] at hvalue
    exact Nat.ne_of_lt hk hvalue

end Padded

theorem isNumeral_upperHex {width : Nat} (hwidth : 0 < width) (n : Nat) : IsNumeral 16 width (upperHex width n) n :=
  isNumeral_padded (by decide) (by decide) hwidth n

/-- A number that fits into a width takes no more. -/
theorem length_upperHex {width n : Nat} (hwidth : 0 < width) (hn : n < Nat.pow 16 width) :
    (upperHex width n).length = width := by
  have hdigits := (Nat.length_toDigits_le_iff (by decide) hwidth).2 hn
  rw [upperHex, List.length_map, paddedDigits, List.length_append, List.length_replicate]
  omega

/-- Octal digits have no case, and at least one of them is there. -/
theorem isNumeral_octal (n : Nat) : IsNumeral 8 1 (Nat.toDigits 8 n) n := by
  have hcase : ∀ k < 8, (Nat.digitChar k).toUpper = Nat.digitChar k := by decide
  have hdigits : (paddedDigits 8 1 n).map Char.toUpper = Nat.toDigits 8 n := by
    have hlength : 1 - (Nat.toDigits 8 n).length = 0 := Nat.sub_eq_zero_of_le Nat.length_toDigits_pos
    rw [paddedDigits, hlength, List.replicate_zero, List.nil_append]
    refine (List.map_congr_left fun c hc => ?_).trans (List.map_id _)
    obtain ⟨k, hk, rfl⟩ := mem_toDigits (by decide) (by decide) hc
    exact hcase k hk
  rw [← hdigits]
  exact isNumeral_padded (by decide) (by decide) Nat.one_pos n

end RegexDiagram
