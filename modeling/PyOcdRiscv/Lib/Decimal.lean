import Mathlib.Data.Nat.Digits.Lemmas

/-!
# Decimal text

The decimal representation of an integer: a minus where it is negative, and digits without a
leading zero that spell its absolute value. There is exactly one, `decimal`
(`isDecimal_iff`).
-/

namespace PyOcdRiscv.Lib.Decimal

/-- A character from `'0'` to `'9'`. -/
def IsDigit (c : UInt8) : Prop := '0'.toNat ≤ c.toNat ∧ c.toNat ≤ '9'.toNat

/-- The number that digits spell. -/
def number (digits : List UInt8) : ℕ := digits.foldl (fun n c => 10 * n + (c.toNat - '0'.toNat)) 0

/-- `digits` are the decimal digits of `n`. -/
structure IsNumeral (n : ℕ) (digits : List UInt8) : Prop where
  /-- There is a digit, also for zero. -/
  nonempty : digits ≠ []
  /-- There is nothing else. -/
  all : ∀ c ∈ digits, IsDigit c
  /-- Only zero begins with a zero. -/
  leading : digits.head? = some '0'.toUInt8 → digits = ['0'.toUInt8]
  /-- They spell the number. -/
  spells : number digits = n

/-- The minus of a negative number. -/
def sign (v : ℤ) : List UInt8 := if v < 0 then ['-'.toUInt8] else []

/-- `text` is the decimal representation of `v`. -/
def IsDecimal (v : ℤ) (text : List UInt8) : Prop := ∃ digits, text = sign v ++ digits ∧ IsNumeral v.natAbs digits

/-- The digit `d`, as a character. -/
def digit (d : ℕ) : UInt8 := UInt8.ofNat ('0'.toNat + d)

/-- The digits of `n`. -/
def numeral (n : ℕ) : List UInt8 := if n = 0 then [digit 0] else ((Nat.digits 10 n).map digit).reverse

/-- The decimal representation of `v`. -/
def decimal (v : ℤ) : List UInt8 := sign v ++ numeral v.natAbs

/-! ### Digits -/

theorem toNat_digit {d : ℕ} (hd : d < 10) : (digit d).toNat = '0'.toNat + d := by
  exact UInt8.toNat_ofNat_of_lt (show 48 + d < 256 by omega)

theorem digit_toNat {c : UInt8} (hc : IsDigit c) : digit (c.toNat - '0'.toNat) = c := by
  rw [digit, Nat.add_sub_cancel' hc.1, UInt8.ofNat_toNat]

theorem isDigit_digit {d : ℕ} (hd : d < 10) : IsDigit (digit d) := by
  rw [IsDigit, toNat_digit hd]
  exact ⟨Nat.le_add_right _ _, show 48 + d ≤ 57 by omega⟩

/-- What is spelled, by the digits from the last one on. -/
theorem number_eq (digits : List UInt8) :
    number digits = Nat.ofDigits 10 (digits.reverse.map fun c => c.toNat - '0'.toNat) := by
  rw [number, Nat.ofDigits_eq_foldr, ← List.foldl_reverse, ← List.map_reverse, List.reverse_reverse,
    List.foldl_map]
  simp [Nat.add_comm]

theorem isNumeral_numeral (n : ℕ) : IsNumeral n (numeral n) := by
  rw [numeral]
  split
  · next hn =>
    subst hn
    refine ⟨by simp, fun c hc => ?_, fun _ => by decide, by decide⟩
    rw [List.mem_singleton.mp hc]
    exact isDigit_digit (by decide)
  · next hn =>
    have hlt : ∀ d ∈ Nat.digits 10 n, d < 10 := fun d hd => Nat.digits_lt_base (by decide) hd
    have hne : Nat.digits 10 n ≠ [] := Nat.digits_ne_nil_iff_ne_zero.mpr hn
    constructor
    · simpa using hne
    · intro c hc
      obtain ⟨d, hd, rfl⟩ := List.mem_map.mp (List.mem_reverse.mp hc)
      exact isDigit_digit (hlt d hd)
    · -- the first digit is the last one of `Nat.digits`, which is not zero
      intro hhead
      rw [List.head?_reverse, List.getLast?_map, List.getLast?_eq_some_getLast hne] at hhead
      have hlast := hlt _ (List.getLast_mem hne)
      have hzero := congrArg UInt8.toNat (Option.some.inj hhead)
      rw [toNat_digit hlast] at hzero
      exact absurd (Nat.add_left_cancel (hzero.trans (Nat.add_zero _).symm)) (Nat.getLast_digit_ne_zero 10 hn)
    · rw [number_eq, List.reverse_reverse, List.map_map]
      have hback : ∀ d ∈ Nat.digits 10 n, (digit d).toNat - '0'.toNat = d := by
        intro d hd
        rw [toNat_digit (hlt d hd), Nat.add_sub_cancel_left]
      exact (congrArg (Nat.ofDigits 10) ((List.map_congr_left hback).trans (List.map_id _))).trans
        (Nat.ofDigits_digits 10 n)

/-- Digits without a leading zero are those of the number they spell. -/
theorem IsNumeral.eq {n : ℕ} {digits : List UInt8} (h : IsNumeral n digits) : digits = numeral n := by
  obtain ⟨hne, hdigits, hleading, hspells⟩ := h
  obtain ⟨c, digits, rfl⟩ := List.exists_cons_of_ne_nil hne
  by_cases hzero : c = '0'.toUInt8
  · rw [hleading (congrArg some hzero)] at hspells ⊢
    rw [← hspells]
    rfl
  · -- the last digit of `Nat.digits` is the first one, which is not zero
    have hlt : ∀ d ∈ (c :: digits).reverse.map (fun c => c.toNat - '0'.toNat), d < 10 := by
      intro d hd
      obtain ⟨c', hc', rfl⟩ := List.mem_map.mp hd
      have hle : c'.toNat ≤ 57 := (hdigits c' (List.mem_reverse.mp hc')).2
      show c'.toNat - 48 < 10
      omega
    have hlast : c.toNat - '0'.toNat ≠ 0 := by
      intro h
      have hc : c.toNat = '0'.toNat := Nat.le_antisymm (Nat.le_of_sub_eq_zero h) (hdigits c List.mem_cons_self).1
      exact hzero (UInt8.toNat_inj.mp hc)
    have hback : Nat.digits 10 n = (c :: digits).reverse.map (fun c => c.toNat - '0'.toNat) := by
      rw [← hspells, number_eq]
      refine Nat.digits_ofDigits 10 (by decide) _ hlt fun _ => ?_
      simpa using hlast
    have hn : n ≠ 0 := by
      rintro rfl
      simp at hback
    rw [numeral, if_neg hn, hback, List.map_map, ← List.map_reverse, List.reverse_reverse]
    exact ((List.map_congr_left fun c' hc' => digit_toNat (hdigits c' hc')).trans (List.map_id _)).symm

theorem isDecimal_iff {v : ℤ} {text : List UInt8} : IsDecimal v text ↔ text = decimal v := by
  constructor
  · rintro ⟨digits, rfl, h⟩
    rw [h.eq, decimal]
  · rintro rfl
    exact ⟨_, rfl, isNumeral_numeral _⟩

end PyOcdRiscv.Lib.Decimal
