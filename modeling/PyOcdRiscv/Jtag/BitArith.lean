import PyOcdRiscv.Jtag.BitSequence

/-!
# Arithmetic on bit sequences

What `detect_register_size` uses of `BitSequence` besides its conversions: counting up,
shifting in place, comparing, and the common value of the bits. A sequence counts in its own
width (`value_inc`), and two are equal by `_cmp` if they have the same bits (`cmp_eq_zero`).
-/

namespace PyOcdRiscv.Jtag.BitSequence

open Lib

/-- `inc`: bits are inverted up to the first that becomes one. -/
def inc : BitSequence → BitSequence
  | [] => []
  | b :: seq => (!b) :: if !b then seq else inc seq

/-- `seq >>= count`, for a sequence that is not empty: `count` is taken modulo its length. -/
def irshift (seq : BitSequence) (count : ℕ) : BitSequence :=
  seq.drop (count % seq.length) ++ List.replicate (count % seq.length) false

/-- The loop of `_cmp`: the position, counted from `n`, of the first two bits that differ. -/
def cmpFrom : ℕ → List (Bool × Bool) → ℤ
  | _, [] => 0
  | n, (x, y) :: l => if x ^^ y then n else cmpFrom (n + 1) l

/-- `_cmp`. -/
def cmp (seq other : BitSequence) : ℤ :=
  if (seq.length : ℤ) - other.length ≠ 0 then seq.length - other.length else cmpFrom 1 (seq.zip other)

/-- `invariant`: the value that all bits have, or a `ValueError`. -/
def invariant : BitSequence → Option Bool
  | [] => none
  | ref :: seq => if seq.all (· == ref) then some ref else none

/-! ### Counting -/

@[simp] theorem length_inc (seq : BitSequence) : (inc seq).length = seq.length := by
  induction seq with
  | nil => rfl
  | cons b seq ih => cases b <;> simp [inc, ih]

theorem value_inc (seq : BitSequence) : value (inc seq) = (value seq + 1) % 2 ^ seq.length := by
  induction seq with
  | nil => rfl
  | cons b seq ih =>
    have hlt := value_lt seq
    cases b with
    | false =>
      rw [inc, List.length_cons, Nat.pow_succ, Nat.mod_eq_of_lt (by simp only [value_cons, Bool.toNat_false]; omega)]
      simp [Nat.add_comm]
    | true =>
      -- the carry goes into the rest
      have hcarry : value (true :: seq) + 1 = 2 * (value seq + 1) := by
        simp only [value_cons, Bool.toNat_true]
        omega
      rw [hcarry, List.length_cons, Nat.pow_succ', Nat.mul_mod_mul_left, ← ih]
      simp [inc]

/-- Counting up, as long as the sequence does not overflow. -/
theorem inc_bits {n v : ℕ} (h : v + 1 < 2 ^ n) : inc (bits n v) = bits n (v + 1) := by
  refine value_inj (by simp) ?_
  rw [value_inc, length_bits, value_bits_of_lt (Nat.lt_of_succ_lt h), value_bits]

/-! ### Comparing -/

theorem cmpFrom_eq_zero {n : ℕ} (hn : 0 < n) {seq other : BitSequence} (hl : seq.length = other.length) :
    cmpFrom n (seq.zip other) = 0 ↔ seq = other := by
  induction seq generalizing n other with
  | nil =>
    obtain rfl : other = [] := List.length_eq_zero_iff.mp hl.symm
    exact ⟨fun _ => rfl, fun _ => rfl⟩
  | cons x seq ih =>
    obtain ⟨y, other, rfl⟩ := List.exists_cons_of_length_eq_add_one hl.symm
    have hl' : seq.length = other.length := Nat.succ.inj hl
    rw [List.zip_cons_cons, cmpFrom]
    by_cases hxy : x = y
    · subst hxy
      rw [Bool.xor_self, if_neg Bool.false_ne_true, ih n.succ_pos hl', List.cons.injEq]
      exact ⟨fun h => ⟨rfl, h⟩, fun h => h.2⟩
    · have hx : (x ^^ y) = true := Bool.xor_iff_ne.mpr hxy
      rw [if_pos hx]
      constructor
      · intro h
        omega
      · intro h
        exact absurd (List.cons.inj h).1 hxy

/-- **Two sequences compare equal if they have the same bits.** -/
theorem cmp_eq_zero (seq other : BitSequence) : cmp seq other = 0 ↔ seq = other := by
  rw [cmp]
  split_ifs with h
  · constructor
    · intro h0
      exact absurd h0 h
    · rintro rfl
      simp at h
  · exact cmpFrom_eq_zero Nat.one_pos (by omega)

end PyOcdRiscv.Jtag.BitSequence
