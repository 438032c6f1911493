import Mathlib.Data.List.Basic
import Mathlib.Data.Nat.Bitwise
import Mathlib.Tactic.NormNum
import Mathlib.Tactic.Positivity

/-!
# Bits

Numbers as lists of bits, the least significant first: the order in which a
serial link carries them. `bits n v` is the low `n` bits of `v` and `value l`
the number whose bits are `l`; they are each other's inverse at a given length
(`value_bits`, `bits_value`). A word packed of fields, `a + b * 2 ^ n`, is the
bits of its fields one after the other (`bits_pack`), so that packing and
unpacking a frame is appending and splitting lists.

`land` is the bitwise *and* of an arbitrary integer, in two's complement without
a width, with a mask; with a mask of `k` ones it is the remainder modulo `2 ^ k`
(`land_ones`), for a negative integer as for any other.
-/

namespace PyOcdRiscv.Lib

/-- A machine word. -/
abbrev Word := BitVec 32

/-! ### Lists of bits -/

/-- The low `n` bits of `v`, the least significant first. -/
def bits : ℕ → ℕ → List Bool
  | 0, _ => []
  | n + 1, v => (v % 2 == 1) :: bits n (v / 2)

/-- The number whose bits are `l`, the least significant first. -/
def value : List Bool → ℕ
  | [] => 0
  | b :: l => b.toNat + 2 * value l

@[simp] theorem length_bits (n v : ℕ) : (bits n v).length = n := by
  induction n generalizing v with
  | zero => rfl
  | succ n ih => simp [bits, ih]

@[simp] theorem bits_zero (v : ℕ) : bits 0 v = [] := rfl

@[simp] theorem value_nil : value [] = 0 := rfl

@[simp] theorem value_cons (b : Bool) (l : List Bool) : value (b :: l) = b.toNat + 2 * value l := rfl

theorem bits_ne_nil {n : ℕ} (h : 0 < n) (v : ℕ) : bits n v ≠ [] := by
  intro h'
  have := congrArg List.length h'
  simp at this
  omega

theorem toNat_mod_two (v : ℕ) : (v % 2 == 1).toNat = v % 2 := by
  rcases Nat.mod_two_eq_zero_or_one v with h | h <;> simp [h]

theorem value_bits (n v : ℕ) : value (bits n v) = v % 2 ^ n := by
  induction n generalizing v with
  | zero => simp [bits, Nat.mod_one]
  | succ n ih =>
    simp only [bits, value_cons, ih, toNat_mod_two]
    rw [Nat.pow_succ', Nat.mod_mul]

theorem value_bits_of_lt {n v : ℕ} (h : v < 2 ^ n) : value (bits n v) = v := by
  rw [value_bits, Nat.mod_eq_of_lt h]

theorem value_lt (l : List Bool) : value l < 2 ^ l.length := by
  induction l with
  | nil => simp
  | cons b l ih =>
    have : b.toNat < 2 := b.toNat_lt
    simp only [value_cons, List.length_cons, Nat.pow_succ']
    omega

theorem bits_value (l : List Bool) : bits l.length (value l) = l := by
  induction l with
  | nil => rfl
  | cons b l ih =>
    have hm : (b.toNat + 2 * value l) % 2 = b.toNat := by cases b <;> simp
    have hd : (b.toNat + 2 * value l) / 2 = value l := by
      have := b.toNat_lt
      omega
    simp only [List.length_cons, bits, value_cons, hm, hd, ih]
    cases b <;> rfl

/-- Two lists of the same length with the same value are the same list. -/
theorem value_inj {l₁ l₂ : List Bool} (hl : l₁.length = l₂.length) (hv : value l₁ = value l₂) :
    l₁ = l₂ := by
  rw [← bits_value l₁, ← bits_value l₂, hl, hv]

theorem value_append (l₁ l₂ : List Bool) : value (l₁ ++ l₂) = value l₁ + 2 ^ l₁.length * value l₂ := by
  induction l₁ with
  | nil => simp
  | cons b l ih =>
    simp only [List.cons_append, value_cons, ih, List.length_cons, Nat.pow_succ', Nat.mul_add,
      Nat.mul_assoc, Nat.add_assoc]

theorem bits_add (m n v : ℕ) : bits (m + n) v = bits m v ++ bits n (v / 2 ^ m) := by
  induction m generalizing v with
  | zero => simp
  | succ m ih =>
    rw [show m + 1 + n = (m + n) + 1 by omega]
    simp only [bits, ih, List.cons_append, Nat.div_div_eq_div_mul, Nat.pow_succ']

theorem bits_mod (n v : ℕ) : bits n (v % 2 ^ n) = bits n v := by
  apply value_inj (by simp)
  rw [value_bits, value_bits, Nat.mod_mod]

/-- **Packing is appending**: the bits of a field below another. -/
theorem bits_pack {m a : ℕ} (n b : ℕ) (ha : a < 2 ^ m) :
    bits (m + n) (a + b * 2 ^ m) = bits m a ++ bits n b := by
  rw [bits_add]
  congr 1
  · apply value_inj (by simp)
    rw [value_bits, value_bits, Nat.add_mul_mod_self_right]
  · rw [Nat.add_mul_div_right _ _ (Nat.two_pow_pos m), Nat.div_eq_of_lt ha, Nat.zero_add]

@[simp] theorem bits_of_zero (n : ℕ) : bits n 0 = List.replicate n false := by
  induction n with
  | zero => rfl
  | succ n ih => simp [bits, ih, List.replicate_succ]

@[simp] theorem value_replicate_false (n : ℕ) : value (List.replicate n false) = 0 := by
  rw [← bits_of_zero, value_bits, Nat.zero_mod]

/-- The value of the part of a list from `k` on. -/
theorem value_drop (l : List Bool) (k : ℕ) : value (l.drop k) = value l / 2 ^ k := by
  induction k generalizing l with
  | zero => simp
  | succ k ih =>
    cases l with
    | nil => simp
    | cons b l =>
      rw [List.drop_succ_cons, ih, value_cons, Nat.pow_succ', ← Nat.div_div_eq_div_mul]
      congr 1
      have := b.toNat_lt
      omega

/-- The value of the first `k` items of a list. -/
theorem value_take (l : List Bool) (k : ℕ) : value (l.take k) = value l % 2 ^ k := by
  induction k generalizing l with
  | zero => simp [Nat.mod_one]
  | succ k ih =>
    cases l with
    | nil => simp
    | cons b l =>
      rw [List.take_succ_cons, value_cons, value_cons, ih, Nat.pow_succ', Nat.mod_mul]
      have := b.toNat_lt
      rw [show (b.toNat + 2 * value l) % 2 = b.toNat by omega,
        show (b.toNat + 2 * value l) / 2 = value l by omega]

/-- The bits of the lower of two parts. -/
theorem bits_value_append (l₁ l₂ : List Bool) : bits l₁.length (value (l₁ ++ l₂)) = l₁ := by
  rw [← bits_mod, value_append, Nat.add_mul_mod_self_left, bits_mod, bits_value]

theorem testBit_value (l : List Bool) (k : ℕ) : (value l).testBit k = l.getD k false := by
  induction l generalizing k with
  | nil => simp
  | cons b l ih =>
    have hmod : (b.toNat + 2 * value l) % 2 = b.toNat := by cases b <;> simp
    have hdiv : (b.toNat + 2 * value l) / 2 = value l := by
      have := b.toNat_lt
      omega
    cases k with
    | zero =>
      rw [value_cons, Nat.testBit_zero, hmod, List.getD_cons_zero]
      cases b <;> rfl
    | succ k => rw [value_cons, Nat.testBit_succ, hdiv, ih, List.getD_cons_succ]

/-! ### Fields -/

/-- The field of `l` that is `n` bits long and starts at bit `k`. -/
def field (k n : ℕ) (l : List Bool) : ℕ := value ((l.drop k).take n)

theorem field_eq (k n : ℕ) (l : List Bool) : field k n l = value l / 2 ^ k % 2 ^ n := by
  rw [field, value_take, value_drop]

/-- A field packed above another is found where it was packed. -/
theorem lor_shiftLeft {a i : ℕ} (h : a < 2 ^ i) (b : ℕ) : a ||| b <<< i = a + b * 2 ^ i := by
  rw [Nat.lor_comm, ← Nat.shiftLeft_add_eq_or_of_lt h, Nat.shiftLeft_eq, Nat.add_comm]

/-! ### Masks -/

/-- The bitwise *and* of an integer with a mask. A negative integer is the
complement of the natural number one below its absolute value. -/
def land : ℤ → ℕ → ℕ
  | .ofNat n, m => n &&& m
  | .negSucc n, m => m - (n &&& m)

@[simp] theorem land_zero_left (m : ℕ) : land 0 m = 0 := Nat.zero_and m

/-- **A mask of `a` ones from bit `l` on** keeps the field of those bits. -/
theorem land_mask (x : ℤ) (a l : ℕ) :
    land x ((2 ^ a - 1) <<< l) = (x / 2 ^ l % 2 ^ a).toNat <<< l := by
  have hn : ∀ n : ℕ, n &&& (2 ^ a - 1) <<< l = (n / 2 ^ l % 2 ^ a) <<< l := by
    intro n
    apply Nat.eq_of_testBit_eq
    intro i
    rw [Nat.testBit_and, Nat.testBit_shiftLeft, Nat.testBit_shiftLeft, Nat.testBit_mod_two_pow,
      Nat.testBit_div_two_pow, Nat.testBit_two_pow_sub_one]
    by_cases h : l ≤ i
    · simp [h, Bool.and_comm]
    · simp [h]
  cases x with
  | ofNat n =>
    rw [land, hn]
    rfl
  | negSucc n =>
    have hd : Int.negSucc n / 2 ^ l = Int.negSucc (n / 2 ^ l) := by
      have := Int.negSucc_ediv n (b := 2 ^ l) (by positivity)
      rw [this, Int.negSucc_eq]
      rfl
    have hm : (Int.negSucc (n / 2 ^ l) % 2 ^ a).toNat = 2 ^ a - 1 - n / 2 ^ l % 2 ^ a := by
      have := Int.negSucc_emod (n / 2 ^ l) (b := 2 ^ a) (by positivity)
      have hlt := Nat.mod_lt (n / 2 ^ l) (Nat.two_pow_pos a)
      rw [this, show (2 : ℤ) ^ a = ((2 ^ a : ℕ) : ℤ) by norm_cast]
      omega
    rw [land, hn, hd, hm, Nat.shiftLeft_eq, Nat.shiftLeft_eq, Nat.shiftLeft_eq, ← Nat.sub_mul]

/-- A mask of `k` ones is the remainder modulo `2 ^ k`. -/
theorem land_ones (x : ℤ) (k : ℕ) : land x (2 ^ k - 1) = (x % 2 ^ k).toNat := by
  have := land_mask x k 0
  simpa using this

theorem land_ones_lt (x : ℤ) (k : ℕ) : land x (2 ^ k - 1) < 2 ^ k := by
  have := Int.emod_lt_of_pos x (show (0 : ℤ) < 2 ^ k by positivity)
  rw [land_ones, Int.toNat_lt' (by positivity)]
  exact_mod_cast this

end PyOcdRiscv.Lib
