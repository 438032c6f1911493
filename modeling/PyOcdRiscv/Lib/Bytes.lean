import Mathlib.Data.Nat.Basic
import Mathlib.Tactic.Ring

/-!
# Words in a memory of bytes

The word that a list of bytes makes, the first byte the least significant, and a memory
that is written word by word: a word made of bytes, stored, puts the bytes there
(`store_word`), and lists of bytes stored one behind the other are their concatenation
(`putBytes_append`).
-/

namespace PyOcdRiscv.Lib

/-- The word that bytes make, least significant first. -/
def word : List UInt8 → ℕ
  | [] => 0
  | b :: l => b.toNat + 256 * word l

/-- Byte `k` of the word is the one it was made with. -/
theorem byte_word {l : List UInt8} {k : ℕ} (hk : k < l.length) : UInt8.ofNat (word l / 256 ^ k) = l[k] := by
  induction l generalizing k with
  | nil => exact absurd hk (by simp)
  | cons b l ih =>
    have hb : b.toNat < 256 := b.toNat_lt
    cases k with
    | zero =>
      have hmod : (b.toNat + 256 * word l) % 256 = b.toNat := by omega
      rw [word, Nat.pow_zero, Nat.div_one, ← UInt8.toNat_inj, UInt8.toNat_ofNat']
      exact hmod
    | succ k =>
      have hdiv : (b.toNat + 256 * word l) / 256 = word l := by omega
      rw [word, Nat.pow_succ', ← Nat.div_div_eq_div_mul, hdiv, ih (by simpa using hk)]
      rfl

/-- A memory of bytes. -/
abbrev Memory := ℕ → UInt8

/-- The low `n` bytes of `v` stored at `a`, least significant first. -/
def store (n : ℕ) (m : Memory) (a v : ℕ) : Memory := fun b =>
  if a ≤ b ∧ b < a + n then UInt8.ofNat (v / 256 ^ (b - a)) else m b

/-- The bytes of `l` put at `a`. -/
def putBytes (m : Memory) (a : ℕ) (l : List UInt8) : Memory := fun b =>
  if h : a ≤ b ∧ b < a + l.length then l[b - a] else m b

/-- The bytes of `l` are at `a`. -/
def Holds (m : Memory) (a : ℕ) (l : List UInt8) : Prop := ∀ i, (h : i < l.length) → m (a + i) = l[i]

variable (m : Memory) (a : ℕ)

@[simp] theorem putBytes_nil : putBytes m a [] = m := by
  funext b
  rw [putBytes, dif_neg (by simp)]

/-- **A word made of bytes puts them in memory.** -/
theorem store_word (l : List UInt8) : store l.length m a (word l) = putBytes m a l := by
  funext b
  by_cases h : a ≤ b ∧ b < a + l.length
  · rw [store, putBytes, if_pos h, dif_pos h, byte_word (by omega)]
  · rw [store, putBytes, if_neg h, dif_neg h]

/-- **Bytes behind bytes.** -/
theorem putBytes_append (l₁ l₂ : List UInt8) :
    putBytes (putBytes m a l₁) (a + l₁.length) l₂ = putBytes m a (l₁ ++ l₂) := by
  funext b
  by_cases h₂ : a + l₁.length ≤ b ∧ b < a + l₁.length + l₂.length
  · have h : a ≤ b ∧ b < a + (l₁ ++ l₂).length := by
      rw [List.length_append]
      omega
    have hidx : b - (a + l₁.length) = b - a - l₁.length := by omega
    rw [putBytes, dif_pos h₂, putBytes, dif_pos h, List.getElem_append_right (by omega)]
    simp only [hidx]
  · rw [putBytes, dif_neg h₂]
    by_cases h₁ : a ≤ b ∧ b < a + l₁.length
    · have h : a ≤ b ∧ b < a + (l₁ ++ l₂).length := by
        rw [List.length_append]
        omega
      rw [putBytes, putBytes, dif_pos h₁, dif_pos h, List.getElem_append_left (by omega)]
    · have h : ¬ (a ≤ b ∧ b < a + (l₁ ++ l₂).length) := by
        rw [List.length_append]
        omega
      rw [putBytes, putBytes, dif_neg h₁, dif_neg h]

/-- Elsewhere nothing changes. -/
theorem putBytes_of_not_mem {l : List UInt8} {b : ℕ} (h : b < a ∨ a + l.length ≤ b) : putBytes m a l b = m b := by
  rw [putBytes, dif_neg (by omega)]

/-- When the first `n` bytes of `l` are put at `a`, the bytes of `l` are there exactly if the
others were. -/
theorem holds_putBytes_take (l : List UInt8) {n : ℕ} (hn : n ≤ l.length) :
    Holds (putBytes m a (l.take n)) a l ↔ Holds m (a + n) (l.drop n) := by
  have hlen : (l.take n).length = n := by simp [hn]
  constructor
  · intro h i hi
    have hi' : n + i < l.length := by
      rw [List.length_drop] at hi
      omega
    have hput := putBytes_of_not_mem m a (l := l.take n) (b := a + (n + i)) (Or.inr (by omega))
    rw [List.getElem_drop, Nat.add_assoc, ← hput]
    exact h (n + i) hi'
  · intro h i hi
    by_cases hlt : i < n
    · have hin : a ≤ a + i ∧ a + i < a + (l.take n).length := by omega
      rw [putBytes, dif_pos hin]
      simp
    · have hput := putBytes_of_not_mem m a (l := l.take n) (b := a + i) (Or.inr (by omega))
      have hd : i - n < (l.drop n).length := by
        rw [List.length_drop]
        omega
      have hrest := h (i - n) hd
      rw [List.getElem_drop] at hrest
      have hadd : n + (i - n) = i := by omega
      simp only [Nat.add_assoc, hadd] at hrest
      rw [hput, hrest]

end PyOcdRiscv.Lib
