import PyOcdRiscv.Lib.Bits

/-!
# Bit sequences

`BitSequence` of `pyftdi/bits.py`, as far as the JTAG code uses it: the sequence
is the list of its bits, index 0 first. Slices are those of lists (`out[:-1]` is
`dropLast`, `out[-1]` is the last item), and what is left to model is the
conversion from and to integers.

Every sequence the program builds from an integer is built from one that is not
negative. An integer given without a length makes a sequence as long as the
integer, which for 0 is one bit (`ofInt_length_zero`).
-/

namespace PyOcdRiscv.Jtag

open Lib

/-- A bit sequence: its bits, index 0 first. -/
abbrev BitSequence := List Bool

namespace BitSequence

/-- The loop of `_init_from_integer`: at most `bl` bits, and none after the value has
become 0. -/
def initLoop : ℕ → ℕ → List Bool
  | 0, _ => []
  | bl + 1, value => (value % 2 == 1) :: if value / 2 = 0 then [] else initLoop bl (value / 2)

/-- `_init_from_integer`. Without a length the loop ends with the value, after
`Nat.log2 value + 1` bits. -/
def initFromInteger (value : ℕ) (msb : Bool) (length : ℕ) : List Bool :=
  let seq := initLoop (if length = 0 then Nat.log2 value + 1 else length) value
  if msb then seq.reverse else seq

/-- `_update_length`: extend the sequence if a longer length is asked for. -/
def updateLength (seq : List Bool) (length : ℕ) (msb : Bool) : List Bool :=
  if length ≠ 0 ∧ seq.length < length then
    let extra := List.replicate (length - seq.length) false
    if msb then extra ++ seq else seq ++ extra
  else seq

/-- `BitSequence(value, msb, length)` for an integer value. -/
def ofInt (value : ℕ) (msb : Bool) (length : ℕ) : BitSequence :=
  updateLength (initFromInteger value msb length) length msb

/-- `int(seq)`. -/
def toInt (seq : BitSequence) : ℕ := seq.reverse.foldl (fun value b => value <<< 1 ||| b.toNat) 0

theorem initLoop_append (n v : ℕ) :
    initLoop n v ++ List.replicate (n - (initLoop n v).length) false = bits n v := by
  induction n generalizing v with
  | zero => rfl
  | succ n ih =>
    simp only [initLoop, bits]
    split_ifs with h
    · simp [h]
    · rw [List.cons_append, List.length_cons, Nat.add_sub_add_right, ih]

theorem length_initLoop_le (n v : ℕ) : (initLoop n v).length ≤ n := by
  induction n generalizing v with
  | zero => simp [initLoop]
  | succ n ih =>
    simp only [initLoop, List.length_cons]
    split_ifs
    · simp
    · exact Nat.succ_le_succ (ih _)

/-- **With a length, the sequence is the low bits of the value.** -/
@[simp] theorem ofInt_eq {length : ℕ} (h : 0 < length) (value : ℕ) :
    ofInt value false length = bits length value := by
  have hne : length ≠ 0 := by omega
  have hle := length_initLoop_le length value
  simp only [ofInt, initFromInteger, if_neg hne, updateLength, Bool.false_eq_true, if_false]
  split_ifs with hlt
  · exact initLoop_append length value
  · have hl : (initLoop length value).length = length := by
      by_contra hc
      exact hlt ⟨hne, by omega⟩
    have := initLoop_append length value
    rwa [hl, Nat.sub_self, List.replicate_zero, List.append_nil] at this

/-- A sequence of a single bit, however it is written. -/
theorem ofInt_bit (b msb : Bool) : ofInt b.toNat msb 0 = [b] := by
  cases b <;> cases msb <;> rfl

/-- The integer 0 without a length is one bit, not none. -/
theorem ofInt_length_zero (msb : Bool) : ofInt 0 msb 0 = [false] := ofInt_bit false msb

@[simp] theorem toInt_eq (seq : BitSequence) : seq.toInt = value seq := by
  rw [toInt, List.foldl_reverse]
  induction seq with
  | nil => rfl
  | cons b l ih =>
    rw [List.foldr_cons, ih, value_cons, Nat.lor_comm,
      lor_shiftLeft (show b.toNat < 2 ^ 1 from b.toNat_lt)]
    omega

end BitSequence

end PyOcdRiscv.Jtag
