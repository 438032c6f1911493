import PyOcdRiscv.Lib.Bits

/-!
# Shift registers

A shift register of `n` bits that shifts towards its least significant end: bit 0
goes out while a new bit comes in at the top. Shifting a list `l` in leaves the
last `n` bits of the old contents followed by `l` (`bits_shiftAll`), so a list
of exactly `n` bits replaces the contents (`shiftAll_eq`), and what comes out is
the first `l.length` bits of the same list (`outs_eq`).
-/

namespace PyOcdRiscv.Lib

/-- A shift register of `n` bits, bit 0 first. -/
@[ext]
structure ShiftReg (n : ℕ) where
  /-- The bits. -/
  bits : List Bool
  /-- There are `n` of them. -/
  length_bits : bits.length = n
  deriving DecidableEq

namespace ShiftReg

variable {n : ℕ}

attribute [simp] length_bits

/-- The register holding the low `n` bits of `v`. -/
def ofNat (n v : ℕ) : ShiftReg n := ⟨Lib.bits n v, Lib.length_bits n v⟩

/-- The number in the register. -/
def value (r : ShiftReg n) : ℕ := Lib.value r.bits

/-- The bit at the serial output. -/
def out (r : ShiftReg n) : Bool := r.bits.headD false

/-- A bit comes in at the top. -/
def shiftIn (r : ShiftReg n) (b : Bool) : ShiftReg n :=
  ⟨(r.bits ++ [b]).tail, by simp⟩

/-- The bits of `l` come in one after the other. -/
def shiftAll (r : ShiftReg n) (l : List Bool) : ShiftReg n := l.foldl shiftIn r

/-- What is at the serial output as each bit of `l` comes in. -/
def outs : ShiftReg n → List Bool → List Bool
  | _, [] => []
  | r, b :: l => r.out :: outs (r.shiftIn b) l

@[simp] theorem shiftAll_nil (r : ShiftReg n) : r.shiftAll [] = r := rfl

@[simp] theorem shiftAll_cons (r : ShiftReg n) (b : Bool) (l : List Bool) :
    r.shiftAll (b :: l) = (r.shiftIn b).shiftAll l := rfl

theorem shiftAll_append (r : ShiftReg n) (l₁ l₂ : List Bool) :
    r.shiftAll (l₁ ++ l₂) = (r.shiftAll l₁).shiftAll l₂ := List.foldl_append

/-- What a register holds after shifting a list in. -/
theorem bits_shiftAll (r : ShiftReg n) (l : List Bool) :
    (r.shiftAll l).bits = (r.bits ++ l).drop l.length := by
  induction l generalizing r with
  | nil => simp
  | cons b l ih =>
    rw [shiftAll_cons, ih, shiftIn]
    simp only [← List.drop_one, List.length_cons]
    rw [← List.drop_append_of_le_length (by simp), List.drop_drop, List.append_assoc,
      List.singleton_append, Nat.add_comm]

/-- **Shifting `n` bits through a register of `n` bits** leaves exactly them. -/
theorem shiftAll_eq (r : ShiftReg n) {l : List Bool} (h : l.length = n) :
    r.shiftAll l = ⟨l, h⟩ := by
  ext1
  rw [bits_shiftAll, List.drop_left' (by simp [h])]

/-- More bits than the register is long: the last `n` stay. -/
theorem bits_shiftAll_of_le (r : ShiftReg n) {l : List Bool} (h : n ≤ l.length) :
    (r.shiftAll l).bits = l.drop (l.length - n) := by
  rw [bits_shiftAll, List.drop_append, List.drop_of_length_le (by simpa using h), List.nil_append,
    length_bits]

/-- **What comes out** is what was in the register, then what went in. -/
theorem outs_eq (hn : 0 < n) (r : ShiftReg n) (l : List Bool) :
    r.outs l = (r.bits ++ l).take l.length := by
  induction l generalizing r with
  | nil => simp [outs]
  | cons b l ih =>
    obtain ⟨bs, hb⟩ := r
    cases bs with
    | nil => simp at hb; omega
    | cons a bs => simp [outs, ih, out, shiftIn]

@[simp] theorem value_ofNat (n v : ℕ) : (ofNat n v).value = v % 2 ^ n := value_bits n v

end ShiftReg

end PyOcdRiscv.Lib
