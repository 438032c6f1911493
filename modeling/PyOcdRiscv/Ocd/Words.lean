import PyOcdRiscv.Lib.Bits

/-!
# Instruction words

The RISC-V instructions that the drivers put together, as the arithmetic of their
methods. The four classes each have a copy of it.
-/

namespace PyOcdRiscv.Ocd

open Lib

/-- `inrange(value, bits)`. -/
def inrange (value : ℤ) (bits : ℕ) : Bool :=
  decide (-(2 ^ (bits - 1)) ≤ value ∧ value < 2 ^ (bits - 1))

/-- `((val & 0xfff) << 20) + (rs << 15) + (rd << 7) + 0x13`: ADDI. -/
def addiWord (val : ℤ) (rs rd : ℕ) : ℕ := land val 0xfff <<< 20 + rs <<< 15 + rd <<< 7 + 0x13

/-- `(val & 0xfffff000) + (rd << 7) + 0x37`: LUI. -/
def luiWord (val : ℤ) (rd : ℕ) : ℕ := land val 0xfffff000 + rd <<< 7 + 0x37

/-- `val + 0x1000` where bit 11 of `val` is set: ADDI will take it away again. -/
def luiCarry (val : ℤ) : ℤ := if land val 0x800 ≠ 0 then val + 0x1000 else val

/-- `((offset & 0xFE0) << 20) + (1 << 20) + (2 << 15) + (2 << 12) + ((offset & 0x1f) << 7) + 0x23`:
SW of x1 to the word at x2 and `offset`. -/
def swWord (offset : ℤ) : ℕ :=
  land offset 0xFE0 <<< 20 + 1 <<< 20 + 2 <<< 15 + 2 <<< 12 + land offset 0x1f <<< 7 + 0x23

/-- `(1 << 15) + (2 << 12) + (1 << 7) + 0x3`: LW of x1 from the word at x1. -/
def lwWord : ℕ := 1 <<< 15 + 2 <<< 12 + 1 <<< 7 + 0x3

/-- `(1 << 15) + 0x67`: JALR to x1. -/
def jalrWord : ℕ := 1 <<< 15 + 0x67

end PyOcdRiscv.Ocd
