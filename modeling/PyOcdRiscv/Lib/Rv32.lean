import PyOcdRiscv.Lib.Bits
import Mathlib.Logic.Function.Basic
import Mathlib.Tactic.Ring

/-!
# RV32I instructions

Four instructions of RV32I, as words and as what they do: LUI, ADDI, LW and SW. The hart
they run on is its registers and its memory; there is no program counter, because
nothing here jumps.

`run_addi` and `run_lui` say what a word put together of its fields does, and
`lui_add_signed` that the two together load any constant: ADDI extends its immediate's
sign, so LUI has to load the upper part of a number that is greater by 0x1000 where
bit 11 is set.
-/

namespace PyOcdRiscv.Lib.Rv32

/-- The registers and the memory of a hart. -/
@[ext]
structure Hart where
  /-- The registers. Register 0 is read as 0 whatever is here. -/
  regs : ℕ → Word
  /-- The word at each address. -/
  mem : Word → Word

namespace Hart

/-- The value of a register. -/
def reg (h : Hart) (r : ℕ) : Word := if r = 0 then 0 else h.regs r

/-- A register written. Nothing is written to register 0. -/
def setReg (h : Hart) (r : ℕ) (v : Word) : Hart :=
  if r = 0 then h else { h with regs := Function.update h.regs r v }

/-- A word of memory written. -/
def store (h : Hart) (a v : Word) : Hart := { h with mem := Function.update h.mem a v }

@[simp] theorem reg_zero (h : Hart) : h.reg 0 = 0 := rfl

@[simp] theorem setReg_zero (h : Hart) (v : Word) : h.setReg 0 v = h := rfl

theorem reg_setReg {r : ℕ} (hr : r ≠ 0) (h : Hart) (v : Word) : (h.setReg r v).reg r = v := by
  simp [reg, setReg, hr]

theorem reg_setReg_of_ne {r r' : ℕ} (hne : r' ≠ r) (h : Hart) (v : Word) :
    (h.setReg r v).reg r' = h.reg r' := by
  unfold setReg
  split_ifs
  · rfl
  · simp [reg, Function.update_of_ne hne]

@[simp] theorem mem_setReg (h : Hart) (r : ℕ) (v : Word) : (h.setReg r v).mem = h.mem := by
  unfold setReg
  split_ifs <;> rfl

@[simp] theorem setReg_setReg (h : Hart) (r : ℕ) (v w : Word) :
    (h.setReg r v).setReg r w = h.setReg r w := by
  unfold setReg
  split_ifs <;> simp

@[simp] theorem reg_store (h : Hart) (a v : Word) (r : ℕ) : (h.store a v).reg r = h.reg r := rfl

end Hart

/-- An instruction. -/
inductive Instr where
  /-- `rd := imm`, the immediate in the upper 20 bits. -/
  | lui (rd imm : ℕ)
  /-- `rd := rs + imm`. -/
  | addi (rd rs : ℕ) (imm : ℤ)
  /-- `rd := mem[rs + imm]`. -/
  | lw (rd rs : ℕ) (imm : ℤ)
  /-- `mem[rs + imm] := rs'`. -/
  | sw (rs' rs : ℕ) (imm : ℤ)
  deriving DecidableEq, Repr

/-- An immediate of 12 bits, in two's complement. -/
def signed (imm : ℕ) : ℤ := if imm < 2048 then imm else imm - 4096

/-- The instruction a word stands for. -/
def decode (w : ℕ) : Option Instr :=
  let rd := w / 2 ^ 7 % 2 ^ 5
  let rs1 := w / 2 ^ 15 % 2 ^ 5
  let rs2 := w / 2 ^ 20 % 2 ^ 5
  let imm := w / 2 ^ 20 % 2 ^ 12
  match w % 2 ^ 7, w / 2 ^ 12 % 2 ^ 3 with
  | 0x37, _ => some (.lui rd (w / 2 ^ 12 % 2 ^ 20))
  | 0x13, 0 => some (.addi rd rs1 (signed imm))
  | 0x03, 2 => some (.lw rd rs1 (signed imm))
  | 0x23, 2 => some (.sw rs2 rs1 (signed (w / 2 ^ 25 % 2 ^ 7 * 2 ^ 5 + rd)))
  | _, _ => none

/-- What an instruction does, and the result it writes back, if it has one. An access to a
word at an address that is not a multiple of 4 raises an exception: `none`. -/
def exec : Instr → Hart → Option (Hart × Option Word)
  | .lui rd imm, h =>
    let v := BitVec.ofNat 32 (imm * 2 ^ 12)
    some (h.setReg rd v, some v)
  | .addi rd rs imm, h =>
    let v := h.reg rs + BitVec.ofInt 32 imm
    some (h.setReg rd v, some v)
  | .lw rd rs imm, h =>
    let a := h.reg rs + BitVec.ofInt 32 imm
    if a.toNat % 4 = 0 then some (h.setReg rd (h.mem a), some (h.mem a)) else none
  | .sw rs' rs imm, h =>
    let a := h.reg rs + BitVec.ofInt 32 imm
    if a.toNat % 4 = 0 then some (h.store a (h.reg rs'), none) else none

/-- What a word does: `none` too if it is no instruction. -/
def run (w : ℕ) (h : Hart) : Option (Hart × Option Word) := (decode w).bind fun i => exec i h

/-! ### Words put together of fields -/

theorem run_addi {imm rs rd : ℕ} (himm : imm < 2 ^ 12) (hrs : rs < 2 ^ 5) (hrd : rd < 2 ^ 5) (h : Hart) :
    run (imm * 2 ^ 20 + rs * 2 ^ 15 + rd * 2 ^ 7 + 0x13) h =
      exec (.addi rd rs (signed imm)) h := by
  have hop : (imm * 2 ^ 20 + rs * 2 ^ 15 + rd * 2 ^ 7 + 0x13) % 2 ^ 7 = 0x13 := by omega
  have hf : (imm * 2 ^ 20 + rs * 2 ^ 15 + rd * 2 ^ 7 + 0x13) / 2 ^ 12 % 2 ^ 3 = 0 := by omega
  have hrd' : (imm * 2 ^ 20 + rs * 2 ^ 15 + rd * 2 ^ 7 + 0x13) / 2 ^ 7 % 2 ^ 5 = rd := by omega
  have hrs' : (imm * 2 ^ 20 + rs * 2 ^ 15 + rd * 2 ^ 7 + 0x13) / 2 ^ 15 % 2 ^ 5 = rs := by omega
  have himm' : (imm * 2 ^ 20 + rs * 2 ^ 15 + rd * 2 ^ 7 + 0x13) / 2 ^ 20 % 2 ^ 12 = imm := by omega
  simp only [run, decode, hop, hf, hrd', hrs', himm']
  rfl

theorem run_lui {imm rd : ℕ} (himm : imm < 2 ^ 20) (hrd : rd < 2 ^ 5) (h : Hart) :
    run (imm * 2 ^ 12 + rd * 2 ^ 7 + 0x37) h = exec (.lui rd imm) h := by
  have hop : (imm * 2 ^ 12 + rd * 2 ^ 7 + 0x37) % 2 ^ 7 = 0x37 := by omega
  have hrd' : (imm * 2 ^ 12 + rd * 2 ^ 7 + 0x37) / 2 ^ 7 % 2 ^ 5 = rd := by omega
  have himm' : (imm * 2 ^ 12 + rd * 2 ^ 7 + 0x37) / 2 ^ 12 % 2 ^ 20 = imm := by omega
  simp only [run, decode, hop, hrd', himm']
  rfl

/-! ### Constants -/

theorem ofInt_add_mul (a q : ℤ) : BitVec.ofInt 32 (a + 2 ^ 32 * q) = BitVec.ofInt 32 a := by
  rw [BitVec.ofInt_add, BitVec.ofInt_mul]
  simp

/-- A number that fits 12 bits is its own immediate. -/
theorem signed_emod {v : ℤ} (h : -2 ^ 11 ≤ v ∧ v < 2 ^ 11) : signed (v % 2 ^ 12).toNat = v := by
  rw [signed]
  split_ifs <;> omega

/-- **The two halves of a constant.** `v'` is `v`, or greater by 0x1000 where bit 11 of `v`
is set. -/
theorem lui_add_signed {v v' : ℤ} (hv : v' = if v / 2 ^ 11 % 2 = 1 then v + 2 ^ 12 else v) :
    BitVec.ofNat 32 ((v' / 2 ^ 12 % 2 ^ 20).toNat * 2 ^ 12) +
      BitVec.ofInt 32 (signed (v' % 2 ^ 12).toNat) = BitVec.ofInt 32 v := by
  have hsum : (((v' / 2 ^ 12 % 2 ^ 20).toNat * 2 ^ 12 : ℕ) : ℤ) + signed (v' % 2 ^ 12).toNat +
      2 ^ 32 * (v' / 2 ^ 32) = v := by
    rw [signed]
    split_ifs at hv ⊢ <;> omega
  rw [← hsum, ofInt_add_mul, BitVec.ofInt_add, BitVec.ofInt_natCast]

end PyOcdRiscv.Lib.Rv32
