import PyOcdRiscv.Lib.Rv32

/-!
# A hart in debug mode

The instructions of RV32I and Zicsr that code for debug mode is made of, run by a hart that makes one
access to memory at a time: it fetches an instruction, and a load or a store is an access of its own
after that. What memory answers is up to memory (`Hart.next`), so that a device that answers
differently from one access to the next can stand behind it.

What control and status registers there are, what they make of a write, and what DRET does to them, is up to
the hart (`CsrFile`). In debug mode EBREAK goes back to the address that a halted hart begins at, and DRET
leaves debug mode.

`Line` is a run of instructions none but the last of which asks for an access. Whoever fetches for the hart
follows it one instruction at a time (`Line.next`), and it does not depend on the memory
(`Line.withMem`). `Line.program` is the line of a program that only works on registers.
-/

namespace PyOcdRiscv.Lib

namespace Rv32.Hart

theorem setReg_comm {r r' : ℕ} (hne : r ≠ r') (h : Hart) (v v' : Word) :
    (h.setReg r v).setReg r' v' = (h.setReg r' v').setReg r v := by
  unfold setReg
  split_ifs <;> simp [Function.update_comm hne]

/-- A register written with what is in it. -/
theorem setReg_reg (h : Hart) (r : ℕ) : h.setReg r (h.reg r) = h := by
  unfold setReg reg
  split_ifs
  · rfl
  · simp

/-- The hart with another memory. -/
def withMem (h : Hart) (mem : Word → Word) : Hart := { h with mem := mem }

theorem withMem_setReg (h : Hart) (mem : Word → Word) (r : ℕ) (v : Word) :
    (h.withMem mem).setReg r v = (h.setReg r v).withMem mem := by
  unfold setReg withMem
  split_ifs <;> rfl

end Rv32.Hart

namespace Debug

open Rv32 (signed)

/-- An instruction. -/
inductive Instr where
  /-- LUI, ADDI, LW or SW. -/
  | base (i : Rv32.Instr)
  /-- `rd := pc + imm`, the immediate in the upper 20 bits. -/
  | auipc (rd imm : ℕ)
  /-- `rd := pc + 4`, and on at `pc + imm`. -/
  | jal (rd : ℕ) (imm : ℤ)
  /-- On at `pc + imm` if `rs ≠ rs'`. -/
  | bne (rs rs' : ℕ) (imm : ℤ)
  /-- `rd := byte[rs + imm]`. -/
  | lbu (rd rs : ℕ) (imm : ℤ)
  /-- `rd := rs & imm`. -/
  | andi (rd rs : ℕ) (imm : ℤ)
  /-- `rd := rs << sh`. -/
  | slli (rd rs sh : ℕ)
  /-- `rd := rs >> sh`. -/
  | srli (rd rs sh : ℕ)
  /-- `rd := rs + rs'`. -/
  | add (rd rs rs' : ℕ)
  | fence
  /-- `rd := csr; csr := rs`. -/
  | csrrw (rd rs csr : ℕ)
  /-- `rd := csr; csr := csr | rs`: the latter is a write even if `rs` is register 0. -/
  | csrrs (rd rs csr : ℕ)
  | ebreak
  | dret
  deriving DecidableEq, Repr

/-- The offset of a JAL. -/
def jalOffset (w : ℕ) : ℤ :=
  let imm : ℕ := w / 2 ^ 21 % 2 ^ 10 * 2 + w / 2 ^ 20 % 2 * 2 ^ 11 + w / 2 ^ 12 % 2 ^ 8 * 2 ^ 12
  imm - if w / 2 ^ 31 % 2 = 1 then 2 ^ 20 else 0

/-- The offset of a branch. -/
def branchOffset (w : ℕ) : ℤ :=
  let imm : ℕ := w / 2 ^ 8 % 2 ^ 4 * 2 + w / 2 ^ 25 % 2 ^ 6 * 2 ^ 5 + w / 2 ^ 7 % 2 * 2 ^ 11
  imm - if w / 2 ^ 31 % 2 = 1 then 2 ^ 12 else 0

/-- The instruction a word stands for. -/
def decode (w : ℕ) : Option Instr :=
  let rd := w / 2 ^ 7 % 2 ^ 5
  let rs1 := w / 2 ^ 15 % 2 ^ 5
  let rs2 := w / 2 ^ 20 % 2 ^ 5
  let imm := w / 2 ^ 20 % 2 ^ 12
  let funct7 := w / 2 ^ 25 % 2 ^ 7
  match Rv32.decode w with
  | some i => some (.base i)
  | none =>
    match w % 2 ^ 7, w / 2 ^ 12 % 2 ^ 3 with
    | 0x17, _ => some (.auipc rd (w / 2 ^ 12 % 2 ^ 20))
    | 0x6f, _ => some (.jal rd (jalOffset w))
    | 0x63, 1 => some (.bne rs1 rs2 (branchOffset w))
    | 0x03, 4 => some (.lbu rd rs1 (signed imm))
    | 0x13, 7 => some (.andi rd rs1 (signed imm))
    | 0x13, 1 => if funct7 = 0 then some (.slli rd rs1 rs2) else none
    | 0x13, 5 => if funct7 = 0 then some (.srli rd rs1 rs2) else none
    | 0x33, 0 => if funct7 = 0 then some (.add rd rs1 rs2) else none
    | 0x0f, 0 => some .fence
    | 0x73, 1 => some (.csrrw rd rs1 imm)
    | 0x73, 2 => some (.csrrs rd rs1 imm)
    | 0x73, 0 => if w = 0x00100073 then some .ebreak else if w = 0x7b200073 then some .dret else none
    | _, _ => none

/-! ### Words put together of fields -/

theorem decode_of_lw {w : ℕ} (hop : w % 2 ^ 7 = 0x03) (hf : w / 2 ^ 12 % 2 ^ 3 = 2) :
    decode w = some (.base (.lw (w / 2 ^ 7 % 2 ^ 5) (w / 2 ^ 15 % 2 ^ 5) (signed (w / 2 ^ 20 % 2 ^ 12)))) := by
  simp only [decode, Rv32.decode, hop, hf]

theorem decode_of_sw {w : ℕ} (hop : w % 2 ^ 7 = 0x23) (hf : w / 2 ^ 12 % 2 ^ 3 = 2) :
    decode w = some (.base (.sw (w / 2 ^ 20 % 2 ^ 5) (w / 2 ^ 15 % 2 ^ 5)
      (signed (w / 2 ^ 25 % 2 ^ 7 * 2 ^ 5 + w / 2 ^ 7 % 2 ^ 5)))) := by
  simp only [decode, Rv32.decode, hop, hf]

theorem decode_of_csrrw {w : ℕ} (hop : w % 2 ^ 7 = 0x73) (hf : w / 2 ^ 12 % 2 ^ 3 = 1) :
    decode w = some (.csrrw (w / 2 ^ 7 % 2 ^ 5) (w / 2 ^ 15 % 2 ^ 5) (w / 2 ^ 20 % 2 ^ 12)) := by
  simp only [decode, Rv32.decode, hop, hf]

theorem decode_of_csrrs {w : ℕ} (hop : w % 2 ^ 7 = 0x73) (hf : w / 2 ^ 12 % 2 ^ 3 = 2) :
    decode w = some (.csrrs (w / 2 ^ 7 % 2 ^ 5) (w / 2 ^ 15 % 2 ^ 5) (w / 2 ^ 20 % 2 ^ 12)) := by
  simp only [decode, Rv32.decode, hop, hf]

/-- A load or a store that has been fetched but not made. -/
inductive Pending where
  | lw (rd : ℕ) (a : Word)
  | lbu (rd : ℕ) (a : Word)
  | sw (a v : Word)
  deriving DecidableEq

/-- The control and status registers of a hart. -/
class CsrFile (κ : Type) where
  /-- What is read of a register. -/
  read : κ → ℕ → Word
  write : κ → ℕ → Word → κ
  /-- What DRET makes of them. -/
  dret : κ → κ
  /-- The address that DRET goes to. -/
  dpc : κ → Word

/-- A hart in debug mode. -/
structure Hart (κ : Type) where
  /-- The registers, and the memory that is no device. -/
  core : Rv32.Hart
  /-- The control and status registers. -/
  csrs : κ
  pc : Word
  pending : Option Pending
  /-- It is in debug mode. -/
  debug : Bool

/-- An access: a read, or a write of the bytes that are enabled. -/
structure Access where
  we : Bool
  addr : Word
  wdata : Word
  be : BitVec 4
  deriving DecidableEq

namespace Hart

variable {κ : Type}

/-- The access the hart makes next. -/
def access (h : Hart κ) : Access :=
  match h.pending with
  | none => ⟨false, h.pc, 0, 0b1111⟩
  | some (.lw _ a) => ⟨false, a, 0, 0b1111⟩
  | some (.lbu _ a) => ⟨false, a, 0, (1 : BitVec 4) <<< (a.toNat % 4)⟩
  | some (.sw a v) => ⟨true, a, v, 0b1111⟩

/-- A register written, and on to the next instruction. -/
def setReg (h : Hart κ) (rd : ℕ) (v : Word) : Hart κ := { h with core := h.core.setReg rd v, pc := h.pc + 4 }

/-- What an instruction does. -/
def exec [CsrFile κ] (h : Hart κ) (haltAddr : Word) : Instr → Hart κ
  | .base (.lui rd imm) => h.setReg rd (.ofNat 32 (imm * 2 ^ 12))
  | .base (.addi rd rs imm) => h.setReg rd (h.core.reg rs + .ofInt 32 imm)
  | .base (.lw rd rs imm) => { h with pending := some (.lw rd (h.core.reg rs + .ofInt 32 imm)), pc := h.pc + 4 }
  | .base (.sw rs' rs imm) =>
    { h with pending := some (.sw (h.core.reg rs + .ofInt 32 imm) (h.core.reg rs')), pc := h.pc + 4 }
  | .auipc rd imm => h.setReg rd (h.pc + .ofNat 32 (imm * 2 ^ 12))
  | .jal rd imm => { h with core := h.core.setReg rd (h.pc + 4), pc := h.pc + .ofInt 32 imm }
  | .bne rs rs' imm =>
    { h with pc := if h.core.reg rs = h.core.reg rs' then h.pc + 4 else h.pc + .ofInt 32 imm }
  | .lbu rd rs imm => { h with pending := some (.lbu rd (h.core.reg rs + .ofInt 32 imm)), pc := h.pc + 4 }
  | .andi rd rs imm => h.setReg rd (h.core.reg rs &&& .ofInt 32 imm)
  | .slli rd rs sh => h.setReg rd (h.core.reg rs <<< sh)
  | .srli rd rs sh => h.setReg rd (h.core.reg rs >>> sh)
  | .add rd rs rs' => h.setReg rd (h.core.reg rs + h.core.reg rs')
  | .fence => { h with pc := h.pc + 4 }
  | .csrrw rd rs csr =>
    { h.setReg rd (CsrFile.read h.csrs csr) with csrs := CsrFile.write h.csrs csr (h.core.reg rs) }
  | .csrrs rd rs csr =>
    { h.setReg rd (CsrFile.read h.csrs csr) with
      csrs := CsrFile.write h.csrs csr (CsrFile.read h.csrs csr ||| h.core.reg rs) }
  | .ebreak => { h with pc := haltAddr }
  | .dret => { h with pc := CsrFile.dpc h.csrs, csrs := CsrFile.dret h.csrs, debug := false }

/-- The hart after its access, with what memory has answered. What a word outside the instructions
above does is left open: the hart stays where it is. -/
def next [CsrFile κ] (haltAddr : Word) (h : Hart κ) (rdata : Word) : Hart κ :=
  match h.pending with
  | none => (decode rdata.toNat).elim h (h.exec haltAddr)
  | some (.lw rd _) => { h with core := h.core.setReg rd rdata, pending := none }
  | some (.lbu rd a) =>
    { h with core := h.core.setReg rd ((rdata >>> (8 * (a.toNat % 4))).setWidth 8 |>.setWidth 32), pending := none }
  | some (.sw _ _) => { h with pending := none }

/-- The hart with another memory. -/
def withMem (h : Hart κ) (mem : Word → Word) : Hart κ := { h with core := h.core.withMem mem }

section

variable (h : Hart κ) (mem : Word → Word)

@[simp] theorem withMem_pending : (h.withMem mem).pending = h.pending := rfl

@[simp] theorem withMem_debug : (h.withMem mem).debug = h.debug := rfl

@[simp] theorem withMem_access : (h.withMem mem).access = h.access := rfl

theorem withMem_setReg (rd : ℕ) (v : Word) : (h.withMem mem).setReg rd v = (h.setReg rd v).withMem mem := by
  unfold setReg withMem
  rw [Rv32.Hart.withMem_setReg]

/-- An instruction does not look at the memory. -/
theorem exec_withMem [CsrFile κ] (haltAddr : Word) (i : Instr) :
    (h.withMem mem).exec haltAddr i = (h.exec haltAddr i).withMem mem := by
  cases i with
  | base i =>
    cases i with
    | lui rd imm => exact withMem_setReg ..
    | addi rd rs imm => exact withMem_setReg ..
    | lw rd rs imm => rfl
    | sw rs' rs imm => rfl
  | jal rd imm => simp only [exec, withMem, Rv32.Hart.withMem_setReg]
  | csrrw rd rs csr => simp only [exec, withMem_setReg]; rfl
  | csrrs rd rs csr => simp only [exec, withMem_setReg]; rfl
  | auipc rd imm => exact withMem_setReg ..
  | andi rd rs imm => exact withMem_setReg ..
  | slli rd rs sh => exact withMem_setReg ..
  | srli rd rs sh => exact withMem_setReg ..
  | add rd rs rs' => exact withMem_setReg ..
  | bne _ _ _ | lbu _ _ _ | fence | ebreak | dret => rfl

end

end Hart

/-! ### Programs without jumps -/

/-- What an instruction does to the registers, if it does nothing else. -/
def Instr.onRegisters (c : Rv32.Hart) : Instr → Option Rv32.Hart
  | .base (.lui rd imm) => some (c.setReg rd (.ofNat 32 (imm * 2 ^ 12)))
  | .base (.addi rd rs imm) => some (c.setReg rd (c.reg rs + .ofInt 32 imm))
  | .andi rd rs imm => some (c.setReg rd (c.reg rs &&& .ofInt 32 imm))
  | .slli rd rs sh => some (c.setReg rd (c.reg rs <<< sh))
  | .srli rd rs sh => some (c.setReg rd (c.reg rs >>> sh))
  | .add rd rs rs' => some (c.setReg rd (c.reg rs + c.reg rs'))
  | .fence => some c
  | _ => none

/-- What a program does to the registers up to its first EBREAK, if it does nothing else. -/
def runProgram : List Word → Rv32.Hart → Option Rv32.Hart
  | [], _ => none
  | w :: ws, c => (decode w.toNat).bind fun i =>
    if i = .ebreak then some c else (i.onRegisters c).bind (runProgram ws)

theorem Instr.onRegisters_withMem {i : Instr} {c c' : Rv32.Hart} (h : i.onRegisters c = some c') (mem : Word → Word) :
    i.onRegisters (c.withMem mem) = some (c'.withMem mem) := by
  cases i with
  | base i =>
    cases i with
    | lui rd imm =>
      obtain rfl := Option.some.inj h
      exact congrArg some (Rv32.Hart.withMem_setReg ..)
    | addi rd rs imm =>
      obtain rfl := Option.some.inj h
      exact congrArg some (Rv32.Hart.withMem_setReg ..)
    | lw _ _ _ | sw _ _ _ => cases h
  | andi rd rs imm | slli rd rs sh | srli rd rs sh | add rd rs rs' =>
    obtain rfl := Option.some.inj h
    exact congrArg some (Rv32.Hart.withMem_setReg ..)
  | fence =>
    obtain rfl := Option.some.inj h
    rfl
  | auipc _ _ | jal _ _ | bne _ _ _ | lbu _ _ _ | csrrw _ _ _ | csrrs _ _ _ | ebreak | dret => cases h

/-- Such a program does not look at the memory. -/
theorem runProgram_withMem {ws : List Word} {c c' : Rv32.Hart} (h : runProgram ws c = some c') (mem : Word → Word) :
    runProgram ws (c.withMem mem) = some (c'.withMem mem) := by
  induction ws generalizing c with
  | nil => cases h
  | cons w ws ih =>
    obtain ⟨i, hi, h⟩ := Option.bind_eq_some_iff.mp h
    rw [runProgram, hi, Option.bind_some]
    split_ifs at h ⊢ with hbreak
    · obtain rfl := Option.some.inj h
      rfl
    · obtain ⟨c₁, hc₁, h⟩ := Option.bind_eq_some_iff.mp h
      rw [Instr.onRegisters_withMem hc₁, Option.bind_some]
      exact ih h

/-- What such an instruction does to the hart. -/
theorem Hart.exec_of_onRegisters {κ : Type} [CsrFile κ] {h : Hart κ} {i : Instr} {c : Rv32.Hart}
    (hi : i.onRegisters h.core = some c) (haltAddr : Word) : h.exec haltAddr i = { h with core := c, pc := h.pc + 4 } := by
  cases i with
  | base i =>
    cases i with
    | lui rd imm | addi rd rs imm =>
      obtain rfl := Option.some.inj hi
      rfl
    | lw _ _ _ | sw _ _ _ => cases hi
  | andi rd rs imm | slli rd rs sh | srli rd rs sh | add rd rs rs' | fence =>
    obtain rfl := Option.some.inj hi
    rfl
  | auipc _ _ | jal _ _ | bne _ _ _ | lbu _ _ _ | csrrw _ _ _ | csrrs _ _ _ | ebreak | dret => cases hi

/-! ### Lines -/

variable {κ : Type} [CsrFile κ]

/-- A run of instructions, fetched from `code`, none but the last of which asks for an access or leaves
debug mode. -/
inductive Line (haltAddr : Word) (code : Word → Word) : ℕ → Hart κ → Hart κ → Prop
  | nil (h : Hart κ) : Line haltAddr code 0 h h
  | cons {n : ℕ} {h h' : Hart κ} (pc : Word) (i : Instr) (hpending : h.pending = none) (hdebug : h.debug = true)
      (hpc : h.pc = pc) (hdecode : decode (code pc).toNat = some i)
      (hline : Line haltAddr code n (h.exec haltAddr i) h') : Line haltAddr code (n + 1) h h'

namespace Line

variable {haltAddr : Word} {code code' : Word → Word} {n m : ℕ} {h h' h'' : Hart κ}

/-- An instruction, and what it leaves. -/
theorem step (pc : Word) (i : Instr) (h₁ : Hart κ) (hpending : h.pending = none) (hdebug : h.debug = true)
    (hpc : h.pc = pc) (hdecode : decode (code pc).toNat = some i) (hexec : h.exec haltAddr i = h₁)
    (hline : Line haltAddr code n h₁ h') : Line haltAddr code (n + 1) h h' :=
  .cons pc i hpending hdebug hpc hdecode (hexec ▸ hline)

/-- One run after another. -/
theorem trans (hl : Line haltAddr code n h h') (hl' : Line haltAddr code m h' h'') :
    ∃ k, Line haltAddr code k h h'' := by
  induction hl with
  | nil h => exact ⟨m, hl'⟩
  | cons pc i hpending hdebug hpc hdecode _ ih =>
    obtain ⟨k, hk⟩ := ih hl'
    exact ⟨k + 1, .cons pc i hpending hdebug hpc hdecode hk⟩

/-- A run that is not over fetches its next instruction. -/
theorem next (hl : Line haltAddr code (n + 1) h h') :
    h.debug = true ∧ h.access = ⟨false, h.pc, 0, 0b1111⟩ ∧ (decode (code h.pc).toNat).isSome = true ∧
      Line haltAddr code n (h.next haltAddr (code h.pc)) h' := by
  cases hl with
  | cons pc i hpending hdebug hpc hdecode hline =>
    subst hpc
    refine ⟨hdebug, by rw [Hart.access, hpending], by rw [hdecode]; rfl, ?_⟩
    rw [Hart.next, hpending, hdecode]
    exact hline

/-- A run is the same from code that is the same where there are instructions. -/
theorem mono (hcode : ∀ a, (decode (code a).toNat).isSome = true → code' a = code a)
    (hl : Line haltAddr code n h h') : Line haltAddr code' n h h' := by
  induction hl with
  | nil h => exact .nil h
  | cons pc i hpending hdebug hpc hdecode _ ih =>
    refine .cons pc i hpending hdebug hpc ?_ ih
    rw [hcode pc (by rw [hdecode]; rfl)]
    exact hdecode

/-- A program without jumps, from where it begins. -/
theorem program {ws : List Word} {c c' : Rv32.Hart} (h : runProgram ws c = some c') {pc : Word}
    (hcode : ∀ k (hk : k < ws.length), code (pc + .ofNat 32 (4 * k)) = ws[k]) (csrs : κ) :
    ∃ n, Line haltAddr code n ⟨c, csrs, pc, none, true⟩ ⟨c', csrs, haltAddr, none, true⟩ := by
  induction ws generalizing c pc with
  | nil => cases h
  | cons w ws ih =>
    obtain ⟨i, hi, h⟩ := Option.bind_eq_some_iff.mp h
    have hpc : code pc = w := (congrArg code (BitVec.add_zero pc)).symm.trans (hcode 0 (Nat.succ_pos _))
    have hdecode : decode (code pc).toNat = some i := by rw [hpc, hi]
    split_ifs at h with hbreak
    · obtain rfl := Option.some.inj h
      exact ⟨1, .cons pc i rfl rfl rfl hdecode (hbreak ▸ .nil _)⟩
    · obtain ⟨c₁, hc₁, h⟩ := Option.bind_eq_some_iff.mp h
      have hcode' (k : ℕ) (hk : k < ws.length) : code (pc + 4 + .ofNat 32 (4 * k)) = ws[k] := by
        have hadd : pc + 4 + .ofNat 32 (4 * k) = pc + .ofNat 32 (4 * (k + 1)) := by
          rw [Nat.mul_add, Nat.add_comm, BitVec.ofNat_add, BitVec.add_assoc]
          rfl
        rw [hadd]
        exact hcode (k + 1) (by simpa using hk)
      obtain ⟨n, hn⟩ := ih h hcode'
      exact ⟨n + 1, .step pc i _ rfl rfl rfl hdecode (Hart.exec_of_onRegisters hc₁ haltAddr) hn⟩

/-- A run is the same with another memory. -/
theorem withMem (hl : Line haltAddr code n h h') (mem : Word → Word) :
    Line haltAddr code n (h.withMem mem) (h'.withMem mem) := by
  induction hl with
  | nil h => exact .nil _
  | cons pc i hpending hdebug hpc hdecode _ ih =>
    refine .cons pc i hpending hdebug hpc hdecode ?_
    rw [Hart.exec_withMem]
    exact ih

theorem zero (hl : Line haltAddr code 0 h h') : h = h' := by
  cases hl
  rfl

end Line

end Debug

end PyOcdRiscv.Lib
