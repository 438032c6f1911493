import PyOcdRiscv.Lib.DebugHart

/-!
# The control and status registers of the Pulp target

`riscv_cs_registers.sv`, set up as in `config_ri5cy.v` (hart 0, `PULP_SECURE` 0, `USE_PMP` 0, `FPU` 1) and
`riscv_soc.sv`: what the instructions read and write, what DRET does, and what is noted when the hart enters debug
mode. Few registers hold what is written to them: of most only some bits are kept, some are constant, and one is
another view of two.

The registers of the performance counters and of the hardware loops depend on what the pipeline does. They are left
out (`isLeftOut`), and read as zero here.
-/

namespace PyOcdRiscv.Target

open Lib Debug

/-- `Dcsr_t`. -/
structure Dcsr where
  xdebugver : BitVec 4
  zero2 : BitVec 12
  ebreakm : Bool
  zero1 : Bool
  ebreaks : Bool
  ebreaku : Bool
  stepie : Bool
  stopcount : Bool
  stoptime : Bool
  cause : BitVec 3
  zero0 : Bool
  mprven : Bool
  nmip : Bool
  step : Bool
  prv : BitVec 2
  deriving DecidableEq

namespace Dcsr

/-- A word, field by field. -/
def ofWord (w : Word) : Dcsr where
  xdebugver := w.extractLsb' 28 4
  zero2 := w.extractLsb' 16 12
  ebreakm := w.getLsbD 15
  zero1 := w.getLsbD 14
  ebreaks := w.getLsbD 13
  ebreaku := w.getLsbD 12
  stepie := w.getLsbD 11
  stopcount := w.getLsbD 10
  stoptime := w.getLsbD 9
  cause := w.extractLsb' 6 3
  zero0 := w.getLsbD 5
  mprven := w.getLsbD 4
  nmip := w.getLsbD 3
  step := w.getLsbD 2
  prv := w.extractLsb' 0 2

/-- The word. -/
def toWord (s : Dcsr) : Word :=
  s.xdebugver ++ s.zero2 ++ BitVec.ofBool s.ebreakm ++ BitVec.ofBool s.zero1 ++ BitVec.ofBool s.ebreaks ++
    BitVec.ofBool s.ebreaku ++ BitVec.ofBool s.stepie ++ BitVec.ofBool s.stopcount ++ BitVec.ofBool s.stoptime ++
    s.cause ++ BitVec.ofBool s.zero0 ++ BitVec.ofBool s.mprven ++ BitVec.ofBool s.nmip ++ BitVec.ofBool s.step ++ s.prv

end Dcsr

/-- `PRIV_LVL_M`. -/
def PRIV_LVL_M : BitVec 2 := 0b11

/-- The registers. Of `mstatus_q` only these two bits are not constant. -/
structure CsRegisters where
  fflags : BitVec 5
  frm : BitVec 3
  fprec : BitVec 5
  /-- `mstatus_q.mie`. -/
  mie : Bool
  /-- `mstatus_q.mpie`. -/
  mpie : Bool
  mscratch : Word
  mepc : Word
  mcause : BitVec 6
  dcsr : Dcsr
  depc : Word
  dscratch0 : Word
  dscratch1 : Word
  deriving DecidableEq

namespace CsRegisters

def CSR_DCSR : ℕ := 0x7b0
def CSR_DPC : ℕ := 0x7b1
def CSR_DSCRATCH0 : ℕ := 0x7b2
def CSR_DSCRATCH1 : ℕ := 0x7b3

/-- After a reset. -/
def fresh : CsRegisters where
  fflags := 0
  frm := 0
  fprec := 0
  mie := false
  mpie := false
  mscratch := 0
  mepc := 0
  mcause := 0
  dcsr := { Dcsr.ofWord 0 with prv := PRIV_LVL_M }
  depc := 0
  dscratch0 := 0
  dscratch1 := 0

/-- `mstatus`: always machine mode. -/
def mstatus (s : CsRegisters) : Word :=
  (0 : BitVec 19) ++ PRIV_LVL_M ++ (0 : BitVec 3) ++ BitVec.ofBool s.mpie ++ (0 : BitVec 3) ++ BitVec.ofBool s.mie ++
    (0 : BitVec 3)

/-- `mtvec`: the page of the boot address, and `MTVEC_MODE`. -/
def mtvec : Word := 0x1a000001

/-- `csr_rdata_o`. -/
def read (s : CsRegisters) (csr : ℕ) : Word :=
  if csr = 0x001 then s.fflags.setWidth 32
  else if csr = 0x002 then s.frm.setWidth 32
  else if csr = 0x003 then (0 : BitVec 24) ++ s.frm ++ s.fflags
  else if csr = 0x006 then s.fprec.setWidth 32
  else if csr = 0x300 then s.mstatus
  else if csr = 0x305 then mtvec
  else if csr = 0x340 then s.mscratch
  else if csr = 0x341 then s.mepc
  else if csr = 0x342 then s.mcause.extractLsb' 5 1 ++ (0 : BitVec 26) ++ s.mcause.extractLsb' 0 5
  else if csr = CSR_DCSR then s.dcsr.toWord
  else if csr = CSR_DPC then s.depc
  else if csr = CSR_DSCRATCH0 then s.dscratch0
  else if csr = CSR_DSCRATCH1 then s.dscratch1
  else if csr = 0xc10 then PRIV_LVL_M.setWidth 32
  else 0

/-- DCSR written. -/
def writeDcsr (w : Word) : Dcsr :=
  { Dcsr.ofWord w with
    xdebugver := 4
    prv := PRIV_LVL_M
    nmip := false
    mprven := false
    stopcount := false
    stoptime := false }

/-- What a write of `csr_wdata_int` does. -/
def write (s : CsRegisters) (csr : ℕ) (w : Word) : CsRegisters :=
  if csr = 0x001 then { s with fflags := w.setWidth 5 }
  else if csr = 0x002 then { s with frm := w.setWidth 3 }
  else if csr = 0x003 then { s with fflags := w.setWidth 5, frm := w.extractLsb' 5 3 }
  else if csr = 0x006 then { s with fprec := w.setWidth 5 }
  else if csr = 0x300 then { s with mie := w.getLsbD 3, mpie := w.getLsbD 7 }
  else if csr = 0x340 then { s with mscratch := w }
  else if csr = 0x341 then { s with mepc := w }
  else if csr = 0x342 then { s with mcause := w.extractLsb' 31 1 ++ w.extractLsb' 0 5 }
  else if csr = CSR_DCSR then { s with dcsr := writeDcsr w }
  else if csr = CSR_DPC then { s with depc := w }
  else if csr = CSR_DSCRATCH0 then { s with dscratch0 := w }
  else if csr = CSR_DSCRATCH1 then { s with dscratch1 := w }
  else s

/-- `csr_restore_dret_i`. -/
def dret (s : CsRegisters) : CsRegisters := { s with mie := s.mpie, mpie := true }

/-- `PC_DRET`. The instructions are at even addresses. -/
def dpc (s : CsRegisters) : Word := s.depc &&& ~~~1

/-- `debug_csr_save_i`: the hart enters debug mode. -/
def debugSave (s : CsRegisters) (cause : BitVec 3) (pc : Word) : CsRegisters :=
  { s with
    dcsr := { s.dcsr with prv := PRIV_LVL_M, cause := cause }
    depc := pc }

/-- The registers of the performance counters and of the hardware loops. -/
def isLeftOut (csr : ℕ) : Prop :=
  csr / 2 ^ 5 = 0x780 / 2 ^ 5 ∨ csr ∈ [0x7c0, 0x7c1, 0x7c2, 0x7c4, 0x7c5, 0x7c6, 0xcc0, 0xcc1]

instance (csr : ℕ) : Decidable (isLeftOut csr) := inferInstanceAs (Decidable (_ ∨ _))

end CsRegisters

instance : CsrFile CsRegisters := ⟨CsRegisters.read, CsRegisters.write, CsRegisters.dret, CsRegisters.dpc⟩

/-- The hart of the Pulp target. -/
abbrev RiscvCore := Hart CsRegisters

namespace CsRegisters

variable (s : CsRegisters) (csr : ℕ) (w : Word)

@[simp] theorem csrFile_read : CsrFile.read s csr = s.read csr := rfl

@[simp] theorem csrFile_write : CsrFile.write s csr w = s.write csr w := rfl

@[simp] theorem csrFile_dret : CsrFile.dret s = s.dret := rfl

@[simp] theorem csrFile_dpc : CsrFile.dpc s = s.dpc := rfl

/-! ### The number of the hart -/

@[simp] theorem read_mhartid : s.read 0xf14 = 0 := rfl

@[simp] theorem write_mhartid : s.write 0xf14 w = s := rfl

/-! ### The scratch registers -/

/-- A scratch register, which the code of debug mode makes use of. -/
def isScratch (csr : ℕ) : Prop := csr = CSR_DSCRATCH0 ∨ csr = CSR_DSCRATCH1

instance (csr : ℕ) : Decidable (isScratch csr) := inferInstanceAs (Decidable (_ ∨ _))

/-- The registers with other values in the scratch registers. -/
def withScratch (s : CsRegisters) (v₀ v₁ : Word) : CsRegisters := { s with dscratch0 := v₀, dscratch1 := v₁ }

@[simp] theorem read_dscratch0 : s.read 0x7b2 = s.dscratch0 := rfl

@[simp] theorem read_dscratch1 : s.read 0x7b3 = s.dscratch1 := rfl

@[simp] theorem write_dscratch0 : s.write 0x7b2 w = s.withScratch w s.dscratch1 := rfl

@[simp] theorem write_dscratch1 : s.write 0x7b3 w = s.withScratch s.dscratch0 w := rfl

@[simp] theorem dscratch0_withScratch (v₀ v₁ : Word) : (s.withScratch v₀ v₁).dscratch0 = v₀ := rfl

@[simp] theorem dscratch1_withScratch (v₀ v₁ : Word) : (s.withScratch v₀ v₁).dscratch1 = v₁ := rfl

@[simp] theorem withScratch_withScratch (v₀ v₁ v₀' v₁' : Word) :
    (s.withScratch v₀ v₁).withScratch v₀' v₁' = s.withScratch v₀' v₁' := rfl

@[simp] theorem withScratch_self : s.withScratch s.dscratch0 s.dscratch1 = s := rfl

@[simp] theorem dret_withScratch (v₀ v₁ : Word) : (s.withScratch v₀ v₁).dret = s.dret.withScratch v₀ v₁ := rfl

@[simp] theorem dpc_withScratch (v₀ v₁ : Word) : (s.withScratch v₀ v₁).dpc = s.dpc := rfl

variable {csr}

/-- The other registers are read as they were. -/
theorem read_withScratch (h : ¬ isScratch csr) (v₀ v₁ : Word) : (s.withScratch v₀ v₁).read csr = s.read csr := by
  obtain ⟨h₀, h₁⟩ := not_or.mp h
  rw [read, read]
  simp only [if_neg h₀, if_neg h₁]
  rfl

/-- And written as they were. -/
theorem write_withScratch (h : ¬ isScratch csr) (v₀ v₁ : Word) :
    (s.withScratch v₀ v₁).write csr w = (s.write csr w).withScratch v₀ v₁ := by
  obtain ⟨h₀, h₁⟩ := not_or.mp h
  rw [write, write]
  simp only [if_neg h₀, if_neg h₁, apply_ite fun t : CsRegisters => t.withScratch v₀ v₁]
  rfl

/-- A write of another register leaves them as they are. -/
theorem dscratch0_write (h : csr ≠ CSR_DSCRATCH0) : (s.write csr w).dscratch0 = s.dscratch0 := by
  rw [write]
  simp only [if_neg h, apply_ite dscratch0, ite_self]

theorem dscratch1_write (h : csr ≠ CSR_DSCRATCH1) : (s.write csr w).dscratch1 = s.dscratch1 := by
  rw [write]
  simp only [if_neg h, apply_ite dscratch1, ite_self]

end CsRegisters

end PyOcdRiscv.Target
