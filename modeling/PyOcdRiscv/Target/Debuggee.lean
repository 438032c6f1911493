import PyOcdRiscv.Target.DmTop

/-!
# What the debugger sees of a halted hart

The registers of the hart (`Context`), and what the requests make of them if every command is done at
once (`Debuggee`): a command moves a register from or to data0, and has the hart run the program buffer.
The code that does it on the hart needs two scratch registers, and these the debugger does not see.

Left open is what the debug module does not support or the code does not keep: the scratch registers, other sizes
than a word, and programs that jump, access memory or do not end. So are the registers that the hart itself
changes meanwhile (`CsRegisters.isLeftOut`).
-/

namespace PyOcdRiscv.Target

open Lib Debug

/-! ### Registers -/

/-- The registers of a hart. What is in the memory does not matter here. -/
structure Context where
  core : Rv32.Hart
  csrs : CsRegisters

namespace Context

/-- The same but for the scratch registers. -/
structure Same (L L' : Context) : Prop where
  core : L'.core = L.core.withMem L'.core.mem
  csrs : ∃ v₀ v₁, L'.csrs = L.csrs.withScratch v₀ v₁

theorem Same.refl (L : Context) : Same L L := ⟨rfl, _, _, L.csrs.withScratch_self.symm⟩

theorem Same.trans {L L' L'' : Context} (h : Same L L') (h' : Same L' L'') : Same L L'' where
  core := by
    rw [h'.core, h.core]
    rfl
  csrs := by
    obtain ⟨v₀, v₁, hcsrs⟩ := h.csrs
    obtain ⟨v₀', v₁', hcsrs'⟩ := h'.csrs
    exact ⟨v₀', v₁', by rw [hcsrs', hcsrs, CsRegisters.withScratch_withScratch]⟩

theorem Same.reg {L L' : Context} (h : Same L L') (r : ℕ) : L'.core.reg r = L.core.reg r := by
  rw [h.core]
  rfl

theorem Same.setReg {L L' : Context} (h : Same L L') (r : ℕ) (v : Word) :
    Same ⟨L.core.setReg r v, L.csrs⟩ ⟨L'.core.setReg r v, L'.csrs⟩ where
  core := by
    dsimp only
    rw [Rv32.Hart.mem_setReg, ← Rv32.Hart.withMem_setReg, ← h.core]
  csrs := h.csrs

/-- Another register reads the same. -/
theorem Same.read {L L' : Context} (h : Same L L') {csr : ℕ} (hcsr : ¬ CsRegisters.isScratch csr) :
    L'.csrs.read csr = L.csrs.read csr := by
  obtain ⟨v₀, v₁, hcsrs⟩ := h.csrs
  rw [hcsrs, CsRegisters.read_withScratch _ hcsr]

theorem Same.write {L L' : Context} (h : Same L L') {csr : ℕ} (hcsr : ¬ CsRegisters.isScratch csr) (v : Word) :
    Same ⟨L.core, L.csrs.write csr v⟩ ⟨L'.core, L'.csrs.write csr v⟩ where
  core := h.core
  csrs := by
    obtain ⟨v₀, v₁, hcsrs⟩ := h.csrs
    exact ⟨v₀, v₁, by rw [hcsrs, CsRegisters.write_withScratch _ _ hcsr]⟩

end Context

/-! ### Commands -/

/-- What the debugger sees of the hart and of the registers of the debug module that are about it. -/
structure Debuggee where
  context : Context
  /-- data0 and so on. -/
  data : ℕ → Word
  progbuf : ℕ → Word
  /-- The hart has been asked to resume. -/
  resumes : Bool

namespace Debuggee

open CsRegisters (isScratch isLeftOut)

/-- The value that a command moves to data0. -/
def moved (d : Debuggee) (v : Word) : Debuggee := { d with data := Function.update d.data 0 v }

/-- The transfer of a register, a word, to data0 or the other way: the general registers are numbered
from 0x1000 on, and below are the control and status registers, which are written back what is read of them. -/
def transfer (w : Word) (d : Debuggee) : Option Debuggee :=
  let n := Dm.regno w
  if Dm.aarsize w ≠ 2 then none
  else if n / 2 ^ 5 = 0x1000 / 2 ^ 5 then
    some <|
      if Dm.write w then { d with context.core := d.context.core.setReg (n % 2 ^ 5) (d.data 0) }
      else d.moved (d.context.core.reg (n % 2 ^ 5))
  else if n < 2 ^ 12 ∧ ¬ isScratch n ∧ ¬ isLeftOut n then
    some <|
      if Dm.write w then { d with context.csrs := d.context.csrs.write n (d.data 0) }
      else { d.moved (d.context.csrs.read n) with
        context.csrs := d.context.csrs.write n (d.context.csrs.read n) }
  else none

/-- The program buffer run. -/
def exec (d : Debuggee) : Option Debuggee :=
  (runProgram ((List.range DmRegs.ProgBufSize).map d.progbuf) d.context.core).map fun core =>
    { d with context.core := core }

/-- A command. -/
def command (w : Word) (d : Debuggee) : Option Debuggee :=
  if Dm.cmdtype w ≠ Dm.AccessRegister ∨ Dm.aarpostincrement w = true then none
  else if Dm.transfer w then (d.transfer w).bind fun d => if Dm.postexec w then d.exec else some d
  else if Dm.postexec w ∧ Dm.aarsize w < Dm.MaxAar then d.exec
  else none

/-- A request that is not refused. A command that is left open does not change anything here. -/
def serve (d : Debuggee) (r : Request) : Debuggee :=
  let w := BitVec.ofNat 32 r.data
  if r.op = DTM_WRITE then
    if r.adr = 0x17 then (d.command w).getD d
    else if r.adr = 0x10 then { d with resumes := d.resumes || w.getLsbD 30 }
    else if 0x04 ≤ r.adr ∧ r.adr < 0x04 + DmRegs.DataCount then
      { d with data := Function.update d.data (r.adr - 0x04) w }
    else if 0x20 ≤ r.adr ∧ r.adr < 0x20 + DmRegs.ProgBufSize then
      { d with progbuf := Function.update d.progbuf (r.adr - 0x20) w }
    else d
  else d

/-- A command leaves the program buffer as it is. -/
theorem frame_transfer {w : Word} {d d' : Debuggee} (h : d.transfer w = some d') :
    d'.progbuf = d.progbuf ∧ d'.resumes = d.resumes := by
  rw [transfer] at h
  simp only [ne_eq, ite_not] at h
  split_ifs at h <;> obtain rfl := Option.some.inj h <;> exact ⟨rfl, rfl⟩

theorem frame_exec {d d' : Debuggee} (h : d.exec = some d') : d'.progbuf = d.progbuf ∧ d'.resumes = d.resumes := by
  obtain ⟨core, -, rfl⟩ := Option.map_eq_some_iff.mp h
  exact ⟨rfl, rfl⟩

theorem frame_command {w : Word} {d d' : Debuggee} (h : d.command w = some d') :
    d'.progbuf = d.progbuf ∧ d'.resumes = d.resumes := by
  rw [command] at h
  split_ifs at h with htype htransfer hpost hexec
  · obtain ⟨d₁, hd₁, hd'⟩ := Option.bind_eq_some_iff.mp h
    obtain ⟨hprogbuf, hresumes⟩ := frame_transfer hd₁
    obtain ⟨hprogbuf', hresumes'⟩ := frame_exec hd'
    exact ⟨hprogbuf'.trans hprogbuf, hresumes'.trans hresumes⟩
  · obtain ⟨d₁, hd₁, hd'⟩ := Option.bind_eq_some_iff.mp h
    obtain rfl := Option.some.inj hd'
    exact frame_transfer hd₁
  · exact frame_exec h

end Debuggee

end PyOcdRiscv.Target
