import PyOcdRiscv.Target.Debuggee

/-!
# The code of debug mode

What a halted hart does on its own between two accesses of the debug module that matter to it: it polls
its flags in the debug ROM, reports where it is, runs the code of an abstract command or the program
buffer, and resumes. Two of its registers are in use meanwhile, and what was in them is kept in the
scratch registers (`parked`); the debugger sees the hart as it was halted (`Context`).

Each theorem is the disassembly of a piece of that code, and `ends_command` puts the pieces of an abstract
command together: a hart that sets out for it ends where `Debuggee.command` says.
-/

namespace PyOcdRiscv.Target

open Lib Debug
open Dm (HaltAddress ResumeAddress DataAddr ProgBufBase ProgBufEnd AbstractCmdBase AbstractCmdEnd WhereTo CSR_DSCRATCH0
  CSR_DSCRATCH1)
open DebugTarget (inPage)
open CsRegisters (isScratch dscratch0_write dscratch1_write)

namespace Context

/-! ### Where the hart is -/

/-- The hart at an instruction, with these registers. -/
def start (L : Context) (pc : Word) : RiscvCore := ⟨L.core, L.csrs, pc, none, true⟩

/-- s0 and a0 saved. -/
def saved (L : Context) : Context := ⟨L.core, L.csrs.withScratch (L.core.reg 8) (L.core.reg 10)⟩

theorem same_saved (L : Context) : Same L L.saved := ⟨rfl, _, _, rfl⟩

/-- The hart in the debug ROM: s0 is in use, and a0 is the page. -/
def parked (L : Context) (s0 pc : Word) (p : Option Pending) : RiscvCore :=
  ⟨(L.core.setReg 10 base).setReg 8 s0, L.saved.csrs, pc, p, true⟩

/-- It is to write that it is halted. -/
def reportsHalted (L : Context) : RiscvCore := L.parked 0 0x1b00082c (some (.sw 0x1b000100 0))

/-- It is to look whether it may go. -/
def looksGo (L : Context) : RiscvCore := L.parked base 0x1b000834 (some (.lbu 8 0x1b000400))

/-- It is to look whether it may resume. -/
def looksResume (L : Context) : RiscvCore := L.parked base 0x1b000848 (some (.lbu 8 0x1b000400))

/-- It is to write that it goes. -/
def reportsGoing (L : Context) : RiscvCore := L.parked 1 0x1b000874 (some (.sw 0x1b000104 0))

/-- It is to write that it resumes. -/
def reportsResuming (L : Context) : RiscvCore := L.parked 0 0x1b000888 (some (.sw 0x1b000108 0))

/-- It runs on outside debug mode. -/
def resumed (L : Context) : RiscvCore := ⟨L.core, L.csrs.dret, L.csrs.dpc, none, false⟩

end Context

/-! ### The ROM -/

/-- What is fetched from the debug ROM. -/
def romCode (a : Word) : Word :=
  if inPage a ∧ HaltAddress ≤ a.toNat % 2 ^ 12 then .ofNat 32 (debugRom.getD (a.toNat % 2 ^ 8 / 4) 0) else 0

/-- A run through the debug ROM. -/
abbrev RomLine : ℕ → RiscvCore → RiscvCore → Prop := Line haltAddress romCode

namespace Context

variable {L : Context}

/-- From where it is halted. -/
theorem line_entry (L : Context) : RomLine 9 (L.start haltAddress) L.reportsHalted := by
  refine .cons 0x1b000800 (.jal 0 12) rfl rfl rfl (by decide) ?_
  refine .cons 0x1b00080c .fence rfl rfl rfl (by decide) ?_
  refine .cons 0x1b000810 (.csrrw 0 8 0x7b2) rfl rfl rfl (by decide) ?_
  refine .cons 0x1b000814 (.csrrw 0 10 0x7b3) rfl rfl rfl (by decide) ?_
  refine .cons 0x1b000818 (.auipc 10 0) rfl rfl rfl (by decide) ?_
  refine .cons 0x1b00081c (.srli 10 10 12) rfl rfl rfl (by decide) ?_
  refine .cons 0x1b000820 (.slli 10 10 12) rfl rfl rfl (by decide) ?_
  refine .cons 0x1b000824 (.csrrs 8 0 0xf14) rfl rfl rfl (by decide) ?_
  refine .cons 0x1b000828 (.base (.sw 8 10 0x100)) rfl rfl rfl (by decide) ?_
  simp [Hart.exec, Hart.setReg, Context.start, haltAddress, Rv32.Hart.reg_setReg_of_ne, Rv32.Hart.reg_setReg]
  exact .nil _

/-- After it has written that it is halted. -/
theorem line_halted (L : Context) : RomLine 2 (L.parked 0 0x1b00082c none) L.looksGo := by
  refine .cons 0x1b00082c (.add 8 8 10) rfl rfl rfl (by decide) ?_
  refine .cons 0x1b000830 (.lbu 8 8 0x400) rfl rfl rfl (by decide) ?_
  simp [Hart.exec, Hart.setReg, Context.parked, Rv32.Hart.reg_setReg_of_ne, Rv32.Hart.reg_setReg]
  exact .nil _

/-- After it has seen that it may go. -/
theorem line_go (L : Context) : RomLine 3 (L.parked 1 0x1b000834 none) L.reportsGoing := by
  refine .cons 0x1b000834 (.andi 8 8 1) rfl rfl rfl (by decide) ?_
  refine .cons 0x1b000838 (.bne 8 0 56) rfl rfl rfl (by decide) ?_
  refine .cons 0x1b000870 (.base (.sw 0 10 0x104)) rfl rfl ?_ (by decide) ?_
  all_goals simp [Hart.exec, Hart.setReg, Context.parked, Rv32.Hart.reg_setReg_of_ne, Rv32.Hart.reg_setReg]
  exact .nil _

/-- After it has seen that it may not go. -/
theorem line_noGo (L : Context) {f : Word} (hf : f &&& 1#32 = 0#32) :
    RomLine 5 (L.parked f 0x1b000834 none) L.looksResume := by
  refine .cons 0x1b000834 (.andi 8 8 1) rfl rfl rfl (by decide) ?_
  refine .step 0x1b000838 (.bne 8 0 56) (L.parked 0 0x1b00083c none) rfl rfl rfl (by decide) ?_ ?_
  · simp [Hart.exec, Hart.setReg, Context.parked, Rv32.Hart.reg_setReg, hf]
  refine .cons 0x1b00083c (.csrrs 8 0 0xf14) rfl rfl rfl (by decide) ?_
  refine .cons 0x1b000840 (.add 8 8 10) rfl rfl rfl (by decide) ?_
  refine .cons 0x1b000844 (.lbu 8 8 0x400) rfl rfl rfl (by decide) ?_
  simp [Hart.exec, Hart.setReg, Context.parked, Rv32.Hart.reg_setReg_of_ne, Rv32.Hart.reg_setReg]
  exact .nil _

/-- After it has seen that it may resume. -/
theorem line_resume (L : Context) : RomLine 5 (L.parked 2 0x1b000848 none) L.reportsResuming := by
  refine .cons 0x1b000848 (.andi 8 8 2) rfl rfl rfl (by decide) ?_
  refine .step 0x1b00084c (.bne 8 0 (-72)) (L.parked 2 0x1b000804 none) rfl rfl rfl (by decide) ?_ ?_
  · simp [Hart.exec, Hart.setReg, Context.parked, Rv32.Hart.reg_setReg]
  refine .cons 0x1b000804 (.jal 0 124) rfl rfl rfl (by decide) ?_
  refine .cons 0x1b000880 (.csrrs 8 0 0xf14) rfl rfl rfl (by decide) ?_
  refine .cons 0x1b000884 (.base (.sw 8 10 0x108)) rfl rfl rfl (by decide) ?_
  simp [Hart.exec, Hart.setReg, Context.parked, Rv32.Hart.reg_setReg_of_ne, Rv32.Hart.reg_setReg]
  exact .nil _

/-- After it has seen that it may not resume. -/
theorem line_noResume (L : Context) {f : Word} (hf : f &&& 2#32 = 0#32) :
    RomLine 5 (L.parked f 0x1b000848 none) L.reportsHalted := by
  have hback : (0x1b000850 : Word) + .ofInt 32 (-44) = 0x1b000824 := by decide
  refine .cons 0x1b000848 (.andi 8 8 2) rfl rfl rfl (by decide) ?_
  refine .step 0x1b00084c (.bne 8 0 (-72)) (L.parked 0 0x1b000850 none) rfl rfl rfl (by decide) ?_ ?_
  · simp [Hart.exec, Hart.setReg, Context.parked, Rv32.Hart.reg_setReg, hf]
  refine .step 0x1b000850 (.jal 0 (-44)) (L.parked 0 0x1b000824 none) rfl rfl rfl (by decide) ?_ ?_
  · simp only [Hart.exec, Context.parked, Rv32.Hart.setReg_zero, hback]
  refine .cons 0x1b000824 (.csrrs 8 0 0xf14) rfl rfl rfl (by decide) ?_
  refine .cons 0x1b000828 (.base (.sw 8 10 0x100)) rfl rfl rfl (by decide) ?_
  simp [Hart.exec, Hart.setReg, Context.parked, Rv32.Hart.reg_setReg_of_ne, Rv32.Hart.reg_setReg]
  exact .nil _

/-- s0 and a0 restored. -/
theorem restore (L : Context) :
    ((L.core.setReg 10 base).setReg 8 (L.core.reg 8)).setReg 10 (L.core.reg 10) = L.core := by
  rw [Rv32.Hart.setReg_comm (by decide), Rv32.Hart.setReg_setReg, Rv32.Hart.setReg_reg,
    Rv32.Hart.setReg_reg]

/-- After it has written that it goes: to where there is a jump to the command. -/
theorem line_going (L : Context) : RomLine 3 (L.parked 1 0x1b000874 none) (L.saved.start 0x1b000300) := by
  refine .cons 0x1b000874 (.csrrs 8 0 0x7b2) rfl rfl rfl (by decide) ?_
  refine .cons 0x1b000878 (.csrrs 10 0 0x7b3) rfl rfl rfl (by decide) ?_
  refine .step 0x1b00087c (.jal 0 (-1404)) (L.saved.start 0x1b000300) rfl rfl rfl (by decide) ?_ (.nil _)
  simp [Hart.exec, Hart.setReg, Context.parked, Context.start]
  exact L.restore

/-- After it has written that it resumes. -/
theorem line_resuming (L : Context) : RomLine 3 (L.parked 0 0x1b000888 none) L.saved.resumed := by
  refine .cons 0x1b000888 (.csrrs 8 0 0x7b2) rfl rfl rfl (by decide) ?_
  refine .cons 0x1b00088c (.csrrs 10 0 0x7b3) rfl rfl rfl (by decide) ?_
  refine .step 0x1b000890 .dret (L.saved.resumed) rfl rfl rfl (by decide) ?_ (.nil _)
  simp [Hart.exec, Hart.setReg, Context.parked, Context.resumed]
  exact L.restore

end Context

/-! ### Words of a command -/

theorem decode_load {r : ℕ} (hr : r < 2 ^ 5) :
    decode (BitVec.ofNat 32 (Dm.load 2 r 10 DataAddr)).toNat = some (.base (.lw r 10 0x380)) := by
  have hw : (BitVec.ofNat 32 (Dm.load 2 r 10 DataAddr)).toNat = 0x38050000 + 2 * 2 ^ 12 + r * 2 ^ 7 + 0x03 := by
    simp only [Dm.load, DataAddr, BitVec.toNat_ofNat]
    omega
  rw [hw, decode_of_lw (by omega) (by omega)]
  have hrd : (0x38050000 + 2 * 2 ^ 12 + r * 2 ^ 7 + 0x03) / 2 ^ 7 % 2 ^ 5 = r := by omega
  have hrs : (0x38050000 + 2 * 2 ^ 12 + r * 2 ^ 7 + 0x03) / 2 ^ 15 % 2 ^ 5 = 10 := by omega
  have himm : (0x38050000 + 2 * 2 ^ 12 + r * 2 ^ 7 + 0x03) / 2 ^ 20 % 2 ^ 12 = 0x380 := by omega
  rw [hrd, hrs, himm]
  rfl

theorem decode_store {r : ℕ} (hr : r < 2 ^ 5) :
    decode (BitVec.ofNat 32 (Dm.store 2 r 10 DataAddr)).toNat = some (.base (.sw r 10 0x380)) := by
  have hw : (BitVec.ofNat 32 (Dm.store 2 r 10 DataAddr)).toNat = 0x38050000 + r * 2 ^ 20 + 2 * 2 ^ 12 + 0x23 := by
    simp only [Dm.store, DataAddr, BitVec.toNat_ofNat]
    omega
  rw [hw, decode_of_sw (by omega) (by omega)]
  have hrs' : (0x38050000 + r * 2 ^ 20 + 2 * 2 ^ 12 + 0x23) / 2 ^ 20 % 2 ^ 5 = r := by omega
  have hrs : (0x38050000 + r * 2 ^ 20 + 2 * 2 ^ 12 + 0x23) / 2 ^ 15 % 2 ^ 5 = 10 := by omega
  have himm : (0x38050000 + r * 2 ^ 20 + 2 * 2 ^ 12 + 0x23) / 2 ^ 25 % 2 ^ 7 * 2 ^ 5 +
      (0x38050000 + r * 2 ^ 20 + 2 * 2 ^ 12 + 0x23) / 2 ^ 7 % 2 ^ 5 = 0x380 := by omega
  rw [hrs', hrs, himm]
  rfl

theorem decode_csrw {csr : ℕ} (hcsr : csr < 2 ^ 12) :
    decode (BitVec.ofNat 32 (Dm.csrw csr 8)).toNat = some (.csrrw 0 8 csr) := by
  have hw : (BitVec.ofNat 32 (Dm.csrw csr 8)).toNat = csr * 2 ^ 20 + 8 * 2 ^ 15 + 2 ^ 12 + 0x73 := by
    simp only [Dm.csrw, BitVec.toNat_ofNat]
    omega
  rw [hw, decode_of_csrrw (by omega) (by omega)]
  have hrd : (csr * 2 ^ 20 + 8 * 2 ^ 15 + 2 ^ 12 + 0x73) / 2 ^ 7 % 2 ^ 5 = 0 := by omega
  have hrs : (csr * 2 ^ 20 + 8 * 2 ^ 15 + 2 ^ 12 + 0x73) / 2 ^ 15 % 2 ^ 5 = 8 := by omega
  have himm : (csr * 2 ^ 20 + 8 * 2 ^ 15 + 2 ^ 12 + 0x73) / 2 ^ 20 % 2 ^ 12 = csr := by omega
  rw [hrd, hrs, himm]

theorem decode_csrr {csr : ℕ} (hcsr : csr < 2 ^ 12) :
    decode (BitVec.ofNat 32 (Dm.csrr csr 8)).toNat = some (.csrrs 8 0 csr) := by
  have hw : (BitVec.ofNat 32 (Dm.csrr csr 8)).toNat = csr * 2 ^ 20 + 2 * 2 ^ 12 + 8 * 2 ^ 7 + 0x73 := by
    simp only [Dm.csrr, BitVec.toNat_ofNat]
    omega
  rw [hw, decode_of_csrrs (by omega) (by omega)]
  have hrd : (csr * 2 ^ 20 + 2 * 2 ^ 12 + 8 * 2 ^ 7 + 0x73) / 2 ^ 7 % 2 ^ 5 = 8 := by omega
  have hrs : (csr * 2 ^ 20 + 2 * 2 ^ 12 + 8 * 2 ^ 7 + 0x73) / 2 ^ 15 % 2 ^ 5 = 0 := by omega
  have himm : (csr * 2 ^ 20 + 2 * 2 ^ 12 + 8 * 2 ^ 7 + 0x73) / 2 ^ 20 % 2 ^ 12 = csr := by omega
  rw [hrd, hrs, himm]

/-! ### Through a command -/

/-- From one place to another, with at most one access, which is to data0: `out` is what it stores
there. -/
inductive Through (code : Word → Word) (data0 : Word) : RiscvCore → RiscvCore → Option Word → Prop
  | line {n : ℕ} {h h' : RiscvCore} (hline : Line haltAddress code n h h') : Through code data0 h h' none
  | load {n m rd : ℕ} {h h₁ h' : RiscvCore} (hline : Line haltAddress code n h h₁) (hdebug : h₁.debug = true)
      (hpending : h₁.pending = some (.lw rd 0x1b000380))
      (hline' : Line haltAddress code m (h₁.next haltAddress data0) h') : Through code data0 h h' none
  | store {n m : ℕ} {v : Word} {h h₁ h' : RiscvCore} (hline : Line haltAddress code n h h₁)
      (hdebug : h₁.debug = true) (hpending : h₁.pending = some (.sw 0x1b000380 v))
      (hline' : Line haltAddress code m (h₁.next haltAddress 0) h') : Through code data0 h h' (some v)

namespace Through

variable {code : Word → Word} {data0 : Word} {n : ℕ} {h₀ h h' h'' : RiscvCore} {out : Option Word}

theorem before (hline : Line haltAddress code n h₀ h) (ht : Through code data0 h h' out) :
    Through code data0 h₀ h' out := by
  cases ht with
  | line hl =>
    obtain ⟨k, hk⟩ := hline.trans hl
    exact .line hk
  | load hl hdebug hpending hl' =>
    obtain ⟨k, hk⟩ := hline.trans hl
    exact .load hk hdebug hpending hl'
  | store hl hdebug hpending hl' =>
    obtain ⟨k, hk⟩ := hline.trans hl
    exact .store hk hdebug hpending hl'

theorem after (ht : Through code data0 h h' out) (hline : Line haltAddress code n h' h'') :
    Through code data0 h h'' out := by
  cases ht with
  | line hl =>
    obtain ⟨k, hk⟩ := hl.trans hline
    exact .line hk
  | load hl hdebug hpending hl' =>
    obtain ⟨k, hk⟩ := hl'.trans hline
    exact .load hl hdebug hpending hk
  | store hl hdebug hpending hl' =>
    obtain ⟨k, hk⟩ := hl'.trans hline
    exact .store hl hdebug hpending hk

end Through

namespace Context

variable {L M : Context} {code : Word → Word} {data0 : Word} {r csr : ℕ}

/-- a0 is the page, and what was in it is in the scratch register. -/
def entered (L : Context) : Context :=
  ⟨L.core.setReg 10 base, L.csrs.withScratch L.csrs.dscratch0 (L.core.reg 10)⟩

/-- a0 is taken from the scratch register. -/
def left (M : Context) : Context := ⟨M.core.setReg 10 M.csrs.dscratch1, M.csrs⟩

/-- The first four instructions of a command that moves a register. -/
theorem line_prologue (h : ∀ k < 4, code (.ofNat 32 (0x1b000338 + 4 * k)) =
      .ofNat 32 ([Dm.csrw CSR_DSCRATCH1 10, Dm.auipc 10, Dm.srli 10 10 12, Dm.slli 10 10 12].getD k 0)) :
    Line haltAddress code 4 (L.start 0x1b000338) (L.entered.start 0x1b000348) := by
  have h₀ : code 0x1b000338 = .ofNat 32 (Dm.csrw CSR_DSCRATCH1 10) := h 0 (by decide)
  have h₁ : code 0x1b00033c = .ofNat 32 (Dm.auipc 10) := h 1 (by decide)
  have h₂ : code 0x1b000340 = .ofNat 32 (Dm.srli 10 10 12) := h 2 (by decide)
  have h₃ : code 0x1b000344 = .ofNat 32 (Dm.slli 10 10 12) := h 3 (by decide)
  refine .cons 0x1b000338 (.csrrw 0 10 0x7b3) rfl rfl rfl (by rw [h₀]; decide) ?_
  refine .cons 0x1b00033c (.auipc 10 0) rfl rfl rfl (by rw [h₁]; decide) ?_
  refine .cons 0x1b000340 (.srli 10 10 12) rfl rfl rfl (by rw [h₂]; decide) ?_
  refine .cons 0x1b000344 (.slli 10 10 12) rfl rfl rfl (by rw [h₃]; decide) ?_
  simp [Hart.exec, Hart.setReg, Context.start, Rv32.Hart.reg_setReg]
  exact .nil _

/-- The last two. -/
theorem line_epilogue {last : ℕ} {i : Instr} {pc : Word} (h : ∀ k < 2, code (.ofNat 32 (0x1b000358 + 4 * k)) =
      .ofNat 32 ([Dm.csrr CSR_DSCRATCH1 10, last].getD k 0))
    (hlast : decode (BitVec.ofNat 32 last).toNat = some i)
    (hexec : (M.left.start 0x1b00035c).exec haltAddress i = M.left.start pc) :
    Line haltAddress code 2 (M.start 0x1b000358) (M.left.start pc) := by
  have h₀ : code 0x1b000358 = .ofNat 32 (Dm.csrr CSR_DSCRATCH1 10) := h 0 (by decide)
  have h₁ : code 0x1b00035c = .ofNat 32 last := h 1 (by decide)
  refine .step 0x1b000358 (.csrrs 10 0 0x7b3) (M.left.start 0x1b00035c) rfl rfl rfl (by rw [h₀]; decide) ?_ ?_
  · simp [Hart.exec, Hart.setReg, start, left]
  exact .step 0x1b00035c i _ rfl rfl rfl (by rw [h₁]; exact hlast) hexec (.nil _)

/-- Three instructions that do nothing. -/
theorem line_nops (h₀ : code 0x1b00034c = .ofNat 32 Dm.nop) (h₁ : code 0x1b000350 = .ofNat 32 Dm.nop)
    (h₂ : code 0x1b000354 = .ofNat 32 Dm.nop) (M : Context) :
    Line haltAddress code 3 (M.start 0x1b00034c) (M.start 0x1b000358) := by
  refine .cons 0x1b00034c (.base (.addi 0 0 0)) rfl rfl rfl (by rw [h₀]; decide) ?_
  refine .cons 0x1b000350 (.base (.addi 0 0 0)) rfl rfl rfl (by rw [h₁]; decide) ?_
  exact .cons 0x1b000354 (.base (.addi 0 0 0)) rfl rfl rfl (by rw [h₂]; decide) (.nil _)

/-- The address of data0 by way of a0. -/
theorem entered_address (L : Context) : L.entered.core.reg 10 + .ofInt 32 0x380 = 0x1b000380 := by
  rw [entered, Rv32.Hart.reg_setReg (by decide)]
  decide

theorem entered_reg (L : Context) (h : r ≠ 10) : L.entered.core.reg r = L.core.reg r :=
  Rv32.Hart.reg_setReg_of_ne h ..

/-- data0 to a general register. -/
theorem through_load (hr : r < 2 ^ 5) (h : ∀ k < 4, code (.ofNat 32 (0x1b000348 + 4 * k)) =
      .ofNat 32 ([Dm.load 2 r 10 DataAddr, Dm.nop, Dm.nop, Dm.nop].getD k 0)) :
    Through code data0 (L.entered.start 0x1b000348)
      (start ⟨L.entered.core.setReg r data0, L.entered.csrs⟩ 0x1b000358) none := by
  have h₀ : code 0x1b000348 = .ofNat 32 (Dm.load 2 r 10 DataAddr) := h 0 (by decide)
  have hline : Line haltAddress code 1 (L.entered.start 0x1b000348)
      ⟨L.entered.core, L.entered.csrs, 0x1b00034c, some (.lw r 0x1b000380), true⟩ := by
    refine .step 0x1b000348 (.base (.lw r 10 0x380)) _ rfl rfl rfl (by rw [h₀]; exact decode_load hr) ?_ (.nil _)
    rw [← L.entered_address]
    rfl
  have hnops := line_nops (h 1 (by decide)) (h 2 (by decide)) (h 3 (by decide))
    ⟨L.entered.core.setReg r data0, L.entered.csrs⟩
  exact .load hline rfl rfl hnops

/-- A general register to data0. -/
theorem through_store (hr : r < 2 ^ 5) (hne : r ≠ 10) (h : ∀ k < 4, code (.ofNat 32 (0x1b000348 + 4 * k)) =
      .ofNat 32 ([Dm.store 2 r 10 DataAddr, Dm.nop, Dm.nop, Dm.nop].getD k 0)) :
    Through code data0 (L.entered.start 0x1b000348) (L.entered.start 0x1b000358) (some (L.core.reg r)) := by
  have h₀ : code 0x1b000348 = .ofNat 32 (Dm.store 2 r 10 DataAddr) := h 0 (by decide)
  have hline : Line haltAddress code 1 (L.entered.start 0x1b000348)
      ⟨L.entered.core, L.entered.csrs, 0x1b00034c, some (.sw 0x1b000380 (L.core.reg r)), true⟩ := by
    refine .step 0x1b000348 (.base (.sw r 10 0x380)) _ rfl rfl rfl (by rw [h₀]; exact decode_store hr) ?_ (.nil _)
    rw [← L.entered_address, ← L.entered_reg hne]
    rfl
  have hnops := line_nops (h 1 (by decide)) (h 2 (by decide)) (h 3 (by decide)) L.entered
  exact .store hline rfl rfl hnops

/-- s0 kept too. -/
def kept (L : Context) : Context :=
  ⟨L.entered.core, L.csrs.withScratch (L.core.reg 8) (L.core.reg 10)⟩

theorem kept_core (L : Context) (v : Word) :
    (L.kept.core.setReg 8 v).setReg 8 (L.core.reg 8) = L.kept.core := by
  have hreg : L.core.reg 8 = L.kept.core.reg 8 := (L.entered_reg (by decide)).symm
  rw [Rv32.Hart.setReg_setReg, hreg, Rv32.Hart.setReg_reg]

/-- s0 saved before the transfer of a register that has to go by way of it. -/
theorem line_keep (h₀ : code 0x1b000348 = .ofNat 32 (Dm.csrw CSR_DSCRATCH0 8)) :
    Line haltAddress code 1 (L.entered.start 0x1b000348) (L.kept.start 0x1b00034c) := by
  refine .step 0x1b000348 (.csrrw 0 8 0x7b2) _ rfl rfl rfl
    (by rw [h₀]; exact decode_csrw (by decide)) ?_ (.nil _)
  simp [Hart.exec, Hart.setReg, start, kept, L.entered_reg]
  rfl

/-- s0 restored after it. -/
theorem line_restore {csrs : CsRegisters} (hcsrs : csrs.dscratch0 = L.core.reg 8) (v : Word)
    (h₃ : code 0x1b000354 = .ofNat 32 (Dm.csrr CSR_DSCRATCH0 8)) :
    Line haltAddress code 1 (start ⟨L.kept.core.setReg 8 v, csrs⟩ 0x1b000354)
      (start ⟨L.kept.core, csrs⟩ 0x1b000358) := by
  refine .step 0x1b000354 (.csrrs 8 0 0x7b2) _ rfl rfl rfl
    (by rw [h₃]; exact decode_csrr (by decide)) ?_ (.nil _)
  have hcore := L.kept_core v
  rw [← hcsrs] at hcore
  simp [Hart.exec, Hart.setReg, start, hcore]

/-- data0 to a control and status register, or to the one that a0 is taken from. -/
theorem through_loadCsr (hcsr : csr < 2 ^ 12) (hne : csr ≠ CSR_DSCRATCH0)
    (h : ∀ k < 4, code (.ofNat 32 (0x1b000348 + 4 * k)) = .ofNat 32
      ([Dm.csrw CSR_DSCRATCH0 8, Dm.load 2 8 10 DataAddr, Dm.csrw csr 8, Dm.csrr CSR_DSCRATCH0 8].getD k 0)) :
    Through code data0 (L.entered.start 0x1b000348)
      (start ⟨L.kept.core, L.kept.csrs.write csr data0⟩ 0x1b000358) none := by
  have h₁ : code 0x1b00034c = .ofNat 32 (Dm.load 2 8 10 DataAddr) := h 1 (by decide)
  have h₂ : code 0x1b000350 = .ofNat 32 (Dm.csrw csr 8) := h 2 (by decide)
  have hload : Line haltAddress code 1 (L.kept.start 0x1b00034c)
      ⟨L.kept.core, L.kept.csrs, 0x1b000350, some (.lw 8 0x1b000380), true⟩ := by
    refine .step 0x1b00034c (.base (.lw 8 10 0x380)) _ rfl rfl rfl
      (by rw [h₁]; exact decode_load (by decide)) ?_ (.nil _)
    rw [← L.entered_address]
    rfl
  have hwrite : Line haltAddress code 1 (start ⟨L.kept.core.setReg 8 data0, L.kept.csrs⟩ 0x1b000350)
      (start ⟨L.kept.core.setReg 8 data0, L.kept.csrs.write csr data0⟩ 0x1b000354) := by
    refine .step 0x1b000350 (.csrrw 0 8 csr) _ rfl rfl rfl (by rw [h₂]; exact decode_csrw hcsr) ?_ (.nil _)
    simp [Hart.exec, Hart.setReg, start, Rv32.Hart.reg_setReg]
  have hscratch : (L.kept.csrs.write csr data0).dscratch0 = L.core.reg 8 := dscratch0_write _ _ hne
  obtain ⟨k, hk⟩ := hwrite.trans (line_restore hscratch data0 (h 3 (by decide)))
  exact .before (line_keep (h 0 (by decide))) (.load hload rfl rfl hk)

/-- A control and status register, or the one that a0 is in, to data0. It is written back. -/
theorem through_storeCsr (hcsr : csr < 2 ^ 12) (hne : csr ≠ CSR_DSCRATCH0)
    (h : ∀ k < 4, code (.ofNat 32 (0x1b000348 + 4 * k)) = .ofNat 32
      ([Dm.csrw CSR_DSCRATCH0 8, Dm.csrr csr 8, Dm.store 2 8 10 DataAddr, Dm.csrr CSR_DSCRATCH0 8].getD k 0)) :
    Through code data0 (L.entered.start 0x1b000348)
      (start ⟨L.kept.core, L.kept.csrs.write csr (L.kept.csrs.read csr)⟩ 0x1b000358)
      (some (L.kept.csrs.read csr)) := by
  have h₁ : code 0x1b00034c = .ofNat 32 (Dm.csrr csr 8) := h 1 (by decide)
  have h₂ : code 0x1b000350 = .ofNat 32 (Dm.store 2 8 10 DataAddr) := h 2 (by decide)
  have hread : Line haltAddress code 1 (L.kept.start 0x1b00034c)
      (start ⟨L.kept.core.setReg 8 (L.kept.csrs.read csr), L.kept.csrs.write csr (L.kept.csrs.read csr)⟩
        0x1b000350) := by
    refine .step 0x1b00034c (.csrrs 8 0 csr) _ rfl rfl rfl (by rw [h₁]; exact decode_csrr hcsr) ?_ (.nil _)
    simp [Hart.exec, Hart.setReg, start]
  have hstore : Line haltAddress code 1
      (start ⟨L.kept.core.setReg 8 (L.kept.csrs.read csr), L.kept.csrs.write csr (L.kept.csrs.read csr)⟩ 0x1b000350)
      ⟨L.kept.core.setReg 8 (L.kept.csrs.read csr), L.kept.csrs.write csr (L.kept.csrs.read csr), 0x1b000354,
        some (.sw 0x1b000380 (L.kept.csrs.read csr)), true⟩ := by
    refine .step 0x1b000350 (.base (.sw 8 10 0x380)) _ rfl rfl rfl
      (by rw [h₂]; exact decode_store (by decide)) ?_ (.nil _)
    have haddress := L.entered_address
    simp [Hart.exec, start, Rv32.Hart.reg_setReg, Rv32.Hart.reg_setReg_of_ne, kept] at haddress ⊢
    exact haddress
  have hscratch : (L.kept.csrs.write csr (L.kept.csrs.read csr)).dscratch0 = L.core.reg 8 :=
    dscratch0_write _ _ hne
  have hrestore := line_restore hscratch (L.kept.csrs.read csr) (h 3 (by decide))
  exact .before (line_keep (h 0 (by decide))) (.before hread (.store hstore rfl rfl hrestore))

/-! ### The transfer of a register -/

theorem same_kept (L : Context) : Same L ⟨L.core, L.kept.csrs⟩ := ⟨rfl, _, _, rfl⟩

/-- The general registers after the last two instructions. -/
theorem entered_left (L : Context) (v : Word) : L.entered.core.setReg 10 v = L.core.setReg 10 v :=
  Rv32.Hart.setReg_setReg ..

theorem entered_left_a0 (L : Context) : L.entered.core.setReg 10 (L.core.reg 10) = L.core := by
  rw [entered_left, Rv32.Hart.setReg_reg]

theorem entered_left_of_ne (L : Context) (hne : r ≠ 10) (v : Word) :
    (L.entered.core.setReg r v).setReg 10 (L.core.reg 10) = L.core.setReg r v := by
  have hreg : L.core.reg 10 = (L.core.setReg r v).reg 10 := (Rv32.Hart.reg_setReg_of_ne hne.symm ..).symm
  rw [entered, Rv32.Hart.setReg_comm hne.symm, Rv32.Hart.setReg_setReg, hreg, Rv32.Hart.setReg_reg]

/-- What a transfer leaves to the last two instructions. -/
structure Transferred (code : Word → Word) (L : Context) (d d' : Debuggee) (M : Context) (out : Option Word) :
    Prop where
  through : Through code (d.data 0) (L.entered.start 0x1b000348) (M.start 0x1b000358) out
  same : Same d'.context M.left
  data : d'.data = out.elim d.data (Function.update d.data 0)
  progbuf : d'.progbuf = d.progbuf
  resumes : d'.resumes = d.resumes

variable {d d' : Debuggee} {w : Word}

/-- data0 to a general register. -/
theorem transferred_writeReg (hs : Same d.context L) (hsize : Dm.aarsize w = 2) (hwrite : Dm.write w = true)
    (hgpr : Dm.regno w / 2 ^ 5 = 0x1000 / 2 ^ 5)
    (h : ∀ k < 4, code (.ofNat 32 (0x1b000348 + 4 * k)) = .ofNat 32 ((Dm.transferCode w).getD k 0)) :
    ∃ M out, Transferred code L d
      { d with context.core := d.context.core.setReg (Dm.regno w % 2 ^ 5) (d.data 0) } M out := by
  have h12 : Dm.regno w / 2 ^ 12 % 2 = 1 := by omega
  have h5 : Dm.regno w / 2 ^ 5 % 2 = 0 := by omega
  have hreg := hs.setReg (Dm.regno w % 2 ^ 5) (d.data 0)
  by_cases hr : Dm.regno w % 2 ^ 5 = 10
  · have hcode : Dm.transferCode w = [Dm.csrw CSR_DSCRATCH0 8, Dm.load 2 8 10 DataAddr, Dm.csrw CSR_DSCRATCH1 8,
        Dm.csrr CSR_DSCRATCH0 8] := by
      rw [Dm.transferCode, if_pos hwrite, if_pos ⟨h12, h5, hr⟩, hsize]
    rw [hcode] at h
    refine ⟨_, _, through_loadCsr (by decide) (by decide) h, hreg.trans ⟨?_, _, _, rfl⟩, rfl, rfl, rfl⟩
    have hcore : L.kept.core.setReg 10 (d.data 0) = L.core.setReg 10 (d.data 0) := L.entered_left _
    change L.kept.core.setReg 10 (d.data 0) = _
    rw [hcore, hr]
    rfl
  · have hcode : Dm.transferCode w = [Dm.load 2 (Dm.regno w % 2 ^ 5) 10 DataAddr, Dm.nop, Dm.nop, Dm.nop] := by
      rw [Dm.transferCode, if_pos hwrite, if_neg (fun hc => hr hc.2.2), if_pos h12, if_neg (by omega), hsize]
    rw [hcode] at h
    refine ⟨_, _, through_load (Nat.mod_lt _ (by decide)) h, hreg.trans ⟨?_, _, _, rfl⟩, rfl, rfl, rfl⟩
    have hcore := L.entered_left_of_ne hr (d.data 0)
    change (L.entered.core.setReg (Dm.regno w % 2 ^ 5) (d.data 0)).setReg 10 (L.core.reg 10) =
      (L.core.setReg (Dm.regno w % 2 ^ 5) (d.data 0)).withMem
        ((L.entered.core.setReg (Dm.regno w % 2 ^ 5) (d.data 0)).setReg 10 (L.core.reg 10)).mem
    rw [hcore]
    rfl

/-- A general register to data0. -/
theorem transferred_readReg (hs : Same d.context L) (hsize : Dm.aarsize w = 2) (hwrite : ¬ Dm.write w = true)
    (hgpr : Dm.regno w / 2 ^ 5 = 0x1000 / 2 ^ 5)
    (h : ∀ k < 4, code (.ofNat 32 (0x1b000348 + 4 * k)) = .ofNat 32 ((Dm.transferCode w).getD k 0)) :
    ∃ M out, Transferred code L d (d.moved (d.context.core.reg (Dm.regno w % 2 ^ 5))) M out := by
  have h12 : Dm.regno w / 2 ^ 12 % 2 = 1 := by omega
  have h5 : Dm.regno w / 2 ^ 5 % 2 = 0 := by omega
  have hreg := hs.reg (Dm.regno w % 2 ^ 5)
  have hcore : L.entered.core.setReg 10 (L.core.reg 10) = L.core := L.entered_left_a0
  by_cases hr : Dm.regno w % 2 ^ 5 = 10
  · have hcode : Dm.transferCode w = [Dm.csrw CSR_DSCRATCH0 8, Dm.csrr CSR_DSCRATCH1 8, Dm.store 2 8 10 DataAddr,
        Dm.csrr CSR_DSCRATCH0 8] := by
      rw [Dm.transferCode, if_neg hwrite, if_pos ⟨h12, h5, hr⟩, hsize]
    rw [hcode] at h
    refine ⟨_, _, through_storeCsr (by decide) (by decide) h, hs.trans ⟨?_, _, _, rfl⟩, ?_, rfl, rfl⟩
    · change L.entered.core.setReg 10 (L.core.reg 10) = _
      rw [hcore]
      rfl
    · rw [← hreg, hr]
      rfl
  · have hcode : Dm.transferCode w = [Dm.store 2 (Dm.regno w % 2 ^ 5) 10 DataAddr, Dm.nop, Dm.nop, Dm.nop] := by
      rw [Dm.transferCode, if_neg hwrite, if_neg (fun hc => hr hc.2.2), if_pos h12, if_neg (by omega), hsize]
    rw [hcode] at h
    refine ⟨_, _, through_store (Nat.mod_lt _ (by decide)) hr h, hs.trans ⟨?_, _, _, rfl⟩, ?_, rfl, rfl⟩
    · change L.entered.core.setReg 10 (L.core.reg 10) = _
      rw [hcore]
      rfl
    · rw [Option.elim_some, hreg]
      rfl

/-- A control and status register, and the scratch registers as the transfer leaves them. -/
theorem same_write (hs : Same d.context L) (hscratch : ¬ isScratch (Dm.regno w)) (v : Word) :
    Same ⟨d.context.core, d.context.csrs.write (Dm.regno w) v⟩
      (left ⟨L.kept.core, L.kept.csrs.write (Dm.regno w) v⟩) := by
  have hkept := (hs.trans L.same_kept).write hscratch v
  have hne : Dm.regno w ≠ CSR_DSCRATCH1 := fun hc => hscratch (Or.inr hc)
  have hcore : L.kept.core.setReg 10 (L.core.reg 10) = L.core := L.entered_left_a0
  have hdscratch1 : (L.kept.csrs.write (Dm.regno w) v).dscratch1 = L.core.reg 10 := dscratch1_write _ _ hne
  refine ⟨?_, hkept.csrs⟩
  rw [left, hdscratch1, hcore]
  exact hs.core

/-- A control and status register. -/
theorem transferred_csr (hs : Same d.context L) (hsize : Dm.aarsize w = 2)
    (hcsr : Dm.regno w < 2 ^ 12) (hscratch : ¬ isScratch (Dm.regno w))
    (h : ∀ k < 4, code (.ofNat 32 (0x1b000348 + 4 * k)) = .ofNat 32 ((Dm.transferCode w).getD k 0)) :
    ∃ M out, Transferred code L d
      (if Dm.write w then { d with context.csrs := d.context.csrs.write (Dm.regno w) (d.data 0) }
        else { d.moved (d.context.csrs.read (Dm.regno w)) with
          context.csrs := d.context.csrs.write (Dm.regno w) (d.context.csrs.read (Dm.regno w)) }) M out := by
  have hne : Dm.regno w ≠ CSR_DSCRATCH0 := fun hc => hscratch (Or.inl hc)
  have h12 : ¬ Dm.regno w / 2 ^ 12 % 2 = 1 := by omega
  have hmod : Dm.regno w % 2 ^ 12 = Dm.regno w := Nat.mod_eq_of_lt hcsr
  by_cases hwrite : Dm.write w = true
  · have hcode : Dm.transferCode w = [Dm.csrw CSR_DSCRATCH0 8, Dm.load 2 8 10 DataAddr, Dm.csrw (Dm.regno w) 8,
        Dm.csrr CSR_DSCRATCH0 8] := by
      rw [Dm.transferCode, if_pos hwrite, if_neg (fun hc => h12 hc.1), if_neg h12, hsize, hmod]
    rw [hcode] at h
    rw [if_pos hwrite]
    exact ⟨_, _, through_loadCsr hcsr hne h, same_write hs hscratch _, rfl, rfl, rfl⟩
  · have hcode : Dm.transferCode w = [Dm.csrw CSR_DSCRATCH0 8, Dm.csrr (Dm.regno w) 8, Dm.store 2 8 10 DataAddr,
        Dm.csrr CSR_DSCRATCH0 8] := by
      rw [Dm.transferCode, if_neg hwrite, if_neg (fun hc => h12 hc.1), if_neg h12, hsize, hmod]
    have hread : L.kept.csrs.read (Dm.regno w) = d.context.csrs.read (Dm.regno w) :=
      (hs.trans L.same_kept).read hscratch
    rw [hcode] at h
    rw [if_neg hwrite, ← hread]
    exact ⟨_, _, through_storeCsr hcsr hne h, same_write hs hscratch _, rfl, rfl, rfl⟩

/-- **The code of a transfer does it.** -/
theorem transferred (hd : d.transfer w = some d') (hs : Same d.context L)
    (h : ∀ k < 4, code (.ofNat 32 (0x1b000348 + 4 * k)) = .ofNat 32 ((Dm.transferCode w).getD k 0)) :
    ∃ M out, Transferred code L d d' M out := by
  rw [Debuggee.transfer] at hd
  simp only [ne_eq, ite_not] at hd
  split_ifs at hd with hsize hgpr hwrite hcsr hwrite
  · obtain rfl := Option.some.inj hd
    exact transferred_writeReg hs hsize hwrite hgpr h
  · obtain rfl := Option.some.inj hd
    exact transferred_readReg hs hsize hwrite hgpr h
  · obtain rfl := Option.some.inj hd
    have ht := transferred_csr hs hsize hcsr.1 hcsr.2.1 h
    rwa [if_pos hwrite] at ht
  · obtain rfl := Option.some.inj hd
    have ht := transferred_csr hs hsize hcsr.1 hcsr.2.1 h
    rwa [if_neg hwrite] at ht

end Context

/-! ### The code of a command -/

/-- What is fetched while a command is executed. -/
def commandCode (cmd : Word) (progbuf : ℕ → Word) (a : Word) : Word :=
  let adr := a.toNat % 2 ^ 12
  if ¬ inPage a then 0
  else if HaltAddress ≤ adr then .ofNat 32 (debugRom.getD (a.toNat % 2 ^ 8 / 4) 0)
  else if adr = WhereTo then
    .ofNat 32 <|
      if Dm.cmdtype cmd = Dm.AccessRegister ∧ Dm.transfer cmd = false ∧ Dm.postexec cmd = true then
        Dm.jal 0 (ProgBufBase - WhereTo)
      else Dm.jal 0 (AbstractCmdBase - WhereTo)
  else if ProgBufBase ≤ adr ∧ adr ≤ ProgBufEnd then progbuf ((adr - ProgBufBase) / 4)
  else if AbstractCmdBase ≤ adr ∧ adr ≤ AbstractCmdEnd then
    .ofNat 32 ((Dm.abstractCmd cmd).getD ((adr - AbstractCmdBase) / 4) 0)
  else 0

section

variable (cmd : Word) (progbuf : ℕ → Word)

/-- The debug ROM is there. -/
theorem commandCode_rom {a : Word} (h : (decode (romCode a).toNat).isSome = true) :
    commandCode cmd progbuf a = romCode a := by
  have hin : inPage a ∧ HaltAddress ≤ a.toNat % 2 ^ 12 := by
    by_contra hin
    rw [romCode, if_neg hin] at h
    exact absurd h (by decide)
  rw [commandCode, romCode, if_pos hin, if_neg (not_not.mpr hin.1), if_pos hin.2]

theorem commandCode_whereTo : commandCode cmd progbuf 0x1b000300 =
    .ofNat 32 (if Dm.cmdtype cmd = Dm.AccessRegister ∧ Dm.transfer cmd = false ∧ Dm.postexec cmd = true then
      Dm.jal 0 (ProgBufBase - WhereTo) else Dm.jal 0 (AbstractCmdBase - WhereTo)) := by
  rw [commandCode]
  rfl

/-- The instructions of the command. -/
theorem commandCode_cmd {k : ℕ} (hk : k < 10) : commandCode cmd progbuf (.ofNat 32 (0x1b000338 + 4 * k)) =
    .ofNat 32 ((Dm.abstractCmd cmd).getD k 0) := by
  have ha : (BitVec.ofNat 32 (0x1b000338 + 4 * k)).toNat = 0x1b000338 + 4 * k := by
    rw [BitVec.toNat_ofNat]
    omega
  have hadr : (0x1b000338 + 4 * k) % 2 ^ 12 = 0x338 + 4 * k := by omega
  have hin : inPage (.ofNat 32 (0x1b000338 + 4 * k)) := by
    have hbase : base.toNat / 2 ^ 12 = 0x1b000 := rfl
    rw [inPage, ha, hbase]
    omega
  have hindex : (0x338 + 4 * k - 0x338) / 4 = k := by omega
  simp only [commandCode, ha, hadr, HaltAddress, WhereTo, ProgBufBase, ProgBufEnd, AbstractCmdBase, AbstractCmdEnd]
  rw [if_neg (not_not.mpr hin), if_neg (by omega), if_neg (by omega), if_neg (by omega), if_pos (by omega), hindex]

/-- The program buffer. -/
theorem commandCode_progbuf {k : ℕ} (hk : k < 8) :
    commandCode cmd progbuf (0x1b000360 + .ofNat 32 (4 * k)) = progbuf k := by
  have ha : ((0x1b000360 : Word) + .ofNat 32 (4 * k)).toNat = 0x1b000360 + 4 * k := by
    rw [BitVec.toNat_add, BitVec.toNat_ofNat]
    change (0x1b000360 + 4 * k % 2 ^ 32) % 2 ^ 32 = _
    omega
  have hadr : (0x1b000360 + 4 * k) % 2 ^ 12 = 0x360 + 4 * k := by omega
  have hin : inPage (0x1b000360 + .ofNat 32 (4 * k)) := by
    have hbase : base.toNat / 2 ^ 12 = 0x1b000 := rfl
    rw [inPage, ha, hbase]
    omega
  have hindex : (0x360 + 4 * k - 0x360) / 4 = k := by omega
  simp only [commandCode, ha, hadr, HaltAddress, WhereTo, ProgBufBase, ProgBufEnd]
  rw [if_neg (not_not.mpr hin), if_neg (by omega), if_neg (by omega), if_pos (by omega), hindex]

end

namespace Context

variable {L : Context} {d d' : Debuggee} {w : Word}

/-- Where a command ends. -/
structure Ends (L : Context) (d d' : Debuggee) (w : Word) (pc : Word) (L' : Context) (out : Option Word) : Prop where
  through : Through (commandCode w d.progbuf) (d.data 0) (L.start pc) (L'.start haltAddress) out
  same : Same d'.context L'
  data : d'.data = out.elim d.data (Function.update d.data 0)
  progbuf : d'.progbuf = d.progbuf
  resumes : d'.resumes = d.resumes

/-- The program buffer. -/
theorem line_exec (hd : d.exec = some d') (hs : Same d.context L) (w : Word) :
    ∃ n L', Line haltAddress (commandCode w d.progbuf) n (L.start 0x1b000360) (L'.start haltAddress) ∧
      Same d'.context L' ∧ d'.data = d.data ∧ d'.progbuf = d.progbuf ∧ d'.resumes = d.resumes := by
  obtain ⟨core, hcore, rfl⟩ := Option.map_eq_some_iff.mp hd
  have hrun := runProgram_withMem hcore L.core.mem
  rw [← hs.core] at hrun
  have hcode : ∀ k (hk : k < ((List.range DmRegs.ProgBufSize).map d.progbuf).length),
      commandCode w d.progbuf (0x1b000360 + .ofNat 32 (4 * k)) =
        ((List.range DmRegs.ProgBufSize).map d.progbuf)[k] := by
    intro k hk
    have hk' : k < 8 := by simpa [DmRegs.ProgBufSize] using hk
    rw [commandCode_progbuf w d.progbuf hk']
    simp
  obtain ⟨n, hn⟩ : ∃ n, Line haltAddress (commandCode w d.progbuf) n (L.start 0x1b000360)
      (start ⟨core.withMem L.core.mem, L.csrs⟩ haltAddress) := Line.program hrun hcode L.csrs
  exact ⟨n, ⟨core.withMem L.core.mem, L.csrs⟩, hn, ⟨rfl, hs.csrs⟩, rfl, rfl, rfl⟩

/-- A transfer has four instructions. -/
theorem length_transferCode (w : Word) : (Dm.transferCode w).length = 4 := by
  rw [Dm.transferCode]
  split_ifs <;> rfl

/-- The instructions of a command that moves a register. -/
theorem abstractCmd_eq (hun : ¬ Dm.unsupported w) (htr : Dm.transfers w) :
    Dm.abstractCmd w = [Dm.csrw CSR_DSCRATCH1 10, Dm.auipc 10, Dm.srli 10 10 12, Dm.slli 10 10 12] ++
      (Dm.transferCode w ++ [Dm.csrr CSR_DSCRATCH1 10, if Dm.postexec w = true then Dm.nop else Dm.ebreak]) := by
  simp [Dm.abstractCmd, hun, htr]

section

variable (w : Word) (progbuf : ℕ → Word) (hun : ¬ Dm.unsupported w) (htr : Dm.transfers w)

include hun htr

theorem prologue_code : ∀ k < 4, commandCode w progbuf (.ofNat 32 (0x1b000338 + 4 * k)) =
    .ofNat 32 ([Dm.csrw CSR_DSCRATCH1 10, Dm.auipc 10, Dm.srli 10 10 12, Dm.slli 10 10 12].getD k 0) := by
  intro k hk
  rw [commandCode_cmd w progbuf (by omega), abstractCmd_eq hun htr, List.getD_append _ _ _ _ hk]

theorem transfer_code : ∀ k < 4, commandCode w progbuf (.ofNat 32 (0x1b000348 + 4 * k)) =
    .ofNat 32 ((Dm.transferCode w).getD k 0) := by
  intro k hk
  have ha : 0x1b000348 + 4 * k = 0x1b000338 + 4 * (k + 4) := by omega
  rw [ha, commandCode_cmd w progbuf (by omega), abstractCmd_eq hun htr,
    List.getD_append_right _ _ _ _ (Nat.le_add_left 4 k)]
  rw [List.getD_append _ _ _ _ (by simp only [length_transferCode, List.length_cons, List.length_nil]; omega)]
  simp

theorem epilogue_code : ∀ k < 2, commandCode w progbuf (.ofNat 32 (0x1b000358 + 4 * k)) =
    .ofNat 32 ([Dm.csrr CSR_DSCRATCH1 10, if Dm.postexec w = true then Dm.nop else Dm.ebreak].getD k 0) := by
  intro k hk
  have ha : 0x1b000358 + 4 * k = 0x1b000338 + 4 * (k + 8) := by omega
  rw [ha, commandCode_cmd w progbuf (by omega), abstractCmd_eq hun htr,
    List.getD_append_right _ _ _ _ (by simp)]
  rw [List.getD_append_right _ _ _ _ (by simp [length_transferCode])]
  simp [length_transferCode]

end

/-- A command that moves a register. -/
theorem ends_transfer {d₁ : Debuggee} (hun : ¬ Dm.unsupported w) (htr : Dm.transfers w) (hd : d.transfer w = some d₁)
    (hd' : (if Dm.postexec w = true then d₁.exec else some d₁) = some d') (hs : Same d.context L) :
    ∃ L' out, Ends L d d' w 0x1b000300 L' out := by
  obtain ⟨M, out, ht⟩ := transferred hd hs (transfer_code w d.progbuf hun htr)
  have hjal : Line haltAddress (commandCode w d.progbuf) 1 (L.start 0x1b000300) (L.start 0x1b000338) := by
    have htr' : ¬ (Dm.cmdtype w = Dm.AccessRegister ∧ Dm.transfer w = false ∧ Dm.postexec w = true) := by
      intro h
      exact absurd (htr.2.symm.trans h.2.1) (by decide)
    have hcode := commandCode_whereTo w d.progbuf
    rw [if_neg htr'] at hcode
    exact .cons 0x1b000300 (.jal 0 56) rfl rfl rfl (by rw [hcode]; decide) (.nil _)
  have hpre := line_prologue (prologue_code w d.progbuf hun htr) (L := L)
  have hbegin : Through (commandCode w d.progbuf) (d.data 0) (L.start 0x1b000300) (M.start 0x1b000358) out :=
    .before hjal (.before hpre ht.through)
  have hepilogue := epilogue_code w d.progbuf hun htr
  by_cases hpost : Dm.postexec w = true
  · rw [if_pos hpost] at hd' hepilogue
    have hend : Line haltAddress (commandCode w d.progbuf) 2 (M.start 0x1b000358) (M.left.start 0x1b000360) :=
      line_epilogue hepilogue (i := .base (.addi 0 0 0)) (by decide) rfl
    obtain ⟨n, L', hexec, hsame, hdata, hprogbuf, hresumes⟩ := line_exec hd' ht.same w
    rw [ht.progbuf] at hexec
    exact ⟨L', out, (hbegin.after hend).after hexec, hsame, hdata.trans ht.data, hprogbuf.trans ht.progbuf,
      hresumes.trans ht.resumes⟩
  · rw [if_neg hpost] at hd' hepilogue
    obtain rfl := Option.some.inj hd'
    have hend : Line haltAddress (commandCode w d.progbuf) 2 (M.start 0x1b000358) (M.left.start haltAddress) :=
      line_epilogue hepilogue (i := .ebreak) (by decide) rfl
    exact ⟨M.left, out, hbegin.after hend, ht.same, ht.data, ht.progbuf, ht.resumes⟩

/-- **The code of a command does what the debugger is told it does.** -/
theorem ends_command (hd : d.command w = some d') (hs : Same d.context L) :
    ∃ L' out, Ends L d d' w 0x1b000300 L' out := by
  have hleft : ¬ (Dm.cmdtype w ≠ Dm.AccessRegister ∨ Dm.aarpostincrement w = true) := by
    intro hleft
    rw [Debuggee.command, if_pos hleft] at hd
    cases hd
  rw [Debuggee.command, if_neg hleft] at hd
  have hleft' := not_or.mp hleft
  by_cases htransfer : Dm.transfer w = true
  · rw [if_pos htransfer] at hd
    obtain ⟨d₁, hd₁, hd'⟩ := Option.bind_eq_some_iff.mp hd
    have hsize : Dm.aarsize w = 2 ∧ Dm.regno w / 2 ^ 14 = 0 := by
      rw [Debuggee.transfer] at hd₁
      simp only [ne_eq, ite_not] at hd₁
      split_ifs at hd₁ with hsize hgpr hwrite hcsr hwrite <;> exact ⟨hsize, by omega⟩
    have htr : Dm.transfers w := ⟨by rw [hsize.1]; decide, htransfer⟩
    refine ends_transfer ?_ htr hd₁ hd' hs
    rintro (htype | hun)
    · exact hleft'.1 htype
    · rw [if_pos htr] at hun
      exact hun hsize.2
  · rw [if_neg htransfer] at hd
    have hexec : Dm.postexec w = true ∧ Dm.aarsize w < Dm.MaxAar := by
      by_contra hexec
      rw [if_neg hexec] at hd
      cases hd
    rw [if_pos hexec] at hd
    have hjal : Line haltAddress (commandCode w d.progbuf) 1 (L.start 0x1b000300) (L.start 0x1b000360) := by
      have htr : Dm.cmdtype w = Dm.AccessRegister ∧ Dm.transfer w = false ∧ Dm.postexec w = true :=
        ⟨not_not.mp hleft'.1, by simpa using htransfer, hexec.1⟩
      have hcode := commandCode_whereTo w d.progbuf
      rw [if_pos htr] at hcode
      exact .cons 0x1b000300 (.jal 0 96) rfl rfl rfl (by rw [hcode]; decide) (.nil _)
    obtain ⟨n, L', hline, hsame, hdata, hprogbuf, hresumes⟩ := line_exec hd hs w
    obtain ⟨k, hk⟩ := hjal.trans hline
    exact ⟨L', none, .line hk, hsame, hdata, hprogbuf, hresumes⟩

end Context

end PyOcdRiscv.Target
