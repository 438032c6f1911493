import PyOcdRiscv.Lib.Rv32
import PyOcdRiscv.Ocd.Apb
import PyOcdRiscv.Ocd.DebugBus

/-!
# Halted harts

What the debug modules of Murax and Reve make of the drivers' calls while the hart is
halted: each injected instruction is run once, in the order of the calls. On Murax a
write of register 4 of the debug bus injects the word written, and a read of it returns
the result last written back. On Reve the word is put into the program buffer and run
by an abstract command, and registers are transferred through data0.
-/

namespace PyOcdRiscv.Target

open Lib Rv32 Ocd

/-- A halted hart. -/
structure Halted where
  /-- Its registers and memory. -/
  hart : Hart
  /-- The result last written back. -/
  writeBack : Word
  /-- An instruction raised an exception, or was none. -/
  trapped : Bool

/-- An injected instruction. -/
def Halted.inject (w : Word) (s : Halted) : Halted :=
  match Rv32.run w.toNat s.hart with
  | some (h, result) => { s with hart := h, writeBack := result.getD s.writeBack }
  | none => { s with trapped := true }

/-! ### Murax -/

/-- The debug bus of Murax. Of its other register, which no method reads, it is left open
what it returns. -/
def Halted.onDebugBus : (o : DebugCall) → Halted → DebugBus.Res o × Halted
  | .writecmd adr data _ write, s =>
    ((), if land adr 0xff / 4 = 1 ∧ write = 1 then s.inject (BitVec.ofInt 32 data) else s)
  | .readrsp adr, s => (if land adr 0xff / 4 = 1 then s.writeBack.toNat else 0, s)
  | .resetdm, s => ((), s)

/-! ### Reve -/

/-- The debug module of Reve (`riscv_i32_debug.v`). -/
structure ReveModule where
  /-- The hart. -/
  halted : Halted
  /-- `progbuf0`. -/
  progbuf0 : Word
  /-- `data0`. -/
  data0 : Word

namespace ReveModule

/-- The register transfer of an abstract command: bit 16 is set for a write, and the
general registers are numbered from 0x1000 on. -/
def transfer (w : ℕ) (s : ReveModule) : ReveModule :=
  if w % 2 ^ 16 / 2 ^ 5 ≠ 0x1000 / 2 ^ 5 then s
  else if w / 2 ^ 16 % 2 = 1 then
    { s with halted := { s.halted with hart := s.halted.hart.setReg (w % 2 ^ 5) s.data0 } }
  else { s with data0 := s.halted.hart.reg (w % 2 ^ 5) }

/-- An abstract command: of type 0 and size 2, else it is refused. Bit 17 is set for a
transfer, and bit 18 if the program buffer is to be run after it. -/
def command (w : ℕ) (s : ReveModule) : ReveModule :=
  if w / 2 ^ 24 % 2 ^ 8 ≠ 0 ∨ w / 2 ^ 20 % 2 ^ 3 ≠ 2 then s
  else
    let s := if w / 2 ^ 17 % 2 = 1 then s.transfer w else s
    if w / 2 ^ 18 % 2 = 1 then { s with halted := s.halted.inject s.progbuf0 } else s

/-- A call on it. -/
def onApb : (o : ApbCall) → ReveModule → Apb.Res o × ReveModule
  | .writeapb adr data, s =>
    ((), if land adr 0xffff = 0x20 then { s with progbuf0 := BitVec.ofInt 32 data }
      else if land adr 0xffff = 0x4 then { s with data0 := BitVec.ofInt 32 data }
      else if land adr 0xffff = 0x17 then s.command (BitVec.ofInt 32 data).toNat
      else s)
  | .readapb adr, s => (if land adr 0xffff = 0x4 then s.data0.toNat else 0, s)
  | .selectIr _, s => ((), s)
  | .writeDr _, s => ((), s)
  | .goIdle, s => ((), s)
  | .writeTms _, s => ((), s)

end ReveModule

end PyOcdRiscv.Target
