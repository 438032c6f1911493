import PyOcdRiscv.Lib.Prog
import PyOcdRiscv.Jtag.BitSequence

/-!
# What the DMI drivers call

`PulpOCD` and `ReveOCD` are written in two layers: `writeapb` and `readapb`, which
make DMI requests out of scans, and everything else, which calls those two and
now and then the engine. `Apb` is the interface between the layers.
-/

namespace PyOcdRiscv.Ocd

open Lib Jtag

/-- A call from a method of `PulpOCD` or `ReveOCD` to the layer below. -/
inductive ApbCall where
  /-- `self.writeapb(adr, data)`. -/
  | writeapb (adr data : ℤ)
  /-- `self.readapb(adr)`. -/
  | readapb (adr : ℤ)
  /-- `if self.currentir != ir: self.write_ir(ir); self.currentir = ir`. -/
  | selectIr (ir : ℕ)
  /-- `self._engine.write_dr(data)`. -/
  | writeDr (data : BitSequence)
  /-- `self._engine.go_idle()`. -/
  | goIdle
  /-- `self._engine.write_tms(out)`. -/
  | writeTms (out : BitSequence)

/-- The interface: `readapb` answers with the word it read. -/
abbrev Apb : Interface where
  Op := ApbCall
  Res
    | .readapb _ => ℕ
    | _ => Unit

namespace Apb

/-- `self.writeapb(adr, data)`. -/
def writeapb (adr data : ℤ) : Prog Apb Unit := Prog.op (I := Apb) (.writeapb adr data)

/-- `self.readapb(adr)`. -/
def readapb (adr : ℤ) : Prog Apb ℕ := Prog.op (I := Apb) (.readapb adr)

/-- The selection of an instruction that is skipped when it is already selected. -/
def selectIr (ir : ℕ) : Prog Apb Unit := Prog.op (I := Apb) (.selectIr ir)

/-- `self._engine.write_dr(data)`. -/
def writeDr (data : BitSequence) : Prog Apb Unit := Prog.op (I := Apb) (.writeDr data)

/-- `self._engine.go_idle()`. -/
def goIdle : Prog Apb Unit := Prog.op (I := Apb) .goIdle

/-- `for i in range(n): self._engine.write_tms(BitSequence(value=0, length=k))`. -/
def idleCycles : ℕ → ℕ → Prog Apb Unit
  | 0, _ => pure ()
  | n + 1, k => do
    Prog.op (I := Apb) (.writeTms (BitSequence.ofInt 0 false k))
    idleCycles n k

end Apb

end PyOcdRiscv.Ocd
