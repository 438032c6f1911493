import PyOcdRiscv.Ocd.Apb
import PyOcdRiscv.Jtag.EngineCall

/-!
# Requests as scans

The layer of `PulpOCD` and `ReveOCD` that talks to the engine: `write_ir` as
`__init__` chooses it, the selection of an instruction, `writeapb` and `readapb`.
The two classes differ in the width of the DMI register and in the idle cycles
they leave (`Dmi`); `Dmi.call` is what a call from the upper layer is written as.
-/

namespace PyOcdRiscv.Ocd

open Lib Jtag

/-- The attributes that are set by `__init__` and by the class, and do not change. -/
structure Dmi where
  /-- `self._irlen`. -/
  irlen : ℕ
  /-- `engine._ctrl.virtual`, if the controller has the attribute. -/
  virtual : Option Bool
  /-- The width of the DMI register. -/
  width : ℕ
  /-- How `writeapb` ends: how many times how many cycles in Run-Test/Idle, if it goes
  there at all. -/
  writeIdle : Option (ℕ × ℕ)
  /-- How many times how many cycles `readapb` waits before it reads. -/
  readIdle : ℕ × ℕ
  deriving DecidableEq, Repr

/-- `PulpOCD`. -/
def PulpOCD.dmi (irlen : ℕ) (virtual : Option Bool) : Dmi := ⟨irlen, virtual, 41, some (2, 5), (3, 7)⟩

/-- `ReveOCD`. -/
def ReveOCD.dmi (irlen : ℕ) (virtual : Option Bool) : Dmi := ⟨irlen, virtual, 50, none, (8, 7)⟩

/-- The request that `writeapb` writes. -/
def writeRequest (width : ℕ) (adr data : ℤ) : BitSequence :=
  BitSequence.ofInt (land adr 0xffff <<< 34 ||| land data 0xffffffff <<< 2 ||| 2) false width

/-- The request that `readapb` writes. -/
def readRequest (width : ℕ) (adr : ℤ) : BitSequence :=
  BitSequence.ofInt (land adr 0xffff <<< 34 ||| 1) false width

namespace Dmi

open Engine

variable (self : Dmi)

/-- `self.write_ir`: `write_vir` if the controller has an attribute `virtual`, whatever
its value, and `write_ir` otherwise. -/
def writeIr (instruction : BitSequence) : Prog Engine Unit :=
  if self.virtual.isSome then Engine.writeVir instruction else Engine.writeIr instruction

/-- `if self.currentir != ir: self.write_ir(..); self.currentir = ir`. -/
def selectIr (ir : ℕ) (currentir : Option ℕ) : Prog Engine (Option ℕ) :=
  if currentir ≠ some ir then do
    self.writeIr (BitSequence.ofInt ir false self.irlen)
    return some ir
  else return currentir

/-- `writeapb(adr, data)`. -/
def writeapb (adr data : ℤ) (currentir : Option ℕ) : Prog Engine (Option ℕ) := do
  let currentir ← self.selectIr 0x11 currentir
  Engine.writeDr (writeRequest self.width adr data)
  match self.writeIdle with
  | none => pure ()
  | some (n, k) => do
    goIdle
    idleCycles n k
  return currentir

/-- `readapb(adr)`. -/
def readapb (adr : ℤ) (currentir : Option ℕ) : Prog Engine (ℕ × Option ℕ) := do
  let currentir ← self.selectIr 0x11 currentir
  Engine.writeDr (readRequest self.width adr)
  goIdle
  idleCycles self.readIdle.1 self.readIdle.2
  let val ← readDr self.width
  return (land (val.toInt >>> 2 : ℕ) 0xffffffff, currentir)

/-- What a call from the upper layer is written as; `currentir` is the attribute that
changes. -/
def call : (o : ApbCall) → Option ℕ → Prog Engine (Apb.Res o × Option ℕ)
  | .writeapb adr data, currentir => do
    let currentir ← self.writeapb adr data currentir
    return ((), currentir)
  | .readapb adr, currentir => self.readapb adr currentir
  | .selectIr ir, currentir => do
    let currentir ← self.selectIr ir currentir
    return ((), currentir)
  | .writeDr data, currentir => do
    Engine.writeDr data
    return ((), currentir)
  | .goIdle, currentir => do
    goIdle
    return ((), currentir)
  | .writeTms out, currentir => do
    let _ ← Prog.op (I := Engine) (.writeTms out false)
    return ((), currentir)

end Dmi

end PyOcdRiscv.Ocd
