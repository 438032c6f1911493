import PyOcdRiscv.Lib.Prog
import PyOcdRiscv.Lib.Tap
import PyOcdRiscv.Jtag.BitSequence

/-!
# The calls on the engine

The methods of `JtagOCDEngine` (`dbgjtag.py`) that the drivers are written in, as an
interface. What they do to a port, edge by edge, is in `Jtag.Engine`; a driver's
own logic can be followed without it, scan by scan.
-/

namespace PyOcdRiscv.Jtag

open Lib

/-- A call on a `JtagOCDEngine`. -/
inductive EngineCall where
  /-- `change_state(statename)`. -/
  | changeState (statename : TapState)
  /-- `write_ir(instruction)`. -/
  | writeIr (instruction : BitSequence)
  /-- `write_dr(data)`. -/
  | writeDr (data : BitSequence)
  /-- `read_dr(length)`. -/
  | readDr (length : ℕ)
  /-- `readwrite_dr(out)`. -/
  | readwriteDr (out : BitSequence)
  /-- `write_vir(val)`. -/
  | writeVir (val : BitSequence)
  /-- `shift_register(out)`. -/
  | shiftRegister (out : BitSequence)
  /-- `write_tms(out, should_read)`. -/
  | writeTms (out : BitSequence) (shouldRead : Bool)
  /-- `reset()`. -/
  | reset
  deriving DecidableEq, Repr

/-- The interface of the engine. -/
abbrev Engine : Interface where
  Op := EngineCall
  Res
    | .readDr _ => BitSequence
    | .readwriteDr _ => ℕ
    | .shiftRegister _ => BitSequence
    | .writeTms _ _ => BitSequence
    | _ => Unit

namespace Engine

/-- `self.change_state(statename)`. -/
def changeState (statename : TapState) : Prog Engine Unit :=
  Prog.op (I := Engine) (.changeState statename)

/-- `self.go_idle()`. -/
def goIdle : Prog Engine Unit := changeState .runTestIdle

/-- `self.capture_ir()`. -/
def captureIr : Prog Engine Unit := changeState .captureIr

/-- `self.capture_dr()`. -/
def captureDr : Prog Engine Unit := changeState .captureDr

/-- `self.write_ir(instruction)`. -/
def writeIr (instruction : BitSequence) : Prog Engine Unit :=
  Prog.op (I := Engine) (.writeIr instruction)

/-- `self.write_dr(data)`. -/
def writeDr (data : BitSequence) : Prog Engine Unit := Prog.op (I := Engine) (.writeDr data)

/-- `self.read_dr(length)`. -/
def readDr (length : ℕ) : Prog Engine BitSequence := Prog.op (I := Engine) (.readDr length)

/-- `self.readwrite_dr(out)`. -/
def readwriteDr (out : BitSequence) : Prog Engine ℕ := Prog.op (I := Engine) (.readwriteDr out)

/-- `self.write_vir(val)`. -/
def writeVir (val : BitSequence) : Prog Engine Unit := Prog.op (I := Engine) (.writeVir val)

/-- `for i in range(n): self.write_tms(BitSequence(value=0, length=k))`. -/
def idleCycles : ℕ → ℕ → Prog Engine Unit
  | 0, _ => pure ()
  | n + 1, k => do
    let _ ← Prog.op (I := Engine) (.writeTms (BitSequence.ofInt 0 false k) false)
    idleCycles n k

end Engine

/-! ### The virtual JTAG instructions -/

/-- `VIR`: the data register is the virtual instruction register. -/
def VIR : ℕ := 0xE

/-- `VDR`: the data register is that of the virtual instruction. -/
def VDR : ℕ := 0xC

/-- What `write_vir(val)` loads: the instruction, and above it the address bit of the
node. -/
def virWord (val : BitSequence) : BitSequence :=
  BitSequence.ofInt (1 <<< val.length ||| val.toInt) false (val.length + 1)

theorem virWord_eq (val : BitSequence) : virWord val = val ++ [true] := by
  rw [virWord, BitSequence.ofInt_eq (Nat.succ_pos _), BitSequence.toInt_eq, Nat.lor_comm,
    lor_shiftLeft (value_lt val), bits_pack 1 1 (value_lt val), bits_value]
  rfl

end PyOcdRiscv.Jtag
