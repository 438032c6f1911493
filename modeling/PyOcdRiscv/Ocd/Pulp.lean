import PyOcdRiscv.Ocd.Apb
import PyOcdRiscv.Ocd.Words

/-!
# The Pulp driver

The methods of `PulpOCD` (`pulp/ocd.py`) above `writeapb` and `readapb`. Of the
object's attributes only `lastwradr` is read and written up here; a method that
changes it returns the new object. `Op` collects the calls a client can make.
-/

namespace PyOcdRiscv.Ocd

open Lib Jtag

/-- The attributes of a `PulpOCD` that its upper methods use. -/
structure PulpOCD where
  /-- The address of the last `writebus`, while the shortcut may be taken. -/
  lastwradr : Option ℤ
  deriving DecidableEq, Repr

namespace PulpOCD

open Apb

def DMCONTROLREG : ℤ := 0x10
def ABSTRACTCMDREG : ℤ := 0x17
def PROGBUFFERREG : ℤ := 0x20
def ABSTRACTDATAREG : ℤ := 0x4
def SYSTEMBUSCONTROLREG : ℤ := 0x38
def SYSTEMBUSADR0 : ℤ := 0x39
def SYSTEMBUSDATA0 : ℤ := 0x3c

def HALTREQBIT : ℕ := 31
def RESUMEREQBIT : ℕ := 30
def ACTIVEBIT : ℕ := 0
def POSTEXECBIT : ℕ := 18
def REGTRANSFERBIT : ℕ := 17
def REGWRITEBIT : ℕ := 16
def BUSREADONADDRBIT : ℕ := 20

def WORDSIZE : ℕ := 2 <<< 20

/-- `PulpOCD.__init__`. -/
def init : PulpOCD := ⟨none⟩

/-- `PulpOCD.resetdm`. -/
def resetdm : Prog Apb Unit := do
  selectIr 0x10
  writeDr (BitSequence.ofInt (3 <<< 16) false 32)
  goIdle
  writeDr (BitSequence.ofInt 0 false 32)
  goIdle
  writeapb DMCONTROLREG (1 <<< ACTIVEBIT : ℕ)
  goIdle

/-- `PulpOCD.pushins`. -/
def pushins (ins : ℕ) (pos : ℤ) (last : Bool) : Prog Apb Unit := do
  writeapb (PROGBUFFERREG + pos) ins
  if last then
    -- ebreak
    writeapb (PROGBUFFERREG + pos + 1) 0x00100073

/-- `PulpOCD.execins`. -/
def execins : Prog Apb Unit := writeapb ABSTRACTCMDREG (1 <<< POSTEXECBIT + WORDSIZE : ℕ)

/-- `PulpOCD.halt`. -/
def halt : Prog Apb Unit := do
  writeapb DMCONTROLREG (1 <<< HALTREQBIT + 1 <<< ACTIVEBIT : ℕ)
  goIdle
  writeapb DMCONTROLREG (0 <<< HALTREQBIT + 1 <<< ACTIVEBIT : ℕ)

/-- `PulpOCD.resume`. -/
def resume (self : PulpOCD) : Prog Apb PulpOCD := do
  writeapb DMCONTROLREG (1 <<< RESUMEREQBIT + 1 <<< ACTIVEBIT : ℕ)
  goIdle
  writeapb DMCONTROLREG (0 <<< RESUMEREQBIT + 1 <<< ACTIVEBIT : ℕ)
  return { self with lastwradr := none }

/-- `PulpOCD.readreg`. -/
def readreg (regnr : ℤ) : Prog Apb ℕ := do
  let debugregnr := regnr + 0x1000
  writeapb ABSTRACTCMDREG (debugregnr + WORDSIZE + (1 <<< REGTRANSFERBIT : ℕ))
  goIdle
  idleCycles 9 7
  readapb ABSTRACTDATAREG

/-- `data0` written, then an abstract command that writes register `debugregnr`: the
common body of `writereg` and `setpc`. -/
def writeDebugReg (debugregnr val : ℤ) : Prog Apb Unit := do
  writeapb ABSTRACTDATAREG val
  goIdle
  writeapb ABSTRACTCMDREG
    (debugregnr + (1 <<< REGWRITEBIT : ℕ) + (1 <<< REGTRANSFERBIT : ℕ) + WORDSIZE)

/-- `PulpOCD.writereg`. -/
def writereg (regnr val : ℤ) : Prog Apb Unit := writeDebugReg (regnr + 0x1000) val

/-- `PulpOCD.setpc`. -/
def setpc (val : ℤ) : Prog Apb Unit := writeDebugReg 0x7b1 val

/-- `PulpOCD.readbus`, which is `readmem`. -/
def readbus (adr : ℤ) : Prog Apb ℕ := do
  let WORDSIZE := 2
  writeapb SYSTEMBUSCONTROLREG (WORDSIZE <<< 17 + 1 <<< BUSREADONADDRBIT : ℕ)
  writeapb SYSTEMBUSADR0 adr
  goIdle
  idleCycles 9 7
  readapb SYSTEMBUSDATA0

/-- `PulpOCD.writebus`, which is `writemem`. -/
def writebus (self : PulpOCD) (adr val : ℤ) : Prog Apb PulpOCD := do
  let WORDSIZE := 2
  let AUTOINC := 16
  if self.lastwradr = none ∨ self.lastwradr ≠ some (adr - 4) then
    writeapb SYSTEMBUSCONTROLREG (WORDSIZE <<< 17 + 1 <<< AUTOINC : ℕ)
    writeapb SYSTEMBUSADR0 adr
  writeapb SYSTEMBUSDATA0 val
  return { self with lastwradr := some adr }

/-- `PulpOCD.setreg2`. -/
def setreg2 (regnr : ℕ) (val : ℤ) : Prog Apb Unit :=
  if inrange val 12 then do
    pushins (addiWord val 0 regnr) 0 true
    execins
  else do
    let val := luiCarry val
    pushins (luiWord val regnr) 0 false
    pushins (addiWord val regnr regnr) 1 true
    execins

/-- The calls a client makes on a `PulpOCD`. -/
inductive Op where
  | resetdm | halt | resume
  | readreg (regnr : ℤ) | writereg (regnr val : ℤ) | setreg2 (regnr : ℕ) (val : ℤ) | setpc (val : ℤ)
  | readbus (adr : ℤ) | writebus (adr val : ℤ)
  | writeapb (adr data : ℤ) | readapb (adr : ℤ)
  deriving DecidableEq, Repr

/-- What a call returns, if it returns a word, and the object after it. -/
def exec (self : PulpOCD) : Op → Prog Apb (Option ℕ × PulpOCD)
  | .resetdm => do resetdm; return (none, self)
  | .halt => do halt; return (none, self)
  | .resume => do let self ← resume self; return (none, self)
  | .readreg regnr => do let val ← readreg regnr; return (some val, self)
  | .writereg regnr val => do writereg regnr val; return (none, self)
  | .setreg2 regnr val => do setreg2 regnr val; return (none, self)
  | .setpc val => do setpc val; return (none, self)
  | .readbus adr => do let val ← readbus adr; return (some val, self)
  | .writebus adr val => do let self ← writebus self adr val; return (none, self)
  | .writeapb adr data => do Apb.writeapb adr data; return (none, self)
  | .readapb adr => do let val ← Apb.readapb adr; return (some val, self)

end PulpOCD

end PyOcdRiscv.Ocd
