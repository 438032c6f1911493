import PyOcdRiscv.Ocd.Apb
import PyOcdRiscv.Ocd.Words

/-!
# The Reve driver

The methods of `ReveOCD` (`reve/ocd.py`) above `writeapb` and `readapb`. There is no
system bus here: memory is accessed by instructions that the hart executes out of
the program buffer. `lastwradr` is read by `writemem`, but no method ever sets it to
an address.
-/

namespace PyOcdRiscv.Ocd

open Lib Jtag

/-- The attributes of a `ReveOCD` that its upper methods use. -/
structure ReveOCD where
  /-- The address in x2, if it is known. -/
  lastwradr : Option ℤ
  deriving DecidableEq, Repr

namespace ReveOCD

open Apb

def DMCONTROLREG : ℤ := 0x10
def ABSTRACTCMDREG : ℤ := 0x17
def PROGBUFFERREG : ℤ := 0x20
def ABSTRACTDATAREG : ℤ := 0x4

def HALTREQBIT : ℕ := 31
def RESUMEREQBIT : ℕ := 30
def ACTIVEBIT : ℕ := 0
def POSTEXECBIT : ℕ := 18
def REGTRANSFERBIT : ℕ := 17
def REGWRITEBIT : ℕ := 16

def WORDSIZE : ℕ := 2 <<< 20

/-- `ReveOCD.__init__`. -/
def init : ReveOCD := ⟨none⟩

/-- `ReveOCD.resetdm`. -/
def resetdm : Prog Apb Unit := do
  selectIr 0x10
  writeDr (BitSequence.ofInt (3 <<< 16) false 32)
  goIdle
  writeDr (BitSequence.ofInt 0 false 32)
  goIdle

/-- `ReveOCD.pushins`. -/
def pushins (ins : ℕ) : Prog Apb Unit := do
  writeapb PROGBUFFERREG ins
  writeapb ABSTRACTCMDREG (1 <<< POSTEXECBIT + WORDSIZE : ℕ)

/-- `ReveOCD.halt`. -/
def halt : Prog Apb Unit := do
  -- `+` binds tighter than `<<` here: the two bits are added before the shift by 0
  writeapb DMCONTROLREG ((1 <<< HALTREQBIT + 1) <<< ACTIVEBIT : ℕ)
  goIdle
  writeapb DMCONTROLREG ((0 <<< HALTREQBIT + 1) <<< ACTIVEBIT : ℕ)

/-- `ReveOCD.resume`. -/
def resume (self : ReveOCD) : Prog Apb ReveOCD := do
  writeapb DMCONTROLREG ((1 <<< RESUMEREQBIT + 1) <<< ACTIVEBIT : ℕ)
  goIdle
  writeapb DMCONTROLREG ((0 <<< RESUMEREQBIT + 1) <<< ACTIVEBIT : ℕ)
  return { self with lastwradr := none }

/-- `ReveOCD.readreg`. -/
def readreg (regnr : ℤ) : Prog Apb ℕ := do
  let debugregnr := regnr + 0x1000
  writeapb ABSTRACTCMDREG (debugregnr + WORDSIZE + (1 <<< REGTRANSFERBIT : ℕ))
  goIdle
  readapb ABSTRACTDATAREG

/-- `ReveOCD.writereg`. -/
def writereg (regnr val : ℤ) : Prog Apb Unit := do
  let debugregnr := regnr + 0x1000
  writeapb ABSTRACTDATAREG val
  goIdle
  writeapb ABSTRACTCMDREG
    (debugregnr + (1 <<< REGWRITEBIT : ℕ) + (1 <<< REGTRANSFERBIT : ℕ) + WORDSIZE)

/-- A constant into a register: the lines that `setreg2`, `writemem` and `readmem` each
have a copy of. -/
def pushConst (regdst : ℕ) (val : ℤ) : Prog Apb Unit :=
  if inrange val 12 then pushins (addiWord val 0 regdst)
  else do
    let val := luiCarry val
    pushins (luiWord val regdst)
    pushins (addiWord val regdst regdst)

/-- `ReveOCD.setreg2`. -/
def setreg2 (regnr : ℕ) (val : ℤ) : Prog Apb Unit := pushConst regnr val

/-- `ReveOCD.writemem`. -/
def writemem (self : ReveOCD) (adr val : ℤ) : Prog Apb Unit := do
  pushConst 1 val
  match self.lastwradr with
  | some lastwradr =>
    if inrange (adr - lastwradr) 12 then pushins (swWord (adr - lastwradr))
    else do
      pushConst 2 adr
      pushins (swWord 0)
  | none => do
    pushConst 2 adr
    pushins (swWord 0)

/-- `ReveOCD.readmem`. -/
def readmem (adr : ℤ) : Prog Apb ℕ := do
  pushConst 1 adr
  pushins lwWord
  goIdle
  readreg 1

/-- `ReveOCD.setpc`. -/
def setpc (val : ℤ) : Prog Apb Unit := do
  writereg 1 val
  pushins jalrWord

/-- The calls a client makes on a `ReveOCD`. -/
inductive Op where
  | resetdm | halt | resume
  | readreg (regnr : ℤ) | writereg (regnr val : ℤ) | setreg2 (regnr : ℕ) (val : ℤ) | setpc (val : ℤ)
  | readmem (adr : ℤ) | writemem (adr val : ℤ)
  | writeapb (adr data : ℤ) | readapb (adr : ℤ)
  deriving DecidableEq, Repr

/-- What a call returns, if it returns a word, and the object after it. -/
def exec (self : ReveOCD) : Op → Prog Apb (Option ℕ × ReveOCD)
  | .resetdm => do resetdm; return (none, self)
  | .halt => do halt; return (none, self)
  | .resume => do let self ← resume self; return (none, self)
  | .readreg regnr => do let val ← readreg regnr; return (some val, self)
  | .writereg regnr val => do writereg regnr val; return (none, self)
  | .setreg2 regnr val => do setreg2 regnr val; return (none, self)
  | .setpc val => do setpc val; return (none, self)
  | .readmem adr => do let val ← readmem adr; return (some val, self)
  | .writemem adr val => do writemem self adr val; return (none, self)
  | .writeapb adr data => do Apb.writeapb adr data; return (none, self)
  | .readapb adr => do let val ← Apb.readapb adr; return (some val, self)

end ReveOCD

end PyOcdRiscv.Ocd
