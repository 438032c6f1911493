import PyOcdRiscv.Lib.Prog
import PyOcdRiscv.Ocd.Words

/-!
# The debug-bus drivers

`MuraxOCD` (`murax/ocd.py`) and `SaxonOCD` (`saxon/ocd.py`) have the same methods above
`writecmd` and `readrsp`, word for word: run control is a command to register 0 of the
debug bus, and everything else is done by instructions pushed into register 4. Here
they are, over the interface of the two methods below (`DebugBus`); `DebugOCD` stands
for either class.
-/

namespace PyOcdRiscv.Ocd

open Lib

/-- A call from a method of `MuraxOCD` or `SaxonOCD` to the layer below. -/
inductive DebugCall where
  /-- `self.writecmd(adr, data, size, write)`. -/
  | writecmd (adr data : ℤ) (size write : ℕ)
  /-- `self.readrsp(adr)`. -/
  | readrsp (adr : ℤ)
  /-- `self.resetdm()`. -/
  | resetdm
  deriving DecidableEq, Repr

/-- The interface: `readrsp` answers with the word it read. -/
abbrev DebugBus : Interface where
  Op := DebugCall
  Res
    | .readrsp _ => ℕ
    | _ => Unit

namespace DebugBus

/-- `self.writecmd(adr, data, size, write)`. -/
def writecmd (adr data : ℤ) (size write : ℕ) : Prog DebugBus Unit :=
  Prog.op (I := DebugBus) (.writecmd adr data size write)

/-- `self.readrsp(adr)`. -/
def readrsp (adr : ℤ) : Prog DebugBus ℕ := Prog.op (I := DebugBus) (.readrsp adr)

/-- `self.resetdm()`. -/
def resetdm : Prog DebugBus Unit := Prog.op (I := DebugBus) .resetdm

end DebugBus

/-- The attribute of a `MuraxOCD` or `SaxonOCD` that its upper methods use. No method sets
it. -/
structure DebugOCD where
  /-- The address in x2, if it is known. -/
  lastwradr : Option ℤ
  deriving DecidableEq, Repr

namespace DebugOCD

open DebugBus

def HALTREQBIT : ℕ := 17
def HALTRELEASEBIT : ℕ := 25
def RESETREQBIT : ℕ := 16
def RESETRELEASEBIT : ℕ := 24

/-- `__init__`. -/
def init : DebugOCD := ⟨none⟩

/-- `halt`. -/
def halt : Prog DebugBus Unit := writecmd 0 (1 <<< HALTREQBIT : ℕ) 2 1

/-- `resume`. -/
def resume : Prog DebugBus Unit := writecmd 0 (1 <<< HALTRELEASEBIT : ℕ) 2 1

/-- `reset`. -/
def reset : Prog DebugBus Unit := writecmd 0 (1 <<< RESETREQBIT : ℕ) 2 1

/-- `resetrelease`. -/
def resetrelease : Prog DebugBus Unit := writecmd 0 (1 <<< RESETRELEASEBIT : ℕ) 2 1

/-- `pushins`. -/
def pushins (ins : ℕ) : Prog DebugBus Unit := writecmd 4 ins 2 1

/-- A constant into a register: the lines that `writereg`, `writemem` and `readmem` each
have a copy of. -/
def pushConst (regdst : ℕ) (val : ℤ) : Prog DebugBus Unit :=
  if inrange val 12 then pushins (addiWord val 0 regdst)
  else do
    let val := luiCarry val
    pushins (luiWord val regdst)
    pushins (addiWord val regdst regdst)

/-- `writereg`. -/
def writereg (regnr : ℕ) (val : ℤ) : Prog DebugBus Unit := pushConst regnr val

/-- `readreg`. -/
def readreg (regnr : ℕ) : Prog DebugBus ℕ := do
  -- addi x0, regnr, 0
  pushins (regnr <<< 15 + 0x13)
  readrsp 4

/-- `writemem`. -/
def writemem (self : DebugOCD) (adr val : ℤ) : Prog DebugBus Unit := do
  pushConst 1 val
  match self.lastwradr with
  | some lastwradr =>
    if inrange (adr - lastwradr) 12 then pushins (swWord (adr - lastwradr))
    else do
      pushConst 2 adr
      pushins (swWord 0)
  | none => do
    pushConst 2 adr
    pushins (swWord 0)

/-- `readmem`. -/
def readmem (adr : ℤ) : Prog DebugBus ℕ := do
  pushConst 1 adr
  pushins lwWord
  readrsp 4

/-- `setpc`. -/
def setpc (val : ℤ) : Prog DebugBus Unit := do
  writereg 1 val
  pushins jalrWord

/-- The calls a client makes on a `MuraxOCD` or a `SaxonOCD`. -/
inductive Op where
  | resetdm | halt | resume | reset | resetrelease
  | writereg (regnr : ℕ) (val : ℤ) | readreg (regnr : ℕ)
  | writemem (adr val : ℤ) | readmem (adr : ℤ) | setpc (val : ℤ)
  | writecmd (adr data : ℤ) (size write : ℕ) | readrsp (adr : ℤ)
  deriving DecidableEq, Repr

/-- What a call returns, if it returns a word. -/
def exec (self : DebugOCD) : Op → Prog DebugBus (Option ℕ)
  | .resetdm => do DebugBus.resetdm; return none
  | .halt => do halt; return none
  | .resume => do resume; return none
  | .reset => do reset; return none
  | .resetrelease => do resetrelease; return none
  | .writereg regnr val => do writereg regnr val; return none
  | .readreg regnr => do let val ← readreg regnr; return some val
  | .writemem adr val => do writemem self adr val; return none
  | .readmem adr => do let val ← readmem adr; return some val
  | .setpc val => do setpc val; return none
  | .writecmd adr data size write => do DebugBus.writecmd adr data size write; return none
  | .readrsp adr => do let val ← DebugBus.readrsp adr; return some val

end DebugOCD

end PyOcdRiscv.Ocd
