import PyOcdRiscv.Lib.Bits
import Mathlib.Logic.Function.Basic

/-!
# System bus access

The system-bus access registers of the Pulp debug module (`dm_csrs.sv`,
`dm_sba.sv`), with every access complete before the next request. The access size
is fixed at a word, so an increment adds 4.
-/

namespace PyOcdRiscv.Target

open Lib

/-- The registers behind SBCS, SBADDRESS0 and SBDATA0, the memory on the bus, and
what else was written to the debug module. -/
structure SystemBus where
  /-- `sbautoincrement`, bit 16 of SBCS. -/
  autoincrement : Bool
  /-- `sbreadonaddr`, bit 20 of SBCS. -/
  readonaddr : Bool
  /-- `sbreadondata`, bit 15 of SBCS. -/
  readondata : Bool
  /-- SBADDRESS0. -/
  address : Word
  /-- SBDATA0. -/
  data : Word
  /-- The memory, word by word. -/
  mem : Word → Word
  /-- The other registers. -/
  others : ℕ → Word

namespace SystemBus

/-- The end of an access: the address moves on if it is to be incremented. -/
def increment (s : SystemBus) : SystemBus :=
  { s with address := if s.autoincrement then s.address + 4 else s.address }

/-- A read access. -/
def fetch (s : SystemBus) : SystemBus := { s with data := s.mem s.address }.increment

/-- A write access. -/
def store (s : SystemBus) : SystemBus :=
  { s with mem := Function.update s.mem s.address s.data }.increment

/-- A DMI write of `v` to register `adr`. -/
def write (s : SystemBus) (adr : ℕ) (v : Word) : SystemBus :=
  if adr = 0x38 then
    { s with
      autoincrement := v.getLsbD 16
      readonaddr := v.getLsbD 20
      readondata := v.getLsbD 15 }
  else if adr = 0x39 then
    let s := { s with address := v }
    if s.readonaddr then s.fetch else s
  else if adr = 0x3c then
    { s with data := v }.store
  else { s with others := Function.update s.others adr v }

/-- A DMI read of register `adr`. -/
def read (s : SystemBus) (adr : ℕ) : Word × SystemBus :=
  if adr = 0x39 then (s.address, s)
  else if adr = 0x3c then (s.data, if s.readondata then s.fetch else s)
  else (s.others adr, s)

end SystemBus

end PyOcdRiscv.Target
