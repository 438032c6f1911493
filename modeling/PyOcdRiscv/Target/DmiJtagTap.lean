import PyOcdRiscv.Lib.Tap

/-!
# The TAP of the Pulp target

`dmi_jtag_tap.sv`: the controller, the instruction register of five bits, and the registers
of the instructions IDCODE, DTMCSR and BYPASS. The DMI register is outside, in whatever the
TAP is connected to (`DmiSide`): it sees every edge of TCK with the TAP as it is before it.

The registers are clocked by the edge that leaves a state, so what Test-Logic-Reset and
Update-IR do is done at the next edge.
-/

namespace PyOcdRiscv.Target

open Lib

/-- The registers of `dmi_jtag_tap`. -/
structure DmiJtagTap where
  /-- `tap_state_q`. -/
  tapState : TapState
  /-- `jtag_ir_shift_q`. -/
  jtagIrShift : ShiftReg 5
  /-- `jtag_ir_q`. -/
  jtagIr : ShiftReg 5
  /-- `idcode_q`. -/
  idcode : ShiftReg 32
  /-- `bypass_q`. -/
  bypass : Bool
  /-- `dtmcs_q`. -/
  dtmcs : ShiftReg 32

namespace DmiJtagTap

/-- `IDCODE`. -/
def IDCODE : ShiftReg 5 := .ofNat 5 0x1

/-- `DTMCSR`. -/
def DTMCSR : ShiftReg 5 := .ofNat 5 0x10

/-- `DMIACCESS`. -/
def DMIACCESS : ShiftReg 5 := .ofNat 5 0x11

/-- `bypass_select`. -/
def bypassSelect (t : DmiJtagTap) : Bool := t.jtagIr ≠ IDCODE ∧ t.jtagIr ≠ DTMCSR ∧ t.jtagIr ≠ DMIACCESS

/-- `dmi_access_o`. -/
def dmiAccess (t : DmiJtagTap) : Bool := t.jtagIr = DMIACCESS

/-- `dtmcs_select_o`. -/
def dtmcsSelect (t : DmiJtagTap) : Bool := t.jtagIr = DTMCSR

/-- `dmi_reset_o`: bit 16 of `dtmcs_q`. -/
def dmiReset (t : DmiJtagTap) : Bool := t.dtmcs.bits.getD 16 false

/-- What Capture-DR loads into `dtmcs_q`: idle 1, `dmi_error_i`, 7 bits of address, version 1. -/
def dtmcsWord (dmiError : ℕ) : ShiftReg 32 := .ofNat 32 (1 <<< 12 + dmiError <<< 10 + 7 <<< 4 + 1)

/-- A rising edge of TCK. -/
def edge (IdcodeValue : ℕ) (t : DmiJtagTap) (dmiError : ℕ) (e : Edge) : DmiJtagTap where
  tapState := t.tapState.next e.tms
  jtagIrShift :=
    match t.tapState with
    | .shiftIr => t.jtagIrShift.shiftIn e.tdi
    | .captureIr => .ofNat 5 0b0101
    | .testLogicReset => .ofNat 5 0
    | _ => t.jtagIrShift
  jtagIr :=
    match t.tapState with
    | .updateIr => t.jtagIrShift
    | .testLogicReset => IDCODE
    | _ => t.jtagIr
  idcode :=
    match t.tapState with
    | .captureDr => if t.jtagIr = IDCODE then .ofNat 32 IdcodeValue else t.idcode
    | .shiftDr => if t.jtagIr = IDCODE then t.idcode.shiftIn e.tdi else t.idcode
    | .testLogicReset => .ofNat 32 IdcodeValue
    | _ => t.idcode
  bypass :=
    match t.tapState with
    | .captureDr => if t.bypassSelect then false else t.bypass
    | .shiftDr => if t.bypassSelect then e.tdi else t.bypass
    | .testLogicReset => false
    | _ => t.bypass
  dtmcs :=
    match t.tapState with
    | .captureDr => if t.dtmcsSelect then dtmcsWord dmiError else t.dtmcs
    | .shiftDr => if t.dtmcsSelect then t.dtmcs.shiftIn e.tdi else t.dtmcs
    | _ => t.dtmcs

/-- `tdo_mux`, which the falling edge puts on TDO. -/
def tdo (t : DmiJtagTap) (dmiTdo : Bool) : Bool :=
  if t.tapState = .shiftIr then t.jtagIrShift.out
  else if t.jtagIr = IDCODE then t.idcode.out
  else if t.jtagIr = DTMCSR then t.dtmcs.out
  else if t.jtagIr = DMIACCESS then dmiTdo
  else t.bypass

end DmiJtagTap

/-- What the TAP is connected to, in the domain of TCK. -/
structure DmiSide (β : Type) where
  /-- A rising edge of TCK. -/
  edge : β → DmiJtagTap → Edge → β
  /-- `dmi_error_i`. -/
  dmiError : β → ℕ
  /-- `dmi_tdo_i`. -/
  dmiTdo : β → Bool

/-- The TAP with what it is connected to. -/
def DmiSide.system {β : Type} (S : DmiSide β) (IdcodeValue : ℕ) : Machine (DmiJtagTap × β) where
  edge x e := (x.1.edge IdcodeValue (S.dmiError x.2) e, S.edge x.2 x.1 e)
  tdo x := x.1.tdo (S.dmiTdo x.2)

end PyOcdRiscv.Target
