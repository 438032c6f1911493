import PyOcdRiscv.Lib.Port
import PyOcdRiscv.Jtag.EngineCall

/-!
# The engine, scan by scan

What the calls of a driver do to a device, when each is taken as a whole: `write_ir`
is a scan of the instruction register, `write_dr` and `read_dr` are scans of the data
register, and idling does nothing. A `read_dr` shifts one bit more than it returns,
because the edge that leaves the shift state shifts as well.

This is what the edges of the calls come to for a driver that is at rest between them
(`Jtag.Engine`); `change_state` into a scan, `shift_register` and TMS cycles other than
idle ones are not among the calls it speaks of.
-/

namespace PyOcdRiscv.Jtag

open Lib

variable {δ : Type}

/-- The scans of `write_vir`. -/
def scanVir (P : Port δ) (d : δ) (val : BitSequence) : δ :=
  P.scanIr (P.scanDr (P.scanIr d (BitSequence.ofInt VIR false 10)) (virWord val))
    (BitSequence.ofInt VDR false 10)

/-- What a call does to a device. -/
def onScans (P : Port δ) : (o : EngineCall) → δ → Engine.Res o × δ
  | .changeState _, d => ((), d)
  | .writeIr instruction, d => ((), P.scanIr d instruction)
  | .writeDr data, d => ((), P.scanDr d data)
  | .readDr length, d =>
    (P.outsDr (P.captureDr d) (List.replicate length false),
      P.scanDr d (List.replicate (length + 1) false))
  | .readwriteDr out, d => (value (P.outsDr (P.captureDr d) out), P.scanDr d out)
  | .writeVir val, d => ((), scanVir P d val)
  | .shiftRegister _, d => ([], d)
  | .writeTms _ _, d => ([false], d)
  | .reset, d => ((), P.reset d)

/-- The calls that scan the data register for their caller. The scan of `write_vir` is
not the caller's. -/
def EngineCall.scansDr : EngineCall → Bool
  | .writeDr _ | .readDr _ | .readwriteDr _ => true
  | _ => false

end PyOcdRiscv.Jtag
