import PyOcdRiscv.Jtag.EngineCall
import PyOcdRiscv.Ocd.DebugBus
import Mathlib.Tactic.Ring

/-!
# Commands as scans

The layer of `MuraxOCD` and `SaxonOCD` that talks to the engine. A command is a frame of
75 bits under instruction 2, or, through the virtual JTAG hub, of 77 bits with a header
of two zeros; its fields are the same bits one place or two further up
(`commandFrame_eq`). `SaxonOCD` adds the offset of its core to the address.
-/

namespace PyOcdRiscv.Ocd

open Lib Jtag

/-- The frame of a command. -/
def commandFrame (virtual : Bool) (adr data : ℤ) (size write : ℕ) : BitSequence :=
  if virtual then
    BitSequence.ofInt (land adr 0xffffffff <<< 10 ||| land data 0xffffffff <<< 42 |||
      (write <<< 74 + size <<< 75)) false 77
  else
    BitSequence.ofInt (land adr 0xffffffff <<< 8 ||| land data 0xffffffff <<< 40 |||
      (write <<< 72 + size <<< 73)) false 75

/-- What comes before the fields of a command: the header, and for the hub the two bits
that tell a command from a response scan. -/
def headerLength (virtual : Bool) : ℕ := if virtual then 10 else 8

/-- **The fields of a frame**, in either framing. -/
theorem commandFrame_eq (virtual : Bool) (adr data : ℤ) (size : ℕ) {write : ℕ} (hwrite : write < 2) :
    commandFrame virtual adr data size write =
      List.replicate (headerLength virtual) false ++
        (bits 32 (land adr 0xffffffff) ++ (bits 32 (land data 0xffffffff) ++
          (bits 1 write ++ bits 2 size))) := by
  have ha : land adr 0xffffffff < 2 ^ 32 := land_ones_lt adr 32
  have hd : land data 0xffffffff < 2 ^ 32 := land_ones_lt data 32
  -- the fields added up, from bit `n` on
  have hsum (n : ℕ) : land adr 0xffffffff <<< n ||| land data 0xffffffff <<< (n + 32) |||
      (write <<< (n + 64) + size <<< (n + 65)) =
        0 + (land adr 0xffffffff + (land data 0xffffffff + (write + size * 2 ^ 1) * 2 ^ 32) * 2 ^ 32) *
          2 ^ n := by
    have h₁ : land adr 0xffffffff <<< n < 2 ^ (n + 32) := by
      rw [Nat.shiftLeft_eq, Nat.pow_add, Nat.mul_comm]
      exact Nat.mul_lt_mul_of_pos_left ha (Nat.two_pow_pos n)
    have h₂ : land adr 0xffffffff <<< n + land data 0xffffffff * 2 ^ (n + 32) < 2 ^ (n + 64) := by
      have : (land data 0xffffffff + 1) * 2 ^ (n + 32) ≤ 2 ^ 32 * 2 ^ (n + 32) :=
        Nat.mul_le_mul_right _ hd
      rw [Nat.succ_mul] at this
      rw [show n + 64 = 32 + (n + 32) by omega, Nat.pow_add 2 32]
      omega
    have h₃ : write <<< (n + 64) + size <<< (n + 65) = (write + size * 2) <<< (n + 64) := by
      simp only [Nat.shiftLeft_eq, Nat.pow_add]
      ring
    rw [lor_shiftLeft h₁, h₃, lor_shiftLeft h₂]
    simp only [Nat.shiftLeft_eq, Nat.pow_add]
    ring
  have hpack (n : ℕ) : bits (n + (32 + (32 + (1 + 2))))
      (0 + (land adr 0xffffffff + (land data 0xffffffff + (write + size * 2 ^ 1) * 2 ^ 32) * 2 ^ 32) *
        2 ^ n) =
      List.replicate n false ++ (bits 32 (land adr 0xffffffff) ++
        (bits 32 (land data 0xffffffff) ++ (bits 1 write ++ bits 2 size))) := by
    rw [bits_pack _ _ (Nat.two_pow_pos n), bits_pack _ _ ha, bits_pack _ _ hd, bits_pack _ _ hwrite,
      bits_of_zero]
  cases virtual with
  | true =>
    rw [commandFrame, if_pos rfl, BitSequence.ofInt_eq (by decide)]
    exact (congrArg (bits 77) (hsum 10)).trans (hpack 10)
  | false =>
    rw [commandFrame, if_neg (by decide), BitSequence.ofInt_eq (by decide)]
    exact (congrArg (bits 75) (hsum 8)).trans (hpack 8)

/-- The address in a frame. -/
def frameAddress (virtual : Bool) (frame : BitSequence) : ℕ := field (headerLength virtual) 32 frame

/-- The write bit of a frame. -/
def frameWrite (virtual : Bool) (frame : BitSequence) : ℕ := field (headerLength virtual + 64) 1 frame

theorem frameAddress_commandFrame (virtual : Bool) (adr data : ℤ) (size : ℕ) {write : ℕ}
    (hwrite : write < 2) :
    frameAddress virtual (commandFrame virtual adr data size write) = land adr 0xffffffff := by
  rw [frameAddress, field, commandFrame_eq virtual adr data size hwrite, List.drop_left' (by simp),
    List.take_left' (by simp)]
  exact value_bits_of_lt (land_ones_lt adr 32)

theorem frameWrite_commandFrame (virtual : Bool) (adr data : ℤ) (size : ℕ) {write : ℕ}
    (hwrite : write < 2) : frameWrite virtual (commandFrame virtual adr data size write) = write := by
  rw [frameWrite, field, commandFrame_eq virtual adr data size hwrite, ← List.append_assoc,
    ← List.append_assoc, List.drop_left' (by simp), List.take_left' (by simp)]
  exact value_bits_of_lt hwrite

/-! ### The classes -/

/-- The attributes that `__init__` sets and no method changes. -/
structure DebugPort where
  /-- `self._irlen`. -/
  irlen : ℕ
  /-- `self.virtual`: `engine._ctrl.virtual`, or `False` if the controller has no such
  attribute. -/
  virtual : Bool
  deriving DecidableEq, Repr

namespace DebugPort

open Engine

variable (self : DebugPort)

/-- `resetdm`, of either class. -/
def resetdm : Prog Engine Unit :=
  if self.virtual then do
    goIdle
    captureIr
    writeVir (BitSequence.ofInt 0 false 1)
  else pure ()

/-- A command: the lines that `writecmd` of either class ends with. -/
def sendCommand (adr data : ℤ) (size write : ℕ) : Prog Engine Unit :=
  if self.virtual then writeDr (commandFrame true adr data size write)
  else do
    writeIr (BitSequence.ofInt 2 false self.irlen)
    writeDr (commandFrame false adr data size write)

/-- A response: the lines that `readrsp` of either class ends with. -/
def readResponse : Prog Engine ℕ :=
  if self.virtual then do
    let val ← readwriteDr (BitSequence.ofInt 1 false 36)
    return land (val >>> 2 >>> 2 : ℕ) 0xffffffff
  else do
    writeIr (BitSequence.ofInt 3 false self.irlen)
    let val ← readDr 34
    return land (val.toInt >>> 2 : ℕ) 0xffffffff

end DebugPort

namespace MuraxOCD

variable (self : DebugPort)

/-- `MuraxOCD.writecmd`. -/
def writecmd (adr data : ℤ) (size write : ℕ) : Prog Engine Unit := self.sendCommand adr data size write

/-- `MuraxOCD.readrsp`. -/
def readrsp (adr : ℤ) : Prog Engine ℕ := do
  writecmd self adr 0 2 0
  self.readResponse

/-- What a call from the upper layer is written as. -/
def call : (o : DebugCall) → Prog Engine (DebugBus.Res o)
  | .writecmd adr data size write => writecmd self adr data size write
  | .readrsp adr => readrsp self adr
  | .resetdm => self.resetdm

end MuraxOCD

/-- A `SaxonOCD`: the port, and the offset of its core. -/
structure SaxonOCD extends DebugPort where
  /-- `self.adrofs`. -/
  adrofs : ℤ
  deriving DecidableEq, Repr

namespace SaxonOCD

/-- `SaxonOCD.__init__`. -/
def init (port : DebugPort) (corenr : ℕ) : SaxonOCD := { port with adrofs := 0x10B80000 + corenr * 0x1000 }

variable (self : SaxonOCD)

/-- `SaxonOCD.writecmd`. -/
def writecmd (adr data : ℤ) (size write : ℕ) : Prog Engine Unit :=
  self.sendCommand (adr + self.adrofs) data size write

/-- `SaxonOCD.readrsp`. -/
def readrsp (adr : ℤ) : Prog Engine ℕ := do
  let adr := adr + self.adrofs
  self.writecmd adr 0 2 0
  self.readResponse

/-- What a call from the upper layer is written as. -/
def call : (o : DebugCall) → Prog Engine (DebugBus.Res o)
  | .writecmd adr data size write => self.writecmd adr data size write
  | .readrsp adr => self.readrsp adr
  | .resetdm => self.resetdm

end SaxonOCD

end PyOcdRiscv.Ocd
