import PyOcdRiscv.Jtag.Controller
import Mathlib.Tactic.Ring

/-!
# The USB-Blaster's controller

`Blaster` of `blaster.py`, byte by byte, over the cable it writes to (`Cable`). In
bit-bang mode a byte sets TCK, TMS and TDI, and with the read flag returns the level on
TDO of that clock. A byte-shift command clocks the bytes that follow it, least
significant bit first, with TMS as it was last set, and with the read flag returns one
byte for each. `read_data_bytes` returns as many bytes as are asked for.
-/

namespace PyOcdRiscv.Jtag

open Lib

/-! ### The cable -/

/-- The state of the cable. -/
structure Cable where
  /-- The level on TCK. -/
  tck : Bool
  /-- The level on TMS. -/
  tms : Bool
  /-- The edges the target has seen. -/
  history : History
  /-- The bytes to be read. -/
  rx : List ℕ
  /-- How many bytes of a byte-shift command are still to come. -/
  left : ℕ
  /-- The read flag of the byte-shift command. -/
  reading : Bool

namespace Cable

variable (tdo : History → Bool)

/-- The edges of a byte that is shifted. -/
def byteEdges (tms : Bool) (b : ℕ) : List Edge := (bits 8 b).map fun b => ⟨tms, b⟩

/-- A byte of a byte-shift command. -/
def shiftByte (c : Cable) (b : ℕ) : Cable :=
  { c with
    tck := false
    history := c.history ++ byteEdges c.tms b
    rx := if c.reading then c.rx ++ [value (sample tdo c.history (byteEdges c.tms b))] else c.rx
    left := c.left - 1 }

/-- A byte in bit-bang mode: bit 0 is TCK, bit 1 TMS, bit 4 TDI and bit 6 the read flag. -/
def bitBang (c : Cable) (b : ℕ) : Cable :=
  { c with
    tck := b.testBit 0
    tms := b.testBit 1
    history := if b.testBit 0 && !c.tck then c.history ++ [⟨b.testBit 1, b.testBit 4⟩] else c.history
    rx := if b.testBit 6 then c.rx ++ [(tdo c.history).toNat] else c.rx }

/-- A byte is written. Bit 7 makes it a byte-shift command, of as many bytes as its low six
bits say. -/
def byte (c : Cable) (b : ℕ) : Cable :=
  if c.left ≠ 0 then c.shiftByte tdo b
  else if b.testBit 7 then { c with left := b % 64, reading := b.testBit 6 }
  else c.bitBang tdo b

end Cable

/-- The cable, and `self._last`. -/
structure BlasterState where
  /-- The cable. -/
  cable : Cable
  /-- The bit kept back. -/
  last : Option Bool

namespace Blaster

/-- The monad of its methods. -/
abbrev M := EStateM Fault BlasterState

def TMS : ℕ := 1 <<< 1
def TDI : ℕ := 1 <<< 4
def TDO : ℕ := 1 <<< 6
def TCK : ℕ := 1 <<< 0
def BYTESHIFT : ℕ := 1 <<< 7
def DORDWR : ℕ := 1 <<< 6
def ENA : ℕ := 1 <<< 3 + 1 <<< 5

variable (tdo : History → Bool)

/-- `self.blaster._write(data)`. -/
def write_ (data : List ℕ) : M Unit :=
  modify fun s => { s with cable := data.foldl (Cable.byte tdo) s.cable }

/-- `self.blaster.read_data_bytes(n, attempt=3)`. -/
def readDataBytes (n : ℕ) : M (List ℕ) := fun s =>
  .ok (s.cable.rx.take n) { s with cable := { s.cable with rx := s.cable.rx.drop n } }

/-- `readwritebit`. -/
def readwritebit (tms tdi : Bool) : M ℕ := do
  write_ tdo [ENA + tms.toNat * TMS + tdi.toNat * TDI]
  write_ tdo [ENA + tms.toNat * TMS + tdi.toNat * TDI + TCK + TDO]
  let rd ← readDataBytes 1
  return rd.headD 0 % 2

/-- `writebit`. -/
def writebit (tms tdi : Bool) : M Unit := do
  write_ tdo [ENA + tms.toNat * TMS + tdi.toNat * TDI]
  write_ tdo [ENA + tms.toNat * TMS + tdi.toNat * TDI + TCK]

/-- `val.to_bytes(n, 'little')`. -/
def toBytes : ℕ → ℕ → List ℕ
  | 0, _ => []
  | n + 1, val => val % 256 :: toBytes n (val / 256)

/-- `int.from_bytes(data, 'little')`. -/
def fromBytes : List ℕ → ℕ
  | [] => 0
  | b :: data => b + 256 * fromBytes data

/-- The loop at the end of `shiftinoutval`, from bit `i` of the result on. -/
def readLoop : ℕ → ℕ → ℕ → ℕ → M ℕ
  | 0, _, _, outval => pure outval
  | n + 1, i, val, outval => do
    let bit := val % 2 == 1
    let tdo' ← readwritebit tdo false bit
    readLoop n (i + 1) (val >>> 1) (outval + tdo' <<< i)

/-- `shiftinoutval`. -/
def shiftinoutval (length val : ℕ) : M ℕ := do
  let nbytes := length >>> 3
  if nbytes > 63 then throw .tooLong
  write_ tdo [ENA]
  let txlen := (nbytes % 64) <<< 3
  write_ tdo ((BYTESHIFT ||| DORDWR ||| nbytes % 64) :: toBytes (nbytes % 64) (val % 2 ^ txlen))
  let rd ← readDataBytes (nbytes % 64)
  readLoop tdo (length - txlen) (rd.length * 8) (val >>> txlen) (fromBytes rd)

/-- The `while` loop of `shiftinval`, for at most `fuel` rounds; it ends with the length and
the value that are left. A round in which `nbytes & 0x3F` is 0 makes no progress. -/
def byteLoop : ℕ → ℕ → ℕ → ℕ → M (ℕ × ℕ)
  | 0, _, _, _ => throw .hang
  | fuel + 1, nbytes, val, length =>
    if nbytes = 0 then pure (length, val)
    else if nbytes % 64 = 0 then throw .hang
    else do
      write_ tdo [ENA]
      let len := (nbytes % 64) <<< 3
      write_ tdo ((BYTESHIFT ||| nbytes % 64) :: toBytes (nbytes % 64) (val % 2 ^ len))
      byteLoop fuel (nbytes - nbytes % 64) (val >>> len) (length - len)

/-- The `for` loop of `shiftinval`. -/
def writeLoop : ℕ → ℕ → M Unit
  | 0, _ => pure ()
  | n + 1, val => do
    writebit tdo false (val % 2 == 1)
    writeLoop n (val >>> 1)

/-- `shiftinval`. -/
def shiftinval (length val : ℕ) : M Unit := do
  let r ← byteLoop tdo (length + 1) (length >>> 3) val length
  writeLoop tdo r.1 r.2

/-- The loop of `write_tms`. A read is made only of a bit kept back. -/
def tmsLoop : BitSequence → Bool → ℕ → M ℕ
  | [], _, tdo' => pure tdo'
  | val :: tms, shouldRead, tdo' => do
    let s ← get
    let tdo' ← match s.last with
      | some last =>
        if shouldRead then readwritebit tdo val last
        else do
          writebit tdo val last
          pure tdo'
      | none => do
        writebit tdo val false
        pure tdo'
    modify fun s => { s with last := none }
    tmsLoop tms false tdo'

/-- `write_tms`. -/
def writeTms (tms : BitSequence) (shouldRead : Bool) : M BitSequence := do
  let tdo' ← tmsLoop tdo tms shouldRead 0
  return BitSequence.ofInt tdo' true 0

/-- `reset`. -/
def reset : M Unit := do
  let _ ← writeTms tdo (List.replicate 5 true) false

/-- `if use_last: (out, self._last) = (out[:-1], bool(out[-1]))`. -/
def keepLast (out : BitSequence) (useLast : Bool) : M BitSequence :=
  if useLast then
    match out.getLast? with
    | none => throw .indexError
    | some b => do
      modify fun s => { s with last := some b }
      return out.dropLast
  else return out

/-- `write`. -/
def write (out : BitSequence) (useLast : Bool) : M Unit := do
  let out ← keepLast out useLast
  shiftinval tdo out.length out.toInt

/-- `writeread`. -/
def writeread (out : BitSequence) (useLast : Bool) : M BitSequence := do
  let out ← keepLast out useLast
  let val ← shiftinoutval tdo out.length out.toInt
  return BitSequence.ofInt val false out.length

/-- `read`. -/
def read (length : ℕ) : M BitSequence := do
  let val ← shiftinoutval tdo length 0
  return BitSequence.ofInt val false length

/-- The controller, connected to a target. -/
def controller : Controller BlasterState :=
  ⟨writeTms tdo, read tdo, write tdo, writeread tdo, reset tdo⟩

/-! ### Between bytes -/

/-- The cable waits for a command and has nothing to be read, and there is `w` to see. -/
structure At (s : BlasterState) (w : Wire) : Prop where
  left : s.cable.left = 0
  rx : s.cable.rx = []
  last : s.last = w.last
  history : s.cable.history = w.history

/-- A byte in bit-bang mode with TCK low. -/
theorem byte_low {c : Cable} (hc : c.left = 0) (tms tdi : Bool) :
    Cable.byte tdo c (ENA + tms.toNat * TMS + tdi.toNat * TDI) = { c with tck := false, tms := tms } := by
  have hbits : ∀ tms tdi : Bool, let v := ENA + tms.toNat * TMS + tdi.toNat * TDI
      v.testBit 7 = false ∧ v.testBit 0 = false ∧ v.testBit 1 = tms ∧ v.testBit 6 = false := by decide
  obtain ⟨h7, h0, h1, h6⟩ := hbits tms tdi
  simp [Cable.byte, hc, Cable.bitBang, h7, h0, h1, h6]

/-- One with TCK high after it: an edge. -/
theorem byte_high {c : Cable} (hc : c.left = 0) (htck : c.tck = false) (tms tdi : Bool) :
    Cable.byte tdo c (ENA + tms.toNat * TMS + tdi.toNat * TDI + TCK) =
      { c with tck := true, tms := tms, history := c.history ++ [⟨tms, tdi⟩] } := by
  have hbits : ∀ tms tdi : Bool, let v := ENA + tms.toNat * TMS + tdi.toNat * TDI + TCK
      v.testBit 7 = false ∧ v.testBit 0 = true ∧ v.testBit 1 = tms ∧ v.testBit 4 = tdi ∧
        v.testBit 6 = false := by decide
  obtain ⟨h7, h0, h1, h4, h6⟩ := hbits tms tdi
  simp [Cable.byte, hc, Cable.bitBang, htck, h7, h0, h1, h4, h6]

/-- And with the read flag. -/
theorem byte_read {c : Cable} (hc : c.left = 0) (htck : c.tck = false) (tms tdi : Bool) :
    Cable.byte tdo c (ENA + tms.toNat * TMS + tdi.toNat * TDI + TCK + TDO) =
      { c with
        tck := true, tms := tms, history := c.history ++ [⟨tms, tdi⟩]
        rx := c.rx ++ [(tdo c.history).toNat] } := by
  have hbits : ∀ tms tdi : Bool, let v := ENA + tms.toNat * TMS + tdi.toNat * TDI + TCK + TDO
      v.testBit 7 = false ∧ v.testBit 0 = true ∧ v.testBit 1 = tms ∧ v.testBit 4 = tdi ∧
        v.testBit 6 = true := by decide
  obtain ⟨h7, h0, h1, h4, h6⟩ := hbits tms tdi
  simp [Cable.byte, hc, Cable.bitBang, htck, h7, h0, h1, h4, h6]

theorem readwritebit_eq {s : BlasterState} {w : Wire} (h : At s w) (tms tdi : Bool) :
    ∃ s', readwritebit tdo tms tdi s = .ok (tdo w.history).toNat s' ∧ At s' (w.put [⟨tms, tdi⟩]) := by
  obtain ⟨c, last⟩ := s
  obtain ⟨hleft, hrx, hlast, hhist⟩ := h
  have hread := byte_read tdo (c := { c with tck := false, tms := tms }) hleft rfl tms tdi
  have hrun : readwritebit tdo tms tdi ⟨c, last⟩ =
      let c' := Cable.byte tdo (Cable.byte tdo c (ENA + tms.toNat * TMS + tdi.toNat * TDI))
        (ENA + tms.toNat * TMS + tdi.toNat * TDI + TCK + TDO)
      .ok ((c'.rx.take 1).headD 0 % 2) ⟨{ c' with rx := c'.rx.drop 1 }, last⟩ := rfl
  rw [hrun, byte_low tdo hleft, hread]
  refine ⟨⟨⟨true, tms, c.history ++ [⟨tms, tdi⟩], [], c.left, c.reading⟩, last⟩, ?_, hleft, rfl, hlast, ?_⟩
  · have hrx' : c.rx = [] := hrx
    have hhist' : c.history = w.history := hhist
    simp only [hrx', hhist', List.nil_append]
    cases tdo w.history <;> rfl
  · exact congrArg (· ++ [(⟨tms, tdi⟩ : Edge)]) hhist

theorem writebit_eq {s : BlasterState} {w : Wire} (h : At s w) (tms tdi : Bool) :
    ∃ s', writebit tdo tms tdi s = .ok () s' ∧ At s' (w.put [⟨tms, tdi⟩]) := by
  obtain ⟨c, last⟩ := s
  obtain ⟨hleft, hrx, hlast, hhist⟩ := h
  have hhigh := byte_high tdo (c := { c with tck := false, tms := tms }) hleft rfl tms tdi
  have hrun : writebit tdo tms tdi ⟨c, last⟩ =
      .ok () ⟨Cable.byte tdo (Cable.byte tdo c (ENA + tms.toNat * TMS + tdi.toNat * TDI))
        (ENA + tms.toNat * TMS + tdi.toNat * TDI + TCK), last⟩ := rfl
  rw [hrun, byte_low tdo hleft, hhigh]
  exact ⟨_, rfl, hleft, hrx, hlast, congrArg (· ++ [(⟨tms, tdi⟩ : Edge)]) hhist⟩

/-! ### Bytes -/

theorem bits_toBytes (n val : ℕ) : (toBytes n val).flatMap (bits 8) = bits (8 * n) val := by
  induction n generalizing val with
  | zero => rfl
  | succ n ih =>
    have hmod : bits 8 (val % 256) = bits 8 val := bits_mod 8 val
    rw [toBytes, List.flatMap_cons, ih, Nat.mul_succ, Nat.add_comm, bits_add, hmod]
    rfl

@[simp] theorem length_toBytes (n val : ℕ) : (toBytes n val).length = n := by
  induction n generalizing val with
  | zero => rfl
  | succ n ih => simp [toBytes, ih]

/-- What a byte-shift command reads, byte by byte. -/
def readBack (tdo : History → Bool) : History → List ℕ → List ℕ
  | _, [] => []
  | h, b :: data =>
    value (sample tdo h (dataEdges (bits 8 b))) :: readBack tdo (h ++ dataEdges (bits 8 b)) data

@[simp] theorem length_readBack (h : History) (data : List ℕ) :
    (readBack tdo h data).length = data.length := by
  induction data generalizing h with
  | nil => rfl
  | cons b data ih => simp [readBack, ih]

/-- The bytes read are the levels before the edges. -/
theorem fromBytes_readBack (h : History) (data : List ℕ) :
    fromBytes (readBack tdo h data) = value (sample tdo h (dataEdges (data.flatMap (bits 8)))) := by
  induction data generalizing h with
  | nil => rfl
  | cons b data ih =>
    rw [readBack, fromBytes, ih, List.flatMap_cons, dataEdges_append, sample_append, value_append]
    simp

/-- The bytes of a byte-shift command, with TMS low. -/
theorem foldl_shiftByte {data : List ℕ} {c : Cable} (hleft : c.left = data.length) (htms : c.tms = false) :
    ∃ c', data.foldl (Cable.byte tdo) c = c' ∧ c'.left = 0 ∧ c'.tms = false ∧
      c'.history = c.history ++ dataEdges (data.flatMap (bits 8)) ∧
      c'.rx = if c.reading then c.rx ++ readBack tdo c.history data else c.rx := by
  induction data generalizing c with
  | nil => exact ⟨c, rfl, hleft, htms, by simp, by simp [readBack]⟩
  | cons b data ih =>
    have hbyte : Cable.byte tdo c b = c.shiftByte tdo b := if_pos (by rw [hleft]; simp)
    have hedges : Cable.byteEdges c.tms b = dataEdges (bits 8 b) := by rw [Cable.byteEdges, htms]; rfl
    obtain ⟨c', hc', hl, ht, hh, hr⟩ := ih (c := c.shiftByte tdo b) (by simp [Cable.shiftByte, hleft]) htms
    refine ⟨c', ?_, hl, ht, ?_, ?_⟩
    · rw [List.foldl_cons, hbyte, hc']
    · rw [hh, List.flatMap_cons, dataEdges_append, ← List.append_assoc, ← hedges]
      rfl
    · rw [hr]
      simp only [Cable.shiftByte, hedges, readBack]
      cases c.reading <;> simp

/-- TMS is set low. -/
theorem write_ENA {s : BlasterState} {w : Wire} (h : At s w) :
    ∃ s', write_ tdo [ENA] s = .ok () s' ∧ At s' w ∧ s'.cable.tms = false := by
  have hlow := byte_low tdo h.left false false
  refine ⟨{ s with cable := { s.cable with tck := false, tms := false } }, ?_, ⟨h.left, h.rx, h.last, h.history⟩,
    rfl⟩
  rw [← hlow]
  rfl

/-- A byte-shift command and its bytes. -/
theorem write_shift {s : BlasterState} {w : Wire} (h : At s w) (htms : s.cable.tms = false) {cmd : ℕ}
    (hcmd : cmd.testBit 7 = true) {data : List ℕ} (hdata : cmd % 64 = data.length) :
    ∃ s', write_ tdo (cmd :: data) s = .ok () s' ∧ s'.cable.left = 0 ∧ s'.last = w.last ∧
      s'.cable.history = w.history ++ dataEdges (data.flatMap (bits 8)) ∧
      s'.cable.rx = if cmd.testBit 6 then readBack tdo w.history data else [] := by
  obtain ⟨c, last⟩ := s
  obtain ⟨hleft, hrx, hlast, hhist⟩ := h
  have hbyte : Cable.byte tdo c cmd = { c with left := cmd % 64, reading := cmd.testBit 6 } := by
    have hl : ¬ c.left ≠ 0 := by rw [not_not]; exact hleft
    rw [Cable.byte, if_neg hl, if_pos hcmd]
  obtain ⟨c', hc', hl, -, hh, hr⟩ := foldl_shiftByte tdo
    (c := { c with left := cmd % 64, reading := cmd.testBit 6 }) hdata htms
  refine ⟨⟨c', last⟩, ?_, hl, hlast, ?_, ?_⟩
  · rw [← hc', ← hbyte]
    rfl
  · exact hh.trans (congrArg (· ++ _) hhist)
  · have hrx' : c.rx = [] := hrx
    have hhist' : c.history = w.history := hhist
    rw [hr]
    simp only [hrx', hhist', List.nil_append]

theorem readDataBytes_eq {s : BlasterState} {w : Wire} (hleft : s.cable.left = 0) (hlast : s.last = w.last)
    (hhist : s.cable.history = w.history) {n : ℕ} {rx : List ℕ} (hrx : s.cable.rx = rx)
    (hn : rx.length = n) : ∃ s', readDataBytes n s = .ok rx s' ∧ At s' w := by
  refine ⟨{ s with cable := { s.cable with rx := [] } }, ?_, ⟨hleft, rfl, hlast, hhist⟩⟩
  rw [readDataBytes, hrx, ← hn, List.take_length, List.drop_length]

/-! ### Loops -/

/-- The loop of `shiftinoutval` clocks the bits of `val`, and adds up what it reads. -/
theorem readLoop_eq (n i val outval : ℕ) {s : BlasterState} {w : Wire} (h : At s w) :
    ∃ s', readLoop tdo n i val outval s =
        .ok (outval + value (w.shifted tdo (bits n val)) <<< i) s' ∧
      At s' (w.put (dataEdges (bits n val))) := by
  induction n generalizing i val outval s w with
  | zero => exact ⟨s, by simp [readLoop, Wire.shifted, pure, EStateM.pure], by simpa using h⟩
  | succ n ih =>
    obtain ⟨s₁, h₁, hs₁⟩ := readwritebit_eq tdo h false (val % 2 == 1)
    obtain ⟨s₂, h₂, hs₂⟩ := ih (i + 1) (val >>> 1) (outval + (tdo w.history).toNat <<< i) hs₁
    rw [Nat.shiftRight_one] at h₂ hs₂
    refine ⟨s₂, ?_, by simpa [bits] using hs₂⟩
    rw [readLoop, Prog.bind_ok h₁, Nat.shiftRight_one, h₂]
    simp only [bits, Wire.shifted, dataEdges_cons, sample_cons, value_cons, Wire.history_put,
      Nat.shiftLeft_eq, Nat.pow_succ]
    congr 1
    ring

/-- The loop of `shiftinval` clocks the bits of `val`. -/
theorem writeLoop_eq (n val : ℕ) {s : BlasterState} {w : Wire} (h : At s w) :
    ∃ s', writeLoop tdo n val s = .ok () s' ∧ At s' (w.put (dataEdges (bits n val))) := by
  induction n generalizing val s w with
  | zero => exact ⟨s, rfl, by simpa using h⟩
  | succ n ih =>
    obtain ⟨s₁, h₁, hs₁⟩ := writebit_eq tdo h false (val % 2 == 1)
    obtain ⟨s₂, h₂, hs₂⟩ := ih (val >>> 1) hs₁
    rw [Nat.shiftRight_one] at h₂ hs₂
    refine ⟨s₂, ?_, by simpa [bits] using hs₂⟩
    rw [writeLoop, Prog.bind_ok h₁, Nat.shiftRight_one, h₂]

/-- The commands: bit 7 is set, bit 6 tells a read, and the low bits are the count. -/
theorem command_bits {n : ℕ} (h : n < 64) :
    (BYTESHIFT ||| DORDWR ||| n).testBit 7 = true ∧ (BYTESHIFT ||| DORDWR ||| n).testBit 6 = true ∧
      (BYTESHIFT ||| DORDWR ||| n) % 64 = n ∧
      (BYTESHIFT ||| n).testBit 7 = true ∧ (BYTESHIFT ||| n).testBit 6 = false ∧
      (BYTESHIFT ||| n) % 64 = n := by
  have hall : ∀ n < 64, (BYTESHIFT ||| DORDWR ||| n).testBit 7 = true ∧
      (BYTESHIFT ||| DORDWR ||| n).testBit 6 = true ∧ (BYTESHIFT ||| DORDWR ||| n) % 64 = n ∧
      (BYTESHIFT ||| n).testBit 7 = true ∧ (BYTESHIFT ||| n).testBit 6 = false ∧
      (BYTESHIFT ||| n) % 64 = n := by decide
  exact hall n h

/-- A length is its bytes and the bits that are left. -/
theorem bits_split (length val : ℕ) :
    bits length val = bits (8 * (length / 8)) val ++ bits (length % 8) (val / 2 ^ (8 * (length / 8))) := by
  rw [← bits_add, Nat.div_add_mod]

/-- The bytes of a shift are its bits. -/
theorem bits_toBytes_mod (n val : ℕ) :
    (toBytes n (val % 2 ^ (n <<< 3))).flatMap (bits 8) = bits (8 * n) val := by
  rw [bits_toBytes, Nat.shiftLeft_eq, Nat.mul_comm n (2 ^ 3)]
  exact bits_mod (8 * n) val

/-- **A scan that reads**: whole bytes by a byte-shift command, and the bits that are left
one by one. -/
theorem shiftinoutval_eq {length : ℕ} (hlen : length < 512) (val : ℕ) {s : BlasterState} {w : Wire}
    (h : At s w) : ∃ s', shiftinoutval tdo length val s = .ok (value (w.shifted tdo (bits length val))) s' ∧
      At s' (w.put (dataEdges (bits length val))) := by
  have hn : length >>> 3 = length / 8 := Nat.shiftRight_eq_div_pow length 3
  have hlt : length / 8 < 64 := by omega
  have hmod : length / 8 % 64 = length / 8 := Nat.mod_eq_of_lt hlt
  have hrest : length - (length / 8) <<< 3 = length % 8 := by rw [Nat.shiftLeft_eq]; omega
  have hval : val >>> ((length / 8) <<< 3) = val / 2 ^ (8 * (length / 8)) := by
    rw [Nat.shiftRight_eq_div_pow, Nat.shiftLeft_eq, Nat.mul_comm]
  obtain ⟨hc7, hc6, hcount, -, -, -⟩ := command_bits hlt
  obtain ⟨s₁, h₁, hs₁, htms⟩ := write_ENA tdo h
  obtain ⟨s₂, h₂, hleft, hlast, hhist, hrx⟩ := write_shift tdo hs₁ htms hc7
    (hcount.trans (length_toBytes (length / 8) (val % 2 ^ ((length / 8) <<< 3))).symm)
  rw [hc6, if_pos rfl] at hrx
  rw [bits_toBytes_mod] at hhist
  obtain ⟨s₃, h₃, hs₃⟩ := readDataBytes_eq (w := w.put (dataEdges (bits (8 * (length / 8)) val)))
    (n := length / 8) hleft hlast hhist hrx (by simp)
  obtain ⟨s₄, h₄, hs₄⟩ := readLoop_eq tdo (length % 8) (length / 8 * 8)
    (val / 2 ^ (8 * (length / 8))) (value (w.shifted tdo (bits (8 * (length / 8)) val))) hs₃
  have hbits := bits_split length val
  refine ⟨s₄, ?_, by rw [hbits, dataEdges_append, ← Wire.put_put]; exact hs₄⟩
  have hnot : ¬ length / 8 > 63 := by omega
  simp only [shiftinoutval, hn, if_neg hnot, hmod]
  rw [Prog.bind_ok h₁, Prog.bind_ok h₂, Prog.bind_ok h₃, fromBytes_readBack, bits_toBytes_mod,
    length_readBack, length_toBytes, hrest, hval]
  refine h₄.trans ?_
  congr 1
  conv_rhs => rw [hbits, Wire.shifted, dataEdges_append, sample_append, value_append]
  simp [Wire.shifted, Nat.shiftLeft_eq, Nat.mul_comm]

/-- **A scan that does not read.** -/
theorem shiftinval_eq {length : ℕ} (hlen : length < 512) (val : ℕ) {s : BlasterState} {w : Wire}
    (h : At s w) : ∃ s', shiftinval tdo length val s = .ok () s' ∧
      At s' (w.put (dataEdges (bits length val))) := by
  have hn : length >>> 3 = length / 8 := Nat.shiftRight_eq_div_pow length 3
  by_cases hzero : length / 8 = 0
  · have hloop : byteLoop tdo (length + 1) (length >>> 3) val length s = .ok (length, val) s := by
      rw [byteLoop, hn, if_pos hzero]
      rfl
    obtain ⟨s', h', hs'⟩ := writeLoop_eq tdo length val h
    refine ⟨s', ?_, hs'⟩
    rw [shiftinval, Prog.bind_ok hloop]
    exact h'
  · have hlt : length / 8 < 64 := by omega
    have hmod : length / 8 % 64 = length / 8 := Nat.mod_eq_of_lt hlt
    have hrest : length - (length / 8) <<< 3 = length % 8 := by rw [Nat.shiftLeft_eq]; omega
    have hval : val >>> ((length / 8) <<< 3) = val / 2 ^ (8 * (length / 8)) := by
      rw [Nat.shiftRight_eq_div_pow, Nat.shiftLeft_eq, Nat.mul_comm]
    obtain ⟨-, -, -, hc7, hc6, hcount⟩ := command_bits hlt
    obtain ⟨s₁, h₁, hs₁, htms⟩ := write_ENA tdo h
    obtain ⟨s₂, h₂, hleft, hlast, hhist, hrx⟩ := write_shift tdo hs₁ htms hc7
      (hcount.trans (length_toBytes (length / 8) (val % 2 ^ ((length / 8) <<< 3))).symm)
    rw [hc6, if_neg (by decide)] at hrx
    rw [bits_toBytes_mod] at hhist
    have hs₂ : At s₂ (w.put (dataEdges (bits (8 * (length / 8)) val))) := ⟨hleft, hrx, hlast, hhist⟩
    obtain ⟨s₃, h₃, hs₃⟩ := writeLoop_eq tdo (length % 8) (val / 2 ^ (8 * (length / 8))) hs₂
    have hloop : byteLoop tdo (length + 1) (length >>> 3) val length s =
        .ok (length % 8, val / 2 ^ (8 * (length / 8))) s₂ := by
      obtain ⟨fuel, rfl⟩ : ∃ fuel, length = fuel + 1 := ⟨length - 1, by omega⟩
      rw [byteLoop, hn, if_neg hzero, hmod, if_neg hzero]
      dsimp only
      rw [Prog.bind_ok h₁, Prog.bind_ok h₂, Nat.sub_self, byteLoop, if_pos rfl, hrest, hval]
      rfl
    refine ⟨s₃, ?_, by rw [bits_split, dataEdges_append, ← Wire.put_put]; exact hs₃⟩
    rw [shiftinval, Prog.bind_ok hloop]
    exact h₃

/-! ### Moves -/

theorem At.dropLast {s : BlasterState} {w : Wire} (h : At s w) :
    At { s with last := none } ⟨none, w.history⟩ := ⟨h.left, h.rx, rfl, h.history⟩

/-- Once the bit kept back is gone, TMS moves with TDI low and nothing is read. -/
theorem tmsLoop_none (tms : BitSequence) (tdo' : ℕ) {s : BlasterState} {h : History} (hs : At s ⟨none, h⟩) :
    ∃ s', tmsLoop tdo tms false tdo' s = .ok tdo' s' ∧ At s' ⟨none, h ++ tms.map fun t => ⟨t, false⟩⟩ := by
  induction tms generalizing s h with
  | nil => exact ⟨s, rfl, by simpa using hs⟩
  | cons t tms ih =>
    obtain ⟨s₁, h₁, hs₁⟩ := writebit_eq tdo hs t false
    obtain ⟨s₂, h₂, hs₂⟩ := ih hs₁.dropLast
    refine ⟨s₂, ?_, by simpa using hs₂⟩
    have hlast : s.last = none := hs.last
    have hget : (get : M BlasterState) s = .ok s s := rfl
    rw [tmsLoop, Prog.bind_ok hget, hlast]
    simp only [pure_bind]
    rw [Prog.bind_ok h₁]
    exact h₂

/-- **A move**: the bit kept back goes out with the first TMS value, and only with it is
anything read. -/
theorem writeTms_eq (tms : BitSequence) (shouldRead : Bool) {s : BlasterState} {w : Wire} (hs : At s w) :
    ∃ s', writeTms tdo tms shouldRead s =
        .ok [shouldRead && decide (tms ≠ []) && w.last.isSome && tdo w.history] s' ∧
      At s' (w.afterTms tms) := by
  obtain ⟨s', hloop, hs'⟩ : ∃ s', tmsLoop tdo tms shouldRead 0 s =
      .ok (shouldRead && decide (tms ≠ []) && w.last.isSome && tdo w.history).toNat s' ∧
        At s' (w.afterTms tms) := by
    cases tms with
    | nil => exact ⟨s, by simp [tmsLoop, pure, EStateM.pure], hs⟩
    | cons t tms =>
      have hget : (get : M BlasterState) s = .ok s s := rfl
      have hedges : w.afterTms (t :: tms) =
          ⟨none, w.history ++ [⟨t, w.tdi⟩] ++ tms.map fun t => ⟨t, false⟩⟩ := by
        simp [Wire.afterTms, moveEdges]
      rw [tmsLoop, Prog.bind_ok hget, hs.last, hedges]
      obtain ⟨last, h⟩ := w
      cases last with
      | none =>
        obtain ⟨s₁, h₁, hs₁⟩ := writebit_eq tdo hs t false
        obtain ⟨s₂, h₂, hs₂⟩ := tmsLoop_none tdo tms 0 hs₁.dropLast
        refine ⟨s₂, ?_, hs₂⟩
        simp only [pure_bind]
        rw [Prog.bind_ok h₁]
        exact h₂.trans (by simp)
      | some b =>
        have htdi : Wire.tdi ⟨some b, h⟩ = b := by cases b <;> rfl
        rw [htdi]
        cases shouldRead with
        | true =>
          obtain ⟨s₁, h₁, hs₁⟩ := readwritebit_eq tdo hs t b
          obtain ⟨s₂, h₂, hs₂⟩ := tmsLoop_none tdo tms (tdo h).toNat hs₁.dropLast
          refine ⟨s₂, ?_, hs₂⟩
          simp only [if_true]
          rw [Prog.bind_ok h₁]
          exact h₂.trans (by simp)
        | false =>
          obtain ⟨s₁, h₁, hs₁⟩ := writebit_eq tdo hs t b
          obtain ⟨s₂, h₂, hs₂⟩ := tmsLoop_none tdo tms 0 hs₁.dropLast
          refine ⟨s₂, ?_, hs₂⟩
          simp only [Bool.false_eq_true, if_false, pure_bind]
          rw [Prog.bind_ok h₁]
          exact h₂.trans (by simp)
  refine ⟨s', ?_, hs'⟩
  rw [writeTms, Prog.bind_ok hloop, BitSequence.ofInt_bit]
  rfl

theorem keepLast_eq {out : BitSequence} {useLast : Bool} (hne : useLast = true → out ≠ [])
    {s : BlasterState} {w : Wire} (hs : At s w) : ∃ s',
      keepLast out useLast s = .ok (Wire.now out useLast) s' ∧
        At s' { w with last := if useLast then out.getLast? else w.last } := by
  cases useLast with
  | true =>
    refine ⟨{ s with last := out.getLast? }, ?_, hs.left, hs.rx, rfl, hs.history⟩
    rw [keepLast, if_pos rfl, List.getLast?_eq_some_getLast (hne rfl)]
    rfl
  | false => exact ⟨s, rfl, hs⟩

/-! ### The controller -/

/-- What there is to see of a state. -/
def wire (s : BlasterState) : Wire := ⟨s.last, s.cable.history⟩

theorem At.wire_eq {s : BlasterState} {w : Wire} (h : At s w) : wire s = w := by
  obtain ⟨last, hist⟩ := w
  have h₁ : s.last = last := h.last
  have h₂ : s.cable.history = hist := h.history
  rw [wire, h₁, h₂]

/-- **The controller is lawful.** -/
def lawful : (controller tdo).Lawful tdo where
  wire := wire
  Rest s := s.cable.left = 0 ∧ s.cable.rx = []
  unkept _ := false
  writeTms tms shouldRead s hs := by
    obtain ⟨s', h', hs'⟩ := writeTms_eq tdo tms shouldRead (w := wire s) ⟨hs.1, hs.2, rfl, rfl⟩
    refine ⟨s', h'.trans ?_, ⟨hs'.left, hs'.rx⟩, hs'.wire_eq⟩
    cases (wire s).last <;> simp
  read n s hn hs := by
    obtain ⟨s', h', hs'⟩ := shiftinoutval_eq tdo hn 0 (w := wire s) ⟨hs.1, hs.2, rfl, rfl⟩
    rw [bits_of_zero] at h' hs'
    refine ⟨s', ?_, ⟨hs'.left, hs'.rx⟩, hs'.wire_eq⟩
    change read tdo n s = _
    rw [read, Prog.bind_ok h', asRead]
    simp [Wire.shifted, pure, EStateM.pure]
  write out useLast s hok hs := by
    obtain ⟨s₁, h₁, hs₁⟩ := keepLast_eq hok.2 (w := wire s) ⟨hs.1, hs.2, rfl, rfl⟩
    obtain ⟨s', h', hs'⟩ := shiftinval_eq tdo hok.1 (value (Wire.now out useLast)) hs₁
    rw [bits_value] at hs'
    refine ⟨s', ?_, ⟨hs'.left, hs'.rx⟩, hs'.wire_eq⟩
    change write tdo out useLast s = _
    rw [write, Prog.bind_ok h₁, BitSequence.toInt_eq, h']
  writeread out useLast s hok hs := by
    obtain ⟨s₁, h₁, hs₁⟩ := keepLast_eq hok.2 (w := wire s) ⟨hs.1, hs.2, rfl, rfl⟩
    obtain ⟨s', h', hs'⟩ := shiftinoutval_eq tdo hok.1 (value (Wire.now out useLast)) hs₁
    rw [bits_value] at h' hs'
    refine ⟨s', ?_, ⟨hs'.left, hs'.rx⟩, hs'.wire_eq⟩
    change writeread tdo out useLast s = _
    rw [writeread, Prog.bind_ok h₁, BitSequence.toInt_eq, Prog.bind_ok h', asRead]
    simp [Wire.shifted, pure, EStateM.pure]
  reset s hs := by
    obtain ⟨s', h', hs'⟩ := writeTms_eq tdo (List.replicate 5 true) false (w := wire s)
      ⟨hs.1, hs.2, rfl, rfl⟩
    refine ⟨s', ?_, ⟨hs'.left, hs'.rx⟩, hs'.wire_eq⟩
    change reset tdo s = _
    rw [reset, Prog.bind_ok h']
    rfl

end Blaster

end PyOcdRiscv.Jtag
