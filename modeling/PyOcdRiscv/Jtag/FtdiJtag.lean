import PyOcdRiscv.Jtag.Controller
import PyOcdRiscv.Jtag.Mpsse

/-!
# The controller of an FTDI device

`JtagController` of `pyftdi/jtag.py`, the controller of the mode `f` of `dbgjtag.py`. It
stacks commands in a buffer and sends them together, when something is to be read, when TMS is
moved or when the buffer would get too long. Bits go eight to a byte as far as they do, and
the rest in a command of their own.

What there is to see of it is as if each call did its work at once (`At`): what is in the buffer
counts as done. nTRST is not used (`trst` is false there).
-/

namespace PyOcdRiscv.Jtag

open Lib

/-- How a call fails. -/
inductive FtdiFault where
  /-- An error of `Ftdi`. -/
  | ftdi (e : FtdiError)
  /-- One that other controllers and engines have as well. -/
  | jtag (f : Fault)
  /-- `JtagError('Invalid TMS length')`. -/
  | invalidTmsLength
  /-- `JtagError("Nothing to shift")`. -/
  | nothingToShift
  /-- `JtagError('Unable to read data from FTDI')`. -/
  | unableToRead
  /-- `JtagError("Cannot fit into FTDI fifo")`. -/
  | fifo
  /-- `OverflowError`, an item of an `array('B')`. -/
  | overflow
  /-- `ValueError("Internal error")`. -/
  | internal
  deriving DecidableEq, Repr

/-- A `JtagController`. -/
structure FtdiJtagState (υ : Type) where
  /-- `_ftdi`. -/
  ftdi : FtdiState υ
  /-- `_last`. -/
  last : Option Bool
  /-- `_write_buff`. -/
  writeBuff : List ℕ

/-- `tobytes(msby=True)`. -/
def BitSequence.tobytes (seq : BitSequence) : List ℕ :=
  ((List.range ((seq.length + 7) / 8)).map fun k =>
    ((seq.reverse.drop (8 * k)).take 8).foldl (fun byte b => byte <<< 1 ||| b.toNat) 0).reverse

/-- `BitSequence(bytes_=data, length=length)`. -/
def BitSequence.ofBytes (data : List ℕ) (length : ℕ) : BitSequence :=
  BitSequence.updateLength (data.flatMap (bits 8)) length false

namespace FtdiJtag

variable {υ : Type}

/-- The monad of its methods. -/
abbrev M (υ : Type) := EStateM FtdiFault (FtdiJtagState υ)

/-- A call on `self._ftdi`. -/
def onFtdi {α : Type} (x : Ftdi.M υ α) : M υ α := fun s =>
  match x s.ftdi with
  | .ok a f => .ok a { s with ftdi := f }
  | .error e f => .error (.ftdi e) { s with ftdi := f }

/-- `FTDI_PIPE_LEN`. -/
def FTDI_PIPE_LEN : ℕ := 512

variable (D : UsbDev υ) (C : FtdiConfig)

/-- `sync`. -/
def sync : M υ Unit := do
  let s ← get
  if s.writeBuff ≠ [] then
    let _ ← onFtdi (Ftdi.writeData D C s.writeBuff)
    modify fun s => { s with writeBuff := [] }

/-- `_stack_cmd`. -/
def stackCmd (cmd : List ℕ) : M υ Unit := do
  let s ← get
  if s.writeBuff.length + cmd.length + 1 ≥ FTDI_PIPE_LEN then sync D C
  modify fun s => { s with writeBuff := s.writeBuff ++ cmd }

/-- `out` in `write_tms`: the TMS values, and the bit kept back as the last of eight. -/
def tmsOut (tms : BitSequence) : Option Bool → BitSequence
  | some last => (BitSequence.updateLength tms 8 false).set 7 last
  | none => BitSequence.updateLength tms 8 false

/-- `write_tms`. -/
def writeTms (tms : BitSequence) : M υ Unit := do
  let length := tms.length
  if length = 0 then return
  if ¬ (0 < length ∧ length < 8) then throw .invalidTmsLength
  let s ← get
  let out := tmsOut tms s.last
  modify fun s => { s with last := none }
  stackCmd D C [Ftdi.WRITE_BITS_TMS_NVE, length - 1, out.toInt]
  sync D C

/-- `_read_bits`. -/
def readBits (length : ℕ) : M υ BitSequence := do
  if length > 8 then throw .fifo
  stackCmd D C [Ftdi.READ_BITS_NVE_LSB, length - 1]
  sync D C
  let data ← onFtdi (Ftdi.readDataBytes D C 1 4)
  match data with
  | [] => throw (.jtag .indexError)
  | byte :: _ => return BitSequence.ofInt (byte >>> (8 - length)) false length

/-- `_read_bytes`. -/
def readBytes (length : ℕ) : M υ BitSequence := do
  if length > FTDI_PIPE_LEN then throw .fifo
  let alen := length - 1
  stackCmd D C [Ftdi.READ_BYTES_NVE_LSB, alen % 256, alen / 256 % 256]
  sync D C
  let data ← onFtdi (Ftdi.readDataBytes D C length 4)
  return BitSequence.ofBytes data (8 * length)

/-- `read`. -/
def read (length : ℕ) : M υ BitSequence := do
  let byteCount := length / 8
  let bitCount := length - 8 * byteCount
  let bytes ← (if byteCount ≠ 0 then readBytes D C byteCount else pure [])
  let bits ← (if bitCount ≠ 0 then readBits D C bitCount else pure [])
  return bytes ++ bits

/-- `_write_bits`. -/
def writeBits (out : BitSequence) : M υ Unit :=
  stackCmd D C [Ftdi.WRITE_BITS_NVE_LSB, out.length - 1, out.toInt]

/-- `_write_bytes`. -/
def writeBytes (out : BitSequence) : M υ Unit :=
  let olen := out.tobytes.length - 1
  stackCmd D C ([Ftdi.WRITE_BYTES_NVE_LSB, olen % 256, olen / 256 % 256] ++ out.tobytes)

/-- `if use_last: (out, self._last) = (out[:-1], bool(out[-1]))`. -/
def keepLast (out : BitSequence) (useLast : Bool) : M υ BitSequence :=
  if useLast then
    match out.getLast? with
    | none => throw (.jtag .indexError)
    | some b => do
      modify fun s => { s with last := some b }
      return out.dropLast
  else return out

/-- `write`. -/
def write (out : BitSequence) (useLast : Bool) : M υ Unit := do
  let out ← keepLast out useLast
  let byteCount := out.length / 8
  let pos := 8 * byteCount
  let bitCount := out.length - pos
  (if byteCount ≠ 0 then writeBytes D C (out.take pos) else pure ())
  (if bitCount ≠ 0 then writeBits D C (out.drop pos) else pure ())

/-- The bytes that `shift_register` sends. -/
def pushBytes (out : BitSequence) : M υ Unit :=
  let byteCount := out.length / 8
  if byteCount ≠ 0 then
    let blen := byteCount - 1
    if blen > 255 then throw .overflow
    else stackCmd D C ([Ftdi.RW_BYTES_PVE_NVE_LSB, blen, blen / 256 % 256] ++ BitSequence.tobytes (out.take (8 * byteCount)))
  else pure ()

/-- And the bits. -/
def pushBits (out : BitSequence) : M υ Unit :=
  let pos := 8 * (out.length / 8)
  let bitCount := out.length - pos
  if bitCount ≠ 0 then stackCmd D C [Ftdi.RW_BITS_PVE_NVE_LSB, bitCount - 1, BitSequence.toInt (out.drop pos)]
  else pure ()

/-- The bytes that it gets back. -/
def popBytes (length : ℕ) : M υ BitSequence :=
  let byteCount := length / 8
  if byteCount ≠ 0 then do
    let data ← onFtdi (Ftdi.readDataBytes D C byteCount 4)
    if data = [] then throw .unableToRead else pure (BitSequence.ofBytes data (8 * byteCount))
  else pure []

/-- And the bits. -/
def popBits (length : ℕ) : M υ BitSequence :=
  let bitCount := length - 8 * (length / 8)
  if bitCount ≠ 0 then do
    let data ← onFtdi (Ftdi.readDataBytes D C 1 4)
    match data with
    | [] => throw .unableToRead
    | byte :: _ => pure (BitSequence.ofInt (byte >>> (8 - bitCount)) false bitCount)
  else pure []

/-- `shift_register`. -/
def shiftRegister (out : BitSequence) (useLast : Bool) : M υ BitSequence := do
  let length := out.length
  let out ← keepLast out useLast
  (if out.length / 8 = 0 ∧ out.length - 8 * (out.length / 8) = 0 then throw .nothingToShift else pure ())
  pushBytes D C out
  pushBits D C out
  sync D C
  let bytes ← popBytes D C length
  let bits ← popBits D C length
  if (bytes ++ bits).length ≠ length then throw .internal else return bytes ++ bits

/-- `reset`. -/
def reset : M υ Unit := writeTms D C (List.replicate 5 true)

/-! ### Between calls -/

variable {D C} {tdo : History → Bool}

/-- Settings that work. -/
structure Fits (C : FtdiConfig) : Prop where
  packet : 3 ≤ C.maxPacketSize
  chunk : 0 < C.writebufferChunksize

/-- The commands `cs` have been stacked, and some of them sent; of what they put out, `ret` has been
returned. -/
structure Holds (K : Mpsse D C.maxPacketSize tdo) (s : FtdiJtagState υ) (cs : List MpsseCmd) (ret : List ℕ) :
    Prop where
  valid : ∀ c ∈ cs, c.Valid
  split : ∃ cs₁ cs₂, cs = cs₁ ++ cs₂ ∧ K.sent s.ftdi.usbDev = cs₁.flatMap MpsseCmd.encode ∧
    s.writeBuff = cs₂.flatMap MpsseCmd.encode
  offset : s.ftdi.readoffset ≤ s.ftdi.readbuffer.length
  returned : K.delivered s.ftdi.usbDev = ret ++ Ftdi.cache s.ftdi

theorem onFtdi_ok {α : Type} {x : Ftdi.M υ α} {s : FtdiJtagState υ} {a : α} {f : FtdiState υ}
    (h : x s.ftdi = .ok a f) : onFtdi x s = .ok a { s with ftdi := f } := by
  simp only [onFtdi, h]

theorem get_ok (s : FtdiJtagState υ) : (get : M υ (FtdiJtagState υ)) s = .ok s s := rfl

variable {K : Mpsse D C.maxPacketSize tdo}

theorem sync_holds (hC : Fits C) {s : FtdiJtagState υ} {cs : List MpsseCmd} {ret : List ℕ} (h : Holds K s cs ret) :
    ∃ s', sync D C s = .ok () s' ∧ Holds K s' cs ret ∧ s'.writeBuff = [] ∧ s'.last = s.last := by
  obtain ⟨hvalid, ⟨cs₁, cs₂, hcs, hsent, hbuff⟩, hoff, hret⟩ := h
  by_cases hempty : s.writeBuff = []
  · refine ⟨s, ?_, ⟨hvalid, ⟨cs₁, cs₂, hcs, hsent, hbuff⟩, hoff, hret⟩, hempty, rfl⟩
    rw [sync, Prog.bind_ok (get_ok s), if_neg (not_not.mpr hempty)]
    rfl
  · obtain ⟨u', hwrite, hsent', hdel⟩ := Ftdi.writeData_accepts hC.chunk K.accepts
      (I := fun u => K.delivered u = K.delivered s.ftdi.usbDev) (fun data u hu => (K.delivered_write data u).trans hu)
      s.writeBuff s.ftdi rfl
    refine ⟨⟨{ s.ftdi with usbDev := u' }, s.last, []⟩, ?_, ⟨hvalid, ⟨cs, [], by simp, ?_, rfl⟩, hoff, ?_⟩, rfl, rfl⟩
    · rw [sync, Prog.bind_ok (get_ok s), if_pos hempty, Prog.bind_ok (onFtdi_ok hwrite)]
      rfl
    · rw [hsent', hsent, hbuff, hcs, List.flatMap_append]
    · exact hdel.trans hret

theorem stackCmd_holds (hC : Fits C) {s : FtdiJtagState υ} {cs : List MpsseCmd} {ret : List ℕ} (h : Holds K s cs ret)
    {c : MpsseCmd} (hc : c.Valid) :
    ∃ s', stackCmd D C c.encode s = .ok () s' ∧ Holds K s' (cs ++ [c]) ret ∧ s'.last = s.last := by
  have hpush (s : FtdiJtagState υ) (h : Holds K s cs ret) :
      Holds K { s with writeBuff := s.writeBuff ++ c.encode } (cs ++ [c]) ret := by
    obtain ⟨hvalid, ⟨cs₁, cs₂, hcs, hsent, hbuff⟩, hoff, hret⟩ := h
    refine ⟨?_, ⟨cs₁, cs₂ ++ [c], by rw [hcs, List.append_assoc], hsent, ?_⟩, hoff, hret⟩
    · intro c' hc'
      rcases List.mem_append.mp hc' with hc' | hc'
      · exact hvalid c' hc'
      · rwa [List.mem_singleton.mp hc']
    · rw [List.flatMap_append, ← hbuff, List.flatMap_singleton]
  by_cases hlong : s.writeBuff.length + c.encode.length + 1 ≥ FTDI_PIPE_LEN
  · obtain ⟨s', hsync, hs', -, hlast⟩ := sync_holds hC h
    refine ⟨_, ?_, hpush s' hs', hlast⟩
    rw [stackCmd, Prog.bind_ok (get_ok s), if_pos hlong]
    change (sync D C >>= fun _ => _) s = _
    rw [Prog.bind_ok hsync]
    rfl
  · refine ⟨_, ?_, hpush s h, rfl⟩
    rw [stackCmd, Prog.bind_ok (get_ok s), if_neg hlong]
    rfl

/-- When nothing is stacked, all commands have been sent. -/
theorem Holds.sent {s : FtdiJtagState υ} {cs : List MpsseCmd} {ret : List ℕ} (h : Holds K s cs ret)
    (hbuff : s.writeBuff = []) : K.sent s.ftdi.usbDev = cs.flatMap MpsseCmd.encode := by
  obtain ⟨cs₁, cs₂, hcs, hsent, hbuff₂⟩ := h.split
  rw [hcs, MpsseCmd.eq_nil_of_flatMap (hbuff₂.symm.trans hbuff), List.append_nil, hsent]

/-- What has been put out is read. -/
theorem readDataBytes_holds (hC : Fits C) {s : FtdiJtagState υ} {cs : List MpsseCmd} {ret out : List ℕ}
    (h : Holds K s cs ret) (hbuff : s.writeBuff = []) (hout : (MpsseRun.after tdo K.low cs).output = ret ++ out) {n : ℕ}
    (hn : n ≤ out.length) : ∃ s', onFtdi (Ftdi.readDataBytes D C n 4) s = .ok (out.take n) s' ∧
      Holds K s' cs (ret ++ out.take n) ∧ s'.writeBuff = [] ∧ s'.last = s.last := by
  have hsent := h.sent hbuff
  obtain ⟨hvalid, -, hoff, hret⟩ := h
  have hpending : Ftdi.pending K.owed s.ftdi = out := by
    have htotal := (K.executes _ cs hvalid hsent).2
    rw [hret, hout, List.append_assoc] at htotal
    exact List.append_cancel_left htotal
  have hwait : (K.wait s.ftdi.usbDev : ℤ) < 4 := by
    have hle := K.wait_le s.ftdi.usbDev
    omega
  obtain ⟨f', hread, hpending', hoff', -⟩ := Ftdi.readDataBytes_prompt hC.packet K.prompt n hoff
    (by rw [hpending]; exact hn) hwait
  rw [hpending] at hread hpending'
  have hkept : K.sent f'.usbDev = cs.flatMap MpsseCmd.encode :=
    Ftdi.readDataBytes_frame hC.packet K.prompt.toSends (I := fun u => K.sent u = cs.flatMap MpsseCmd.encode)
      (fun n u hu => (K.sent_read n u).trans hu) hread hsent
  refine ⟨{ s with ftdi := f' }, onFtdi_ok hread, ⟨hvalid, ⟨cs, [], by simp, hkept, hbuff⟩, hoff', ?_⟩, hbuff, rfl⟩
  have htotal := (K.executes _ cs hvalid hkept).2
  have hrest : Ftdi.cache f' ++ K.owed f'.usbDev = out.drop n := hpending'
  rw [hout, ← List.take_append_drop n out, ← hrest, ← List.append_assoc, ← List.append_assoc] at htotal
  exact List.append_cancel_right htotal

/-- **What there is to see between calls**: the pins as if all that has been stacked had been
executed; what was put out has been returned. -/
structure At (K : Mpsse D C.maxPacketSize tdo) (s : FtdiJtagState υ) (last : Option Bool) (p : Pins) : Prop where
  holds : ∃ cs, Holds K s cs (MpsseRun.after tdo K.low cs).output ∧ (MpsseRun.after tdo K.low cs).pins = p
  last : s.last = last

/-! ### Bytes -/

theorem octets_eq (n : ℕ) (l : List Bool) :
    octets n l = (List.range n).map fun k => value ((l.drop (8 * k)).take 8) := by
  induction n generalizing l with
  | zero => rfl
  | succ n ih =>
    rw [octets, ih, List.range_succ_eq_map, List.map_cons, List.map_map]
    congr 1
    refine List.map_congr_left fun k _ => ?_
    rw [List.drop_drop, Function.comp_apply, Nat.mul_succ, Nat.add_comm]

/-- Eight bits to a byte. -/
theorem tobytes_eq {l : BitSequence} {n : ℕ} (hl : l.length = 8 * n) : BitSequence.tobytes l = octets n l := by
  have hn : (l.length + 7) / 8 = n := by omega
  rw [BitSequence.tobytes, hn, octets_eq]
  refine List.ext_getElem (by simp) fun k hk hk' => ?_
  simp only [List.length_map, List.length_range] at hk'
  rw [List.getElem_reverse, List.getElem_map, List.getElem_map, List.getElem_range, List.getElem_range,
    List.length_map, List.length_range, List.drop_reverse, List.take_reverse, List.length_take]
  have hhigh : l.length - 8 * (n - 1 - k) = 8 * k + 8 := by omega
  have hlow : min (8 * k + 8) l.length - 8 = 8 * k := by omega
  have hchunk : (l.take (8 * k + 8)).drop (8 * k) = (l.drop (8 * k)).take 8 := by
    rw [List.drop_take, Nat.add_sub_cancel_left]
  rw [hhigh, hlow, hchunk]
  exact BitSequence.toInt_eq _

/-! ### Call by call -/

theorem stackCmd_at (hC : Fits C) {s : FtdiJtagState υ} {last : Option Bool} {p : Pins} (h : At K s last p)
    {c : MpsseCmd} (hc : c.Valid) (hquiet : ∀ sampled low, c.response sampled low = []) :
    ∃ s', stackCmd D C c.encode s = .ok () s' ∧ At K s' last (p.clock (c.edges p.tms p.tdi)) := by
  obtain ⟨⟨cs, hcs, rfl⟩, hlast⟩ := h
  obtain ⟨s', h', hs', hlast'⟩ := stackCmd_holds hC hcs hc
  refine ⟨s', h', ⟨cs ++ [c], ?_, ?_⟩, hlast'.trans hlast⟩
  · rw [MpsseRun.after_append, MpsseRun.exec, hquiet, List.append_nil]
    exact hs'
  · rw [MpsseRun.after_append]
    rfl

theorem sync_at (hC : Fits C) {s : FtdiJtagState υ} {last : Option Bool} {p : Pins} (h : At K s last p) :
    ∃ s', sync D C s = .ok () s' ∧ At K s' last p ∧ s'.writeBuff = [] := by
  obtain ⟨⟨cs, hcs, hp⟩, hlast⟩ := h
  obtain ⟨s', h', hs', hbuff, hlast'⟩ := sync_holds hC hcs
  exact ⟨s', h', ⟨⟨cs, hs', hp⟩, hlast'.trans hlast⟩, hbuff⟩

/-- When nothing is stacked, the device has made the edges. -/
theorem At.history {s : FtdiJtagState υ} {last : Option Bool} {p : Pins} (h : At K s last p) (hbuff : s.writeBuff = []) :
    K.history s.ftdi.usbDev = p.history := by
  obtain ⟨⟨cs, hcs, rfl⟩, -⟩ := h
  exact (K.executes _ cs hcs.valid (hcs.sent hbuff)).1

theorem tmsOut_eq {tms : BitSequence} (hlen : tms.length < 8) (last : Option Bool) :
    tmsOut tms last = tms ++ (List.replicate (7 - tms.length) false ++ [last.getD false]) := by
  have hext : BitSequence.updateLength tms 8 false = tms ++ (List.replicate (7 - tms.length) false ++ [false]) := by
    rw [BitSequence.updateLength, if_pos ⟨by decide, hlen⟩, ← List.replicate_succ']
    have hn : 8 - tms.length = 7 - tms.length + 1 := by omega
    rw [hn]
    rfl
  cases last with
  | none => exact hext
  | some b =>
    have hseven : (tms ++ List.replicate (7 - tms.length) false).length = 7 := by simp; omega
    rw [tmsOut, Option.getD_some, hext, ← List.append_assoc, ← List.append_assoc,
      List.set_append_right _ _ (by omega), hseven]
    rfl

theorem writeTms_at (hC : Fits C) {s : FtdiJtagState υ} {last : Option Bool} {p : Pins} (h : At K s last p)
    (tms : BitSequence) (hlen : tms.length < 8) : ∃ s', writeTms D C tms s = .ok () s' ∧
      At K s' (if tms = [] then last else none) (p.clock (tms.map fun t => ⟨t, last.getD false⟩)) ∧
      (tms ≠ [] ∨ s.writeBuff = [] → s'.writeBuff = []) := by
  by_cases htms : tms = []
  · subst htms
    have hclock : p.clock [] = p := by simp [Pins.clock]
    exact ⟨s, rfl, by rw [List.map_nil, hclock]; exact h, fun hor => hor.resolve_left (not_not.mpr rfl)⟩
  · have hpos : 0 < tms.length := List.length_pos_of_ne_nil htms
    have hout := tmsOut_eq hlen last
    have hlt : (tmsOut tms last).toInt < 256 := by
      have hlt := value_lt (tmsOut tms last)
      have height : (tmsOut tms last).length = 8 := by rw [hout]; simp; omega
      rwa [height, ← BitSequence.toInt_eq] at hlt
    have hbits : bits tms.length (tmsOut tms last).toInt = tms := by
      rw [BitSequence.toInt_eq, hout, bits_value_append]
    have htop : (tmsOut tms last).toInt.testBit 7 = last.getD false := by
      have hseven : (tms ++ List.replicate (7 - tms.length) false).length = 7 := by simp; omega
      rw [BitSequence.toInt_eq, hout, testBit_value, ← List.append_assoc, List.getD_append_right _ _ _ _ (by omega),
        hseven]
      rfl
    have hfresh : At K { s with last := none } none p := by
      obtain ⟨⟨cs, hcs, hp⟩, -⟩ := h
      exact ⟨⟨cs, ⟨hcs.valid, hcs.split, hcs.offset, hcs.returned⟩, hp⟩, rfl⟩
    obtain ⟨s₁, h₁, hs₁⟩ := stackCmd_at hC hfresh (c := .writeTms tms.length (tmsOut tms last).toInt)
      ⟨hpos, by omega, hlt⟩ fun _ _ => rfl
    obtain ⟨s₂, h₂, hs₂, hbuff⟩ := sync_at hC hs₁
    refine ⟨s₂, ?_, ?_, fun _ => hbuff⟩
    · have hmodify : (modify fun s => { s with last := none } : M υ Unit) s = .ok () { s with last := none } := rfl
      rw [writeTms, if_neg (by omega), if_neg (by omega)]
      change (get >>= fun s => _ : M υ Unit) s = _
      rw [Prog.bind_ok (get_ok s), h.last, Prog.bind_ok hmodify]
      exact (Prog.bind_ok h₁).trans h₂
    · rw [if_neg htms]
      rwa [MpsseCmd.edges, hbits, htop] at hs₂

/-! ### Scans -/

theorem clock_clock (p : Pins) (es₁ es₂ : List Edge) : (p.clock es₁).clock es₂ = p.clock (es₁ ++ es₂) := by
  simp only [Pins.clock, List.append_assoc, List.getLast?_append]
  cases es₂.getLast? <;> simp

@[simp] theorem clock_nil (p : Pins) : p.clock [] = p := by simp [Pins.clock]

/-- Data leaves TMS as it is. -/
theorem tms_clock (p : Pins) (l : List Bool) : (p.clock (l.map fun b => ⟨p.tms, b⟩)).tms = p.tms := by
  rw [Pins.clock, List.getLast?_map]
  cases l.getLast? <;> rfl

theorem keepLast_ok {out : BitSequence} {useLast : Bool} (h : useLast = true → out ≠ []) (s : FtdiJtagState υ) :
    keepLast out useLast s =
      .ok (Wire.now out useLast) { s with last := if useLast then out.getLast? else s.last } := by
  cases useLast with
  | false => rfl
  | true =>
    obtain ⟨b, hb⟩ := Option.ne_none_iff_exists'.mp (mt List.getLast?_eq_none_iff.mp (h rfl))
    rw [keepLast, if_pos rfl, Wire.now, if_pos rfl, if_pos rfl, hb]
    rfl

/-- The bytes of `out` that are whole. -/
def wholeBytes (out : BitSequence) : List ℕ := octets (out.length / 8) (out.take (8 * (out.length / 8)))

/-- The bits that are left. -/
def restBits (out : BitSequence) : BitSequence := out.drop (8 * (out.length / 8))

theorem tobytes_take (out : BitSequence) : BitSequence.tobytes (out.take (8 * (out.length / 8))) = wholeBytes out :=
  tobytes_eq (by rw [List.length_take]; omega)

@[simp] theorem length_wholeBytes (out : BitSequence) : (wholeBytes out).length = out.length / 8 := length_octets _ _

theorem length_restBits (out : BitSequence) : (restBits out).length = out.length - 8 * (out.length / 8) :=
  List.length_drop

/-- The whole bytes and the rest are all there is. -/
theorem flatMap_wholeBytes (out : BitSequence) : (wholeBytes out).flatMap (bits 8) ++ restBits out = out := by
  rw [wholeBytes, flatMap_octets (by rw [List.length_take]; omega), restBits, List.take_append_drop]

theorem wholeBytes_eq_nil {out : BitSequence} (h : out.length / 8 = 0) : (wholeBytes out) = [] := by
  rw [wholeBytes, h]
  rfl

theorem toInt_restBits_lt (out : BitSequence) : (restBits out).toInt < 256 := by
  have hlt := value_lt (restBits out)
  have hle : 2 ^ (restBits out).length ≤ 2 ^ 8 :=
    Nat.pow_le_pow_right (by decide) (by rw [length_restBits]; omega)
  rw [BitSequence.toInt_eq]
  exact Nat.lt_of_lt_of_le hlt hle

theorem bits_restBits (out : BitSequence) : bits (restBits out).length (restBits out).toInt = restBits out := by
  rw [BitSequence.toInt_eq, bits_value]

/-- **`write`**. -/
theorem write_at (hC : Fits C) {s : FtdiJtagState υ} {last : Option Bool} {p : Pins} (h : At K s last p)
    (out : BitSequence) (useLast : Bool) (hne : useLast = true → out ≠ []) (hlen : out.length < 524288) :
    ∃ s', write D C out useLast s = .ok () s' ∧ At K s' (if useLast then out.getLast? else last)
      (p.clock ((Wire.now out useLast).map fun b => ⟨p.tms, b⟩)) := by
  have hkeep := keepLast_ok hne s
  set last' := if useLast then out.getLast? else last with hlast'
  have hnow : (Wire.now out useLast).length ≤ out.length := Wire.length_now_le out useLast
  set now := Wire.now out useLast with hdef
  have h₀ : At K { s with last := if useLast then out.getLast? else s.last } last' p := by
    obtain ⟨⟨cs, hcs, hp⟩, hlast⟩ := h
    exact ⟨⟨cs, ⟨hcs.valid, hcs.split, hcs.offset, hcs.returned⟩, hp⟩, by rw [hlast', ← hlast]⟩
  -- the whole bytes
  obtain ⟨s₁, h₁, hs₁⟩ : ∃ s₁, (if now.length / 8 ≠ 0 then writeBytes D C (now.take (8 * (now.length / 8))) else pure () :
      M υ Unit) { s with last := if useLast then out.getLast? else s.last } = .ok () s₁ ∧
        At K s₁ last' (p.clock (((wholeBytes now).flatMap (bits 8)).map fun b => ⟨p.tms, b⟩)) := by
    by_cases hbytes : now.length / 8 = 0
    · refine ⟨_, by rw [if_neg (not_not.mpr hbytes)]; rfl, ?_⟩
      rw [wholeBytes_eq_nil hbytes]
      simpa using h₀
    · obtain ⟨s₁, h₁, hs₁⟩ := stackCmd_at hC h₀ (c := .writeBytes (wholeBytes now))
        ⟨by rw [length_wholeBytes]; omega, by rw [length_wholeBytes]; omega, octets_lt _ _⟩ fun _ _ => rfl
      refine ⟨s₁, ?_, hs₁⟩
      rw [if_pos hbytes, writeBytes, tobytes_take]
      exact h₁
  -- the bits that are left
  obtain ⟨s₂, h₂, hs₂⟩ : ∃ s₂, (if now.length - 8 * (now.length / 8) ≠ 0 then writeBits D C (restBits now) else pure () :
      M υ Unit) s₁ = .ok () s₂ ∧ At K s₂ last' (p.clock (now.map fun b => ⟨p.tms, b⟩)) := by
    by_cases hbits : now.length - 8 * (now.length / 8) = 0
    · have hnil : restBits now = [] := List.length_eq_zero_iff.mp ((length_restBits now).trans hbits)
      refine ⟨s₁, by rw [if_neg (not_not.mpr hbits)]; rfl, ?_⟩
      have hall := flatMap_wholeBytes now
      rw [hnil, List.append_nil] at hall
      rwa [hall] at hs₁
    · obtain ⟨s₂, h₂, hs₂⟩ := stackCmd_at hC hs₁ (c := .writeBits (restBits now).length (restBits now).toInt)
        ⟨by rw [length_restBits]; omega, by rw [length_restBits]; omega, toInt_restBits_lt now⟩ fun _ _ => rfl
      refine ⟨s₂, ?_, ?_⟩
      · rw [if_pos hbits]
        exact h₂
      · rw [MpsseCmd.edges, tms_clock, bits_restBits, clock_clock, ← List.map_append, flatMap_wholeBytes] at hs₂
        exact hs₂
  refine ⟨s₂, ?_, hs₂⟩
  rw [write, Prog.bind_ok hkeep]
  exact (Prog.bind_ok h₁).trans h₂

theorem ofBytes_octets {n : ℕ} {l : List Bool} (hl : l.length = 8 * n) : BitSequence.ofBytes (octets n l) (8 * n) = l := by
  rw [BitSequence.ofBytes, flatMap_octets hl, BitSequence.updateLength, if_neg (by omega)]

theorem ofInt_shiftRight {l : List Bool} (hl : 0 < l.length) (low : ℕ) :
    BitSequence.ofInt ((value l <<< (8 - l.length) + low % 2 ^ (8 - l.length)) >>> (8 - l.length)) false l.length = l := by
  rw [BitSequence.ofInt_eq hl, bits_shiftRight]

/-- A command is sent, and what it puts out is read. -/
theorem answer_at (hC : Fits C) {s : FtdiJtagState υ} {last : Option Bool} {p : Pins} (h : At K s last p) {c : MpsseCmd}
    (hc : c.Valid) {resp : List ℕ}
    (hresp : c.response (sample tdo p.history (c.edges p.tms p.tdi)) (K.low p.history) = resp) : ∃ s₁ s₂ s₃,
    stackCmd D C c.encode s = .ok () s₁ ∧ sync D C s₁ = .ok () s₂ ∧
      onFtdi (Ftdi.readDataBytes D C resp.length 4) s₂ = .ok resp s₃ ∧ At K s₃ last (p.clock (c.edges p.tms p.tdi)) := by
  obtain ⟨⟨cs, hcs, rfl⟩, hlast⟩ := h
  obtain ⟨s₁, h₁, hs₁, hlast₁⟩ := stackCmd_holds hC hcs hc
  obtain ⟨s₂, h₂, hs₂, hbuff, hlast₂⟩ := sync_holds hC hs₁
  have hout : (MpsseRun.after tdo K.low (cs ++ [c])).output = (MpsseRun.after tdo K.low cs).output ++ resp := by
    rw [MpsseRun.after_append, MpsseRun.exec, hresp]
  obtain ⟨s₃, h₃, hs₃, -, hlast₃⟩ := readDataBytes_holds hC hs₂ hbuff hout (Nat.le_refl _)
  rw [List.take_length] at h₃ hs₃
  refine ⟨s₁, s₂, s₃, h₁, h₂, h₃, ⟨cs ++ [c], by rw [hout]; exact hs₃, by rw [MpsseRun.after_append]; rfl⟩, ?_⟩
  rw [hlast₃, hlast₂, hlast₁, hlast]

theorem readBytes_at (hC : Fits C) {s : FtdiJtagState υ} {last : Option Bool} {p : Pins} (h : At K s last p) {n : ℕ}
    (hpos : 0 < n) (hn : n ≤ FTDI_PIPE_LEN) : ∃ s', readBytes D C n s =
        .ok (sample tdo p.history (List.replicate (8 * n) ⟨p.tms, p.tdi⟩)) s' ∧
      At K s' last (p.clock (List.replicate (8 * n) ⟨p.tms, p.tdi⟩)) := by
  have hfit : n ≤ 512 := hn
  obtain ⟨s₁, s₂, s₃, h₁, h₂, h₃, hs₃⟩ := answer_at hC h (c := .readBytes n) ⟨hpos, by omega⟩ rfl
  refine ⟨s₃, ?_, hs₃⟩
  have hlen : (sample tdo p.history (List.replicate (8 * n) ⟨p.tms, p.tdi⟩)).length = 8 * n := by simp
  rw [MpsseCmd.response, length_octets] at h₃
  rw [readBytes, if_neg (by omega)]
  refine (Prog.bind_ok h₁).trans ((Prog.bind_ok h₂).trans ((Prog.bind_ok h₃).trans ?_))
  rw [MpsseCmd.edges, ofBytes_octets hlen]
  rfl

theorem readBits_at (hC : Fits C) {s : FtdiJtagState υ} {last : Option Bool} {p : Pins} (h : At K s last p) {n : ℕ}
    (hpos : 0 < n) (hn : n ≤ 8) : ∃ s', readBits D C n s =
        .ok (sample tdo p.history (List.replicate n ⟨p.tms, p.tdi⟩)) s' ∧
      At K s' last (p.clock (List.replicate n ⟨p.tms, p.tdi⟩)) := by
  obtain ⟨s₁, s₂, s₃, h₁, h₂, h₃, hs₃⟩ := answer_at hC h (c := .readBits n) ⟨hpos, hn⟩ rfl
  refine ⟨s₃, ?_, hs₃⟩
  have hlen : (sample tdo p.history (List.replicate n ⟨p.tms, p.tdi⟩)).length = n := by simp
  have hint := ofInt_shiftRight (l := sample tdo p.history (List.replicate n ⟨p.tms, p.tdi⟩)) (by rw [hlen]; exact hpos)
    (K.low p.history)
  rw [hlen] at hint
  rw [readBits, if_neg (by omega)]
  refine (Prog.bind_ok h₁).trans ((Prog.bind_ok h₂).trans ((Prog.bind_ok h₃).trans ?_))
  dsimp only [MpsseCmd.response, MpsseCmd.edges]
  rw [hint]
  rfl

/-- **`read`**. -/
theorem read_at (hC : Fits C) {s : FtdiJtagState υ} {last : Option Bool} {p : Pins} (h : At K s last p) {n : ℕ}
    (hn : n / 8 ≤ FTDI_PIPE_LEN) : ∃ s', read D C n s =
        .ok (sample tdo p.history (List.replicate n ⟨p.tms, p.tdi⟩)) s' ∧
      At K s' last (p.clock (List.replicate n ⟨p.tms, p.tdi⟩)) := by
  have hpins (k : ℕ) : (p.clock (List.replicate k ⟨p.tms, p.tdi⟩)).tms = p.tms ∧
      (p.clock (List.replicate k ⟨p.tms, p.tdi⟩)).tdi = p.tdi := by
    cases k with
    | zero => simp
    | succ k => simp [Pins.clock, List.getLast?_replicate]
  have hsum : List.replicate n (⟨p.tms, p.tdi⟩ : Edge) = List.replicate (8 * (n / 8)) ⟨p.tms, p.tdi⟩ ++
      List.replicate (n - 8 * (n / 8)) ⟨p.tms, p.tdi⟩ := by
    rw [← List.replicate_add]
    congr 1
    omega
  obtain ⟨s₁, h₁, hs₁⟩ : ∃ s₁, (if n / 8 ≠ 0 then readBytes D C (n / 8) else pure [] : M υ BitSequence) s =
      .ok (sample tdo p.history (List.replicate (8 * (n / 8)) ⟨p.tms, p.tdi⟩)) s₁ ∧
        At K s₁ last (p.clock (List.replicate (8 * (n / 8)) ⟨p.tms, p.tdi⟩)) := by
    by_cases hbytes : n / 8 = 0
    · refine ⟨s, by rw [if_neg (not_not.mpr hbytes), hbytes]; rfl, ?_⟩
      rw [hbytes]
      simpa using h
    · rw [if_pos hbytes]
      exact readBytes_at hC h (by omega) hn
  obtain ⟨s₂, h₂, hs₂⟩ : ∃ s₂, (if n - 8 * (n / 8) ≠ 0 then readBits D C (n - 8 * (n / 8)) else pure [] :
      M υ BitSequence) s₁ = .ok (sample tdo (p.clock (List.replicate (8 * (n / 8)) ⟨p.tms, p.tdi⟩)).history
        (List.replicate (n - 8 * (n / 8)) ⟨p.tms, p.tdi⟩)) s₂ ∧
        At K s₂ last (p.clock (List.replicate n ⟨p.tms, p.tdi⟩)) := by
    by_cases hbits : n - 8 * (n / 8) = 0
    · refine ⟨s₁, by rw [if_neg (not_not.mpr hbits), hbits]; rfl, ?_⟩
      rw [hsum, hbits, List.replicate_zero, List.append_nil]
      exact hs₁
    · rw [if_pos hbits]
      obtain ⟨s₂, h₂, hs₂⟩ := readBits_at hC hs₁ (n := n - 8 * (n / 8)) (by omega) (by omega)
      rw [(hpins _).1, (hpins _).2] at h₂ hs₂
      exact ⟨s₂, h₂, by rwa [hsum, ← clock_clock]⟩
  refine ⟨s₂, ?_, hs₂⟩
  rw [read]
  refine (Prog.bind_ok h₁).trans ((Prog.bind_ok h₂).trans ?_)
  rw [hsum, sample_append]
  rfl

theorem pushBytes_holds (hC : Fits C) {s : FtdiJtagState υ} {cs : List MpsseCmd} {ret : List ℕ} (h : Holds K s cs ret)
    {out : BitSequence} (hlen : out.length / 8 ≤ 256) : ∃ s', pushBytes D C out s = .ok () s' ∧
      Holds K s' (cs ++ if out.length / 8 = 0 then [] else [.rwBytes (wholeBytes out)]) ret ∧ s'.last = s.last := by
  by_cases hbytes : out.length / 8 = 0
  · refine ⟨s, by rw [pushBytes, if_neg (not_not.mpr hbytes)]; rfl, ?_, rfl⟩
    rwa [if_pos hbytes, List.append_nil]
  · obtain ⟨s', h', hs', hlast⟩ := stackCmd_holds hC h (c := .rwBytes (wholeBytes out))
      ⟨by rw [length_wholeBytes]; omega, by rw [length_wholeBytes]; omega, octets_lt _ _⟩
    refine ⟨s', ?_, by rwa [if_neg hbytes], hlast⟩
    have hlow : (out.length / 8 - 1) % 256 = out.length / 8 - 1 := Nat.mod_eq_of_lt (by omega)
    rw [MpsseCmd.encode, MpsseCmd.lengthBytes, length_wholeBytes, hlow] at h'
    rw [pushBytes, if_pos hbytes, if_neg (by omega), tobytes_take]
    exact h'

theorem pushBits_holds (hC : Fits C) {s : FtdiJtagState υ} {cs : List MpsseCmd} {ret : List ℕ} (h : Holds K s cs ret)
    (out : BitSequence) : ∃ s', pushBits D C out s = .ok () s' ∧
      Holds K s' (cs ++ if (restBits out).length = 0 then [] else [.rwBits (restBits out).length (restBits out).toInt]) ret ∧
        s'.last = s.last := by
  by_cases hbits : (restBits out).length = 0
  · refine ⟨s, ?_, ?_, rfl⟩
    · rw [pushBits, if_neg (not_not.mpr (by rwa [length_restBits] at hbits))]
      rfl
    · rwa [if_pos hbits, List.append_nil]
  · obtain ⟨s', h', hs', hlast⟩ := stackCmd_holds hC h (c := .rwBits (restBits out).length (restBits out).toInt)
      ⟨by omega, by rw [length_restBits]; omega, toInt_restBits_lt out⟩
    refine ⟨s', ?_, by rwa [if_neg hbits], hlast⟩
    rw [pushBits, if_pos (by rwa [length_restBits] at hbits), ← length_restBits]
    exact h'

theorem popBytes_holds (hC : Fits C) {s : FtdiJtagState υ} {cs : List MpsseCmd} {ret rest l : List ℕ} (length : ℕ)
    {sampled : List Bool} (h : Holds K s cs ret) (hbuff : s.writeBuff = [])
    (hout : (MpsseRun.after tdo K.low cs).output = ret ++ (l ++ rest)) (hl : l = octets (length / 8) sampled)
    (hlen : sampled.length = 8 * (length / 8)) : ∃ s', popBytes D C length s = .ok sampled s' ∧
      Holds K s' cs (ret ++ l) ∧ s'.writeBuff = [] ∧ s'.last = s.last := by
  subst hl
  by_cases hbytes : length / 8 = 0
  · have hnil : sampled = [] := List.length_eq_zero_iff.mp (by omega)
    refine ⟨s, by rw [popBytes, if_neg (not_not.mpr hbytes), hnil]; rfl, ?_, hbuff, rfl⟩
    rwa [hbytes, octets, List.append_nil]
  · obtain ⟨s', h', hs', hbuff', hlast⟩ := readDataBytes_holds hC h hbuff hout (n := length / 8) (by simp)
    have htake : (octets (length / 8) sampled ++ rest).take (length / 8) = octets (length / 8) sampled :=
      List.take_left' (length_octets _ _)
    rw [htake] at h' hs'
    refine ⟨s', ?_, hs', hbuff', hlast⟩
    have hne : octets (length / 8) sampled ≠ [] := List.ne_nil_of_length_pos (by rw [length_octets]; omega)
    rw [popBytes, if_pos hbytes, Prog.bind_ok h', if_neg hne, ofBytes_octets hlen]
    rfl

/-- The byte in which a few bits come. -/
def restByte (l : List Bool) (low : ℕ) : List ℕ :=
  if l.length = 0 then [] else [value l <<< (8 - l.length) + low % 2 ^ (8 - l.length)]

theorem popBits_holds (hC : Fits C) {s : FtdiJtagState υ} {cs : List MpsseCmd} {ret : List ℕ} (length : ℕ) {low : ℕ}
    {sampled : List Bool} (h : Holds K s cs ret) (hbuff : s.writeBuff = [])
    (hout : (MpsseRun.after tdo K.low cs).output = ret ++ restByte sampled low)
    (hlen : sampled.length = length - 8 * (length / 8)) : ∃ s', popBits D C length s = .ok sampled s' ∧
      Holds K s' cs (ret ++ restByte sampled low) ∧ s'.writeBuff = [] ∧ s'.last = s.last := by
  by_cases hbits : sampled.length = 0
  · have hnil : sampled = [] := List.length_eq_zero_iff.mp hbits
    refine ⟨s, ?_, ?_, hbuff, rfl⟩
    · rw [popBits, if_neg (not_not.mpr (by omega)), hnil]
      rfl
    · rwa [restByte, if_pos hbits, List.append_nil]
  · rw [restByte, if_neg hbits] at hout ⊢
    obtain ⟨s', h', hs', hbuff', hlast⟩ := readDataBytes_holds hC h hbuff hout (n := 1) (Nat.le_refl _)
    refine ⟨s', ?_, hs', hbuff', hlast⟩
    have hint := ofInt_shiftRight (l := sampled) (by omega) low
    rw [hlen] at hint h'
    rw [popBits, if_pos (by omega), Prog.bind_ok h']
    dsimp only [List.take_succ_cons]
    rw [hint]
    rfl

/-- **`shift_register`**. -/
theorem shiftRegister_at (hC : Fits C) {s : FtdiJtagState υ} {last : Option Bool} {p : Pins} (h : At K s last p)
    {out : BitSequence} (hne : out ≠ []) (hlen : out.length / 8 ≤ 256) : ∃ s', shiftRegister D C out false s =
        .ok (sample tdo p.history (out.map fun b => ⟨p.tms, b⟩)) s' ∧
      At K s' last (p.clock (out.map fun b => ⟨p.tms, b⟩)) ∧ s'.writeBuff = [] := by
  have hkeep : keepLast out false s = .ok out s := rfl
  obtain ⟨⟨cs, hcs, rfl⟩, hlast⟩ := h
  obtain ⟨s₁, h₁, hs₁, hlast₁⟩ := pushBytes_holds hC hcs hlen
  obtain ⟨s₂, h₂, hs₂, hlast₂⟩ := pushBits_holds hC hs₁ out
  obtain ⟨s₃, h₃, hs₃, hbuff, hlast₃⟩ := sync_holds hC hs₂
  set p := (MpsseRun.after tdo K.low cs).pins with hp
  set es₁ : List Edge := ((wholeBytes out).flatMap (bits 8)).map fun b => ⟨p.tms, b⟩ with hes₁
  set es₂ : List Edge := (restBits out).map fun b => ⟨p.tms, b⟩ with hes₂
  have hes : (out.map fun b => (⟨p.tms, b⟩ : Edge)) = es₁ ++ es₂ := by
    rw [hes₁, hes₂, ← List.map_append, flatMap_wholeBytes]
  -- what is put out
  have hbytes : MpsseRun.after tdo K.low (cs ++ if out.length / 8 = 0 then [] else [.rwBytes (wholeBytes out)]) =
      ⟨p.clock es₁, (MpsseRun.after tdo K.low cs).output ++ octets (out.length / 8) (sample tdo p.history es₁)⟩ := by
    by_cases hzero : out.length / 8 = 0
    · rw [if_pos hzero, List.append_nil, hes₁, wholeBytes_eq_nil hzero, hzero, List.flatMap_nil, List.map_nil, clock_nil,
        octets, List.append_nil]
    · rw [if_neg hzero, MpsseRun.after_append, MpsseRun.exec, MpsseCmd.response, length_wholeBytes]
      rfl
  have hbits : MpsseRun.after tdo K.low (cs ++ (if out.length / 8 = 0 then [] else [.rwBytes (wholeBytes out)]) ++
      if (restBits out).length = 0 then [] else [.rwBits (restBits out).length (restBits out).toInt]) =
      ⟨p.clock (es₁ ++ es₂), (MpsseRun.after tdo K.low cs).output ++ (octets (out.length / 8) (sample tdo p.history es₁) ++
        restByte (sample tdo (p.history ++ es₁) es₂) (K.low (p.history ++ es₁)))⟩ := by
    have hsampled : (sample tdo (p.history ++ es₁) es₂).length = (restBits out).length := by simp [hes₂]
    by_cases hzero : (restBits out).length = 0
    · rw [if_pos hzero, List.append_nil, hbytes, restByte, if_pos (hsampled.trans hzero), hes₂,
        List.length_eq_zero_iff.mp hzero, List.map_nil, List.append_nil, List.append_nil]
    · rw [if_neg hzero, MpsseRun.after_append, hbytes, MpsseRun.exec, MpsseCmd.edges, bits_restBits, hes₁, tms_clock,
        clock_clock, restByte, if_neg (by rw [hsampled]; exact hzero), hsampled, ← List.append_assoc]
      rfl
  -- and read
  have hlen₁ : (sample tdo p.history es₁).length = 8 * (out.length / 8) := by
    rw [length_sample, hes₁, List.length_map, wholeBytes, flatMap_octets (by rw [List.length_take]; omega),
      List.length_take]
    omega
  have hlen₂ : (sample tdo (p.history ++ es₁) es₂).length = out.length - 8 * (out.length / 8) := by
    rw [length_sample, hes₂, List.length_map, length_restBits]
  obtain ⟨s₄, h₄, hs₄, hbuff₄, hlast₄⟩ := popBytes_holds hC out.length hs₃ hbuff (by rw [hbits]) rfl hlen₁
  obtain ⟨s₅, h₅, hs₅, hbuff₅, hlast₅⟩ :=
    popBits_holds hC out.length hs₄ hbuff₄ (by rw [hbits, ← List.append_assoc]) hlen₂
  refine ⟨s₅, ?_, ⟨⟨_, by rw [hbits, ← List.append_assoc]; exact hs₅, by rw [hbits, hes]⟩, ?_⟩, hbuff₅⟩
  · have hsome : ¬ (out.length / 8 = 0 ∧ out.length - 8 * (out.length / 8) = 0) := by
      have hpos := List.length_pos_of_ne_nil hne
      omega
    have hall : sample tdo p.history es₁ ++ sample tdo (p.history ++ es₁) es₂ =
        sample tdo p.history (out.map fun b => ⟨p.tms, b⟩) := by rw [hes, sample_append]
    have hlength : (sample tdo p.history es₁ ++ sample tdo (p.history ++ es₁) es₂).length = out.length := by
      rw [hall, length_sample, List.length_map]
    rw [shiftRegister, Prog.bind_ok hkeep, if_neg hsome]
    refine (Prog.bind_ok rfl).trans ((Prog.bind_ok h₁).trans ((Prog.bind_ok h₂).trans ((Prog.bind_ok h₃).trans
      ((Prog.bind_ok h₄).trans ((Prog.bind_ok h₅).trans ?_)))))
    rw [if_neg (not_not.mpr hlength), hall]
    rfl
  · rw [hlast₅, hlast₄, hlast₃, hlast₂, hlast₁, hlast]

end FtdiJtag

end PyOcdRiscv.Jtag
