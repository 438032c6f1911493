import PyOcdRiscv.Lib.Prog
import Mathlib.Data.Int.Notation
import Mathlib.Data.List.Basic

/-!
# Reading and writing an FTDI device

`write_data` and `read_data_bytes` of `pyftdi/ftdi.py`, over whatever USB device there is
(`UsbDev`). What is read comes in transfers, a transfer is a row of packets, and each packet
begins with two bytes of modem status, which `read_data_bytes` strips; it gives up after a number
of transfers with nothing in them, and keeps what it has read too much for the next call.

A device that frames the bytes it owes into such transfers (`Sends`) is a stream: what the
calls return, one after the other, is what the device owes (`readDataBytes_eq`). Dynamic
latency is left out; it is off unless it is asked for.
-/

namespace PyOcdRiscv.Jtag

open Lib

/-- A USB device; no answer is a `USBError`. -/
structure UsbDev (υ : Type) where
  /-- `write(in_ep, data)`: how many bytes have gone out. -/
  write : List ℕ → υ → Option ℤ × υ
  /-- `read(out_ep, chunksize)`. -/
  read : ℕ → υ → Option (List ℕ) × υ

/-- The settings of an `Ftdi`. -/
structure FtdiConfig where
  /-- `max_packet_size`. -/
  maxPacketSize : ℕ
  /-- `readbuffer_chunksize`. -/
  readbufferChunksize : ℕ
  /-- `writebuffer_chunksize`. -/
  writebufferChunksize : ℕ

/-- An `Ftdi`. -/
structure FtdiState (υ : Type) where
  /-- `usb_dev`. -/
  usbDev : υ
  /-- `readbuffer`. -/
  readbuffer : List ℕ
  /-- `readoffset`. -/
  readoffset : ℕ

/-- How a call fails. -/
inductive FtdiError where
  /-- `FtdiError("max_packet_size is bogus")`. -/
  | bogusPacketSize
  /-- `FtdiError("UsbError: ..")`. -/
  | usbError
  /-- `FtdiError("Usb bulk write error")`. -/
  | bulkWrite
  /-- `FtdiError("Internal error")`. -/
  | internal
  /-- A loop that does not end in the rounds it is given. -/
  | hang
  deriving DecidableEq, Repr

namespace Ftdi

variable {υ : Type}

/-- The monad of its methods. -/
abbrev M (υ : Type) := EStateM FtdiError (FtdiState υ)

variable (D : UsbDev υ) (C : FtdiConfig)

/-- `_read`. -/
def read_ : M υ (List ℕ) := fun s =>
  match D.read C.readbufferChunksize s.usbDev with
  | (some tempbuf, u) => .ok tempbuf { s with usbDev := u }
  | (none, u) => .error .usbError { s with usbDev := u }

/-- `_write`. -/
def write_ (data : List ℕ) : M υ ℤ := fun s =>
  match D.write data s.usbDev with
  | (some length, u) => .ok length { s with usbDev := u }
  | (none, u) => .error .usbError { s with usbDev := u }

/-- The loop of `write_data`, for at most `fuel` rounds. -/
def writeLoop (data : List ℕ) : ℕ → ℕ → M υ ℕ
  | 0, _ => throw .hang
  | fuel + 1, offset =>
    if offset < data.length then do
      let length ← write_ D ((data.drop offset).take (min C.writebufferChunksize (data.length - offset)))
      if length ≤ 0 then throw .bulkWrite
      writeLoop data fuel (offset + length.toNat)
    else return offset

/-- `write_data`. -/
def writeData (data : List ℕ) : M υ ℕ := writeLoop D C data (data.length + 1) 0

/-- What is left of a transfer without the status bytes: the packets one after the other. -/
def payload (packetSize : ℕ) (tempbuf : List ℕ) : List ℕ :=
  (List.range ((tempbuf.length + packetSize - 1) / packetSize)).flatMap fun chunk =>
    (tempbuf.drop (2 + chunk * packetSize)).take (packetSize - 2)

/-- The loops of `read_data_bytes`, for at most `fuel` transfers. -/
def readLoop (size : ℕ) : ℕ → List ℕ → ℤ → M υ (List ℕ)
  | 0, _, _ => throw .hang
  | fuel + 1, data, attempt => do
    let tempbuf ← read_ D C
    let attempt := attempt - 1
    if 2 < tempbuf.length then
      let readbuffer := payload C.maxPacketSize tempbuf
      modify fun s => { s with readbuffer := readbuffer, readoffset := 0 }
      if readbuffer.length = 0 then throw .internal
      if data.length + readbuffer.length ≤ size then
        modify fun s => { s with readoffset := readbuffer.length }
        if data.length + readbuffer.length = size then return data ++ readbuffer
        readLoop size fuel (data ++ readbuffer) attempt
      else
        let partSize := min (size - data.length) readbuffer.length
        modify fun s => { s with readoffset := partSize }
        return data ++ readbuffer.take partSize
    else if 0 < attempt then readLoop size fuel data attempt
    else
      modify fun s => { s with readbuffer := [], readoffset := 0 }
      return data

/-- `read_data_bytes`. -/
def readDataBytes (size : ℕ) (attempt : ℤ) : M υ (List ℕ) := do
  if C.maxPacketSize = 0 then throw .bogusPacketSize
  let s ← get
  if size + s.readoffset ≤ s.readbuffer.length then
    set { s with readoffset := s.readoffset + size }
    return (s.readbuffer.drop s.readoffset).take size
  let data := s.readbuffer.drop s.readoffset
  set { s with readoffset := s.readbuffer.length }
  readLoop D C size (size + attempt.toNat + 1) data attempt

/-- A row of calls. -/
def readAll : List (ℕ × ℤ) → M υ (List (List ℕ))
  | [] => pure []
  | (size, attempt) :: calls => do
    let data ← readDataBytes D C size attempt
    let rest ← readAll calls
    return data :: rest

/-! ### Framing -/

/-- `t` is a transfer that carries the bytes `p`: packets of two bytes of status and as many
bytes as there is room for, in the last one perhaps fewer. -/
inductive Framed (packetSize : ℕ) : List ℕ → List ℕ → Prop
  | nothing : Framed packetSize [] []
  | last (status₀ status₁ : ℕ) {body : List ℕ} (h : body.length ≤ packetSize - 2) :
      Framed packetSize body (status₀ :: status₁ :: body)
  | more (status₀ status₁ : ℕ) {body p t : List ℕ} (h : body.length = packetSize - 2) (hrest : Framed packetSize p t) :
      Framed packetSize (body ++ p) (status₀ :: status₁ :: body ++ t)

/-- The first packet, and the rest. -/
theorem payload_cons {packetSize : ℕ} (hsize : 3 ≤ packetSize) (status₀ status₁ : ℕ) {body : List ℕ} (t : List ℕ)
    (hbody : body.length = packetSize - 2) :
    payload packetSize (status₀ :: status₁ :: body ++ t) = body ++ payload packetSize t := by
  have hchunks : ((status₀ :: status₁ :: body ++ t).length + packetSize - 1) / packetSize =
      (t.length + packetSize - 1) / packetSize + 1 := by
    rw [show (status₀ :: status₁ :: body ++ t).length + packetSize - 1 =
      (t.length + packetSize - 1) + packetSize by simp [hbody]; omega, Nat.add_div_right _ (by omega)]
  rw [payload, hchunks, List.range_succ_eq_map, List.flatMap_cons, List.flatMap_map, payload]
  congr 1
  · rw [Nat.zero_mul, Nat.add_zero]
    exact List.take_left' hbody
  · refine List.flatMap_congr fun k _ => ?_
    have hdrop : 2 + (k + 1) * packetSize = packetSize + (2 + k * packetSize) := by rw [Nat.succ_mul]; omega
    have hpacket : (status₀ :: status₁ :: body).length = packetSize := by simp [hbody]; omega
    rw [hdrop, ← List.drop_drop, List.drop_left' hpacket]

/-- **What is stripped of a transfer is what it carries.** -/
theorem Framed.payload_eq {packetSize : ℕ} (hsize : 3 ≤ packetSize) {p t : List ℕ} (h : Framed packetSize p t) :
    payload packetSize t = p := by
  induction h with
  | nothing =>
    have hchunks : (([] : List ℕ).length + packetSize - 1) / packetSize = 0 := Nat.div_eq_of_lt (by simp; omega)
    rw [payload, hchunks]
    rfl
  | @last status₀ status₁ body h =>
    have hchunks : ((status₀ :: status₁ :: body).length + packetSize - 1) / packetSize = 1 := by
      rw [List.length_cons, List.length_cons]
      exact Nat.div_eq_of_lt_le (by omega) (by omega)
    rw [payload, hchunks]
    simpa using List.take_of_length_le h
  | more status₀ status₁ h hrest ih => rw [payload_cons hsize status₀ status₁ _ h, ih]

/-- A transfer of more than two bytes carries some. -/
theorem Framed.two_lt_iff {packetSize : ℕ} (hsize : 3 ≤ packetSize) {p t : List ℕ} (h : Framed packetSize p t) :
    2 < t.length ↔ p ≠ [] := by
  cases h with
  | nothing => simp
  | last status₀ status₁ h => simp [← List.length_pos_iff]
  | @more status₀ status₁ body p t h hrest =>
    have hpos : 0 < body.length := by omega
    have hne : body ++ p ≠ [] := by simp [List.ne_nil_of_length_pos hpos]
    exact iff_of_true (by simp; omega) hne

/-! ### What a device sends -/

/-- A device that sends, framed, what it owes. -/
structure Sends (D : UsbDev υ) (packetSize : ℕ) (owed : υ → List ℕ) : Prop where
  read : ∀ n u t, (D.read n u).1 = some t → ∃ p, Framed packetSize p t ∧ owed u = p ++ owed (D.read n u).2

/-- What has been read and not been asked for. -/
def cache (s : FtdiState υ) : List ℕ := s.readbuffer.drop s.readoffset

/-- What is still to come, from the buffer or from the device. -/
def pending (owed : υ → List ℕ) (s : FtdiState υ) : List ℕ := cache s ++ owed s.usbDev

variable {D C} {owed : υ → List ℕ}

theorem read_eq (s : FtdiState υ) : read_ D C s =
    match (D.read C.readbufferChunksize s.usbDev).1 with
    | some tempbuf => .ok tempbuf { s with usbDev := (D.read C.readbufferChunksize s.usbDev).2 }
    | none => .error .usbError { s with usbDev := (D.read C.readbufferChunksize s.usbDev).2 } := by
  rw [read_]
  rcases D.read C.readbufferChunksize s.usbDev with ⟨_ | t, u⟩ <;> rfl

/-- What a round of the loop does with the bytes `p` of a transfer: it goes on, or it ends. -/
theorem readLoop_succ (hsize : 3 ≤ C.maxPacketSize) (hD : Sends D C.maxPacketSize owed) (size fuel : ℕ) (data : List ℕ)
    (attempt : ℤ) (s : FtdiState υ) :
    let u' := (D.read C.readbufferChunksize s.usbDev).2
    ((D.read C.readbufferChunksize s.usbDev).1 = none ∧ ∃ s',
      readLoop D C size (fuel + 1) data attempt s = .error .usbError s') ∨
    ∃ p, owed s.usbDev = p ++ owed u' ∧
      ((p = [] ∧ 0 < attempt - 1 ∧
        readLoop D C size (fuel + 1) data attempt s = readLoop D C size fuel data (attempt - 1) { s with usbDev := u' }) ∨
      (p = [] ∧ ¬ 0 < attempt - 1 ∧ readLoop D C size (fuel + 1) data attempt s = .ok data ⟨u', [], 0⟩) ∨
      (p ≠ [] ∧ data.length + p.length < size ∧ readLoop D C size (fuel + 1) data attempt s =
        readLoop D C size fuel (data ++ p) (attempt - 1) ⟨u', p, p.length⟩) ∨
      (p ≠ [] ∧ data.length + p.length = size ∧
        readLoop D C size (fuel + 1) data attempt s = .ok (data ++ p) ⟨u', p, p.length⟩) ∨
      (p ≠ [] ∧ size < data.length + p.length ∧ readLoop D C size (fuel + 1) data attempt s =
        .ok (data ++ p.take (min (size - data.length) p.length)) ⟨u', p, min (size - data.length) p.length⟩)) := by
  intro u'
  cases hread : (D.read C.readbufferChunksize s.usbDev).1 with
  | none =>
    have h : read_ D C s = .error .usbError { s with usbDev := u' } := by
      rw [read_eq, hread]
    refine Or.inl ⟨rfl, { s with usbDev := u' }, ?_⟩
    rw [readLoop]
    simp only [Bind.bind, EStateM.bind, h]
  | some t =>
    have h : read_ D C s = .ok t { s with usbDev := u' } := by
      rw [read_eq, hread]
    obtain ⟨p, hframed, howed⟩ := hD.read _ _ _ hread
    refine Or.inr ⟨p, howed, ?_⟩
    rw [readLoop, Prog.bind_ok h]
    by_cases hp : p = []
    · have hshort : ¬ 2 < t.length := by rw [hframed.two_lt_iff hsize, not_not, hp]
      by_cases hmore : 0 < attempt - 1
      · exact Or.inl ⟨hp, hmore, by rw [if_neg hshort, if_pos hmore]⟩
      · exact Or.inr (Or.inl ⟨hp, hmore, by rw [if_neg hshort, if_neg hmore]; rfl⟩)
    · have hlong : 2 < t.length := (hframed.two_lt_iff hsize).mpr hp
      have hne : ¬ p.length = 0 := by simpa using hp
      rw [if_pos hlong, hframed.payload_eq hsize]
      rcases Nat.lt_trichotomy (data.length + p.length) size with hlt | heq | hgt
      · refine Or.inr (Or.inr (Or.inl ⟨hp, hlt, ?_⟩))
        dsimp only
        rw [if_neg hne, if_pos (Nat.le_of_lt hlt), if_neg (Nat.ne_of_lt hlt)]
        rfl
      · refine Or.inr (Or.inr (Or.inr (Or.inl ⟨hp, heq, ?_⟩)))
        dsimp only
        rw [if_neg hne, if_pos (Nat.le_of_eq heq), if_pos heq]
        rfl
      · refine Or.inr (Or.inr (Or.inr (Or.inr ⟨hp, hgt, ?_⟩)))
        dsimp only
        rw [if_neg hne, if_neg (Nat.not_le_of_lt hgt)]
        rfl

/-- How a call ends that had `before` to come: with the first bytes of it, or with an error of
the device. -/
def Serves (owed : υ → List ℕ) (size : ℕ) (before : List ℕ) :
    EStateM.Result FtdiError (FtdiState υ) (List ℕ) → Prop
  | .ok data s => before = data ++ pending owed s ∧ data.length ≤ size ∧ s.readoffset ≤ s.readbuffer.length
  | .error e _ => e = .usbError

theorem readLoop_serves (hsize : 3 ≤ C.maxPacketSize) (hD : Sends D C.maxPacketSize owed) {size fuel : ℕ}
    {data : List ℕ} {attempt : ℤ} (s : FtdiState υ) (hlt : data.length < size)
    (hfuel : size - data.length + attempt.toNat < fuel) :
    Serves owed size (data ++ owed s.usbDev) (readLoop D C size fuel data attempt s) := by
  induction fuel generalizing data attempt s with
  | zero => omega
  | succ fuel ih =>
    rcases readLoop_succ hsize hD size fuel data attempt s with ⟨-, s', h⟩ | ⟨p, howed, h⟩
    · rw [h]
      exact rfl
    · rw [howed]
      rcases h with ⟨rfl, hmore, h⟩ | ⟨rfl, -, h⟩ | ⟨hp, hlen, h⟩ | ⟨-, hlen, h⟩ | ⟨-, hlen, h⟩
      · rw [h]
        exact ih _ hlt (by omega)
      · rw [h]
        exact ⟨rfl, Nat.le_of_lt hlt, Nat.zero_le _⟩
      · rw [h, ← List.append_assoc]
        have hpos := List.length_pos_iff.mpr hp
        exact ih _ (by simpa using hlen) (by rw [List.length_append]; omega)
      · rw [h]
        refine ⟨?_, by rw [List.length_append]; omega, Nat.le_refl _⟩
        rw [pending, cache, List.drop_length, List.nil_append, List.append_assoc]
      · rw [h]
        refine ⟨?_, by rw [List.length_append, List.length_take]; omega, Nat.min_le_right _ _⟩
        change data ++ (p ++ _) = data ++ p.take _ ++ (p.drop _ ++ _)
        rw [List.append_assoc, ← List.append_assoc (p.take _), List.take_append_drop]

/-- What is in the buffer is returned at once if it is enough. -/
theorem readDataBytes_cached (hpacket : C.maxPacketSize ≠ 0) {size : ℕ} (attempt : ℤ) {s : FtdiState υ}
    (h : size + s.readoffset ≤ s.readbuffer.length) : readDataBytes D C size attempt s =
      .ok ((cache s).take size) { s with readoffset := s.readoffset + size } := by
  have hget : (get : M υ (FtdiState υ)) s = .ok s s := rfl
  rw [readDataBytes, if_neg hpacket]
  change (get >>= fun s => _ : M υ (List ℕ)) s = _
  rw [Prog.bind_ok hget, if_pos h]
  rfl

/-- Otherwise it is where the loop begins. -/
theorem readDataBytes_loop (hpacket : C.maxPacketSize ≠ 0) {size : ℕ} (attempt : ℤ) {s : FtdiState υ}
    (h : ¬ size + s.readoffset ≤ s.readbuffer.length) : readDataBytes D C size attempt s =
      readLoop D C size (size + attempt.toNat + 1) (cache s) attempt { s with readoffset := s.readbuffer.length } := by
  have hget : (get : M υ (FtdiState υ)) s = .ok s s := rfl
  rw [readDataBytes, if_neg hpacket]
  change (get >>= fun s => _ : M υ (List ℕ)) s = _
  rw [Prog.bind_ok hget, if_neg h]
  rfl

/-- **A call of `read_data_bytes`** returns the bytes that come next, never more than it is asked
for, and keeps those that it has read beyond. -/
theorem readDataBytes_serves (hsize : 3 ≤ C.maxPacketSize) (hD : Sends D C.maxPacketSize owed) (size : ℕ) (attempt : ℤ)
    {s : FtdiState υ} (hs : s.readoffset ≤ s.readbuffer.length) :
    Serves owed size (pending owed s) (readDataBytes D C size attempt s) := by
  have hpacket : C.maxPacketSize ≠ 0 := by omega
  by_cases hcache : size + s.readoffset ≤ s.readbuffer.length
  · rw [readDataBytes_cached hpacket attempt hcache]
    refine ⟨?_, List.length_take_le _ _, by rw [Nat.add_comm]; exact hcache⟩
    change cache s ++ _ = (cache s).take size ++ (s.readbuffer.drop (s.readoffset + size) ++ _)
    rw [← List.append_assoc, ← List.drop_drop]
    exact congrArg (· ++ _) (List.take_append_drop size (cache s)).symm
  · rw [readDataBytes_loop hpacket attempt hcache]
    have hlt : (cache s).length < size := by rw [cache, List.length_drop]; omega
    exact readLoop_serves hsize hD { s with readoffset := s.readbuffer.length } hlt (by omega)

theorem readAll_serves (hsize : 3 ≤ C.maxPacketSize) (hD : Sends D C.maxPacketSize owed) (calls : List (ℕ × ℤ))
    {s : FtdiState υ} (hs : s.readoffset ≤ s.readbuffer.length) :
    match readAll D C calls s with
    | .ok ds s' => pending owed s = ds.flatten ++ pending owed s' ∧
        List.Forall₂ (fun call data => data.length ≤ call.1) calls ds
    | .error e _ => e = .usbError := by
  induction calls generalizing s with
  | nil => exact ⟨rfl, .nil⟩
  | cons call calls ih =>
    obtain ⟨size, attempt⟩ := call
    have hserves := readDataBytes_serves hsize hD size attempt hs
    rw [readAll]
    cases hcall : readDataBytes D C size attempt s with
    | error e s' =>
      rw [hcall] at hserves
      simp only [Bind.bind, EStateM.bind, hcall]
      exact hserves
    | ok data s' =>
      rw [hcall] at hserves
      obtain ⟨hbefore, hlen, hs'⟩ := hserves
      rw [Prog.bind_ok hcall]
      have hrest := ih hs'
      cases hcalls : readAll D C calls s' with
      | error e s'' =>
        rw [hcalls] at hrest
        simp only [Bind.bind, EStateM.bind, hcalls]
        exact hrest
      | ok ds s'' =>
        rw [hcalls] at hrest
        rw [Prog.bind_ok hcalls]
        refine ⟨?_, .cons hlen hrest.2⟩
        rw [hbefore, hrest.1, List.flatten_cons, List.append_assoc]

/-- **What is read is a stream**: however a device cuts the bytes it owes into packets and
transfers, and with however many empty transfers between, any row of calls, of whatever sizes
and attempts, returns them in order and once, each call at most as many as it is asked for,
and the rest is still to come; only an error of the device makes a call fail. -/
theorem read_stream (hsize : 3 ≤ C.maxPacketSize) (hD : Sends D C.maxPacketSize owed) (u : υ) (calls : List (ℕ × ℤ)) :
    match readAll D C calls ⟨u, [], 0⟩ with
    | .ok ds s => owed u = ds.flatten ++ pending owed s ∧
        List.Forall₂ (fun call data => data.length ≤ call.1) calls ds
    | .error e _ => e = .usbError :=
  readAll_serves hsize hD calls (Nat.le_refl 0)

/-- A device that has some packets to send, and then none. -/
def queued (packetSize : ℕ) : UsbDev (List (List ℕ)) where
  write data u := (some data.length, u)
  read _ u := match u with
    | [] => (some [1, 96], [])
    | body :: u => (some (1 :: 96 :: body.take (packetSize - 2)), u)

theorem sends_queued (packetSize : ℕ) :
    Sends (queued packetSize) packetSize fun u => u.flatMap fun body => body.take (packetSize - 2) where
  read := by
    rintro n (_ | ⟨body, u⟩) t h
    · cases h
      exact ⟨[], .last 1 96 (Nat.zero_le _), rfl⟩
    · cases h
      exact ⟨_, .last 1 96 (List.length_take_le _ _), rfl⟩

/-- Six bytes in packets of two, none and four, asked for in other pieces. -/
theorem read_stream_queued : ∃ ds s,
    readAll (queued 6) ⟨6, 512, 512⟩ [(1, 1), (3, 4), (9, 4)] ⟨[[5, 6], [], [7, 8, 9, 10]], [], 0⟩ = .ok ds s ∧
      [5, 6, 7, 8, 9, 10] = ds.flatten ++ pending (List.flatMap (List.take 4)) s ∧ ds = [[5], [6, 7, 8], [9, 10]] := by
  have h := read_stream (D := queued 6) (C := ⟨6, 512, 512⟩) (by decide) (sends_queued 6) [[5, 6], [], [7, 8, 9, 10]]
    [(1, 1), (3, 4), (9, 4)]
  exact ⟨_, _, rfl, h.1, rfl⟩

/-! ### A device that is in time -/

/-- A device that always answers, and that has what it owes ready after `wait` empty transfers,
and then without a gap. -/
structure Prompt (D : UsbDev υ) (packetSize : ℕ) (owed : υ → List ℕ) (wait : υ → ℕ) : Prop
    extends Sends D packetSize owed where
  answers : ∀ n u, owed u ≠ [] → (D.read n u).1 ≠ none
  late : ∀ n u, owed u ≠ [] → 0 < wait u → owed (D.read n u).2 = owed u ∧ wait (D.read n u).2 + 1 = wait u
  due : ∀ n u, owed u ≠ [] → wait u = 0 → owed (D.read n u).2 ≠ owed u ∧ wait (D.read n u).2 = 0

variable {wait : υ → ℕ}

theorem readLoop_prompt (hsize : 3 ≤ C.maxPacketSize) (hD : Prompt D C.maxPacketSize owed wait) {size fuel : ℕ}
    (data : List ℕ) (attempt : ℤ) (s : FtdiState υ) (hlt : data.length < size)
    (hfuel : size - data.length + attempt.toNat < fuel) (howed : size - data.length ≤ (owed s.usbDev).length)
    (hwait : wait s.usbDev = 0 ∨ wait s.usbDev < attempt) :
    ∃ d s', readLoop D C size fuel data attempt s = .ok d s' ∧ d.length = size ∧
      wait s'.usbDev ≤ wait s.usbDev := by
  induction fuel generalizing data attempt s with
  | zero => omega
  | succ fuel ih =>
    have hne : owed s.usbDev ≠ [] := List.ne_nil_of_length_pos (by omega)
    rcases readLoop_succ hsize hD.toSends size fuel data attempt s with ⟨hnone, -⟩ | ⟨p, hp, h⟩
    · exact absurd hnone (hD.answers _ _ hne)
    · have hlate : p = [] → 0 < wait s.usbDev := by
        rintro rfl
        by_contra hc
        exact (hD.due C.readbufferChunksize _ hne (by omega)).1 hp.symm
      have hdue : p ≠ [] → wait s.usbDev = 0 := by
        intro hpne
        by_contra hc
        rw [(hD.late C.readbufferChunksize _ hne (by omega)).1] at hp
        exact hpne (List.self_eq_append_left.mp hp)
      rcases h with ⟨rfl, hmore, h⟩ | ⟨rfl, hless, h⟩ | ⟨hpne, hlen, h⟩ | ⟨hpne, hlen, h⟩ | ⟨hpne, hlen, h⟩
      · have hnext := hD.late C.readbufferChunksize _ hne (hlate rfl)
        obtain ⟨d, s', h', hd, hw⟩ := ih data (attempt - 1)
          { s with usbDev := (D.read C.readbufferChunksize s.usbDev).2 } hlt (by omega)
          (by rw [hnext.1]; exact howed) (by dsimp only; omega)
        exact ⟨d, s', h.trans h', hd, by dsimp only at hw; omega⟩
      · have := hlate rfl
        omega
      · have hnext := hD.due C.readbufferChunksize _ hne (hdue hpne)
        have hpos := List.length_pos_iff.mpr hpne
        rw [hp, List.length_append] at howed
        obtain ⟨d, s', h', hd, hw⟩ := ih (data ++ p) (attempt - 1)
          ⟨(D.read C.readbufferChunksize s.usbDev).2, p, p.length⟩ (by simpa using hlen)
          (by rw [List.length_append]; omega) (by rw [List.length_append]; dsimp only; omega) (Or.inl hnext.2)
        exact ⟨d, s', h.trans h', hd, by dsimp only at hw; omega⟩
      · have hnext := hD.due C.readbufferChunksize _ hne (hdue hpne)
        exact ⟨_, _, h, by rw [List.length_append]; omega, by dsimp only; omega⟩
      · have hnext := hD.due C.readbufferChunksize _ hne (hdue hpne)
        exact ⟨_, _, h, by rw [List.length_append, List.length_take]; omega, by dsimp only; omega⟩

/-- **A device that is in time is read in full.** -/
theorem readDataBytes_prompt (hsize : 3 ≤ C.maxPacketSize) (hD : Prompt D C.maxPacketSize owed wait) (size : ℕ)
    {attempt : ℤ} {s : FtdiState υ} (hs : s.readoffset ≤ s.readbuffer.length) (hlen : size ≤ (pending owed s).length)
    (hwait : wait s.usbDev < attempt) : ∃ s', readDataBytes D C size attempt s = .ok ((pending owed s).take size) s' ∧
      pending owed s' = (pending owed s).drop size ∧ s'.readoffset ≤ s'.readbuffer.length ∧
      wait s'.usbDev ≤ wait s.usbDev := by
  have hpacket : C.maxPacketSize ≠ 0 := by omega
  have hserves := readDataBytes_serves hsize hD.toSends size attempt hs
  obtain ⟨d, s', h, hd, hw⟩ : ∃ d s', readDataBytes D C size attempt s = .ok d s' ∧ d.length = size ∧
      wait s'.usbDev ≤ wait s.usbDev := by
    by_cases hcache : size + s.readoffset ≤ s.readbuffer.length
    · refine ⟨_, _, readDataBytes_cached hpacket attempt hcache, ?_, Nat.le_refl _⟩
      rw [cache, List.length_take, List.length_drop]
      omega
    · rw [readDataBytes_loop hpacket attempt hcache]
      have hcached : (cache s).length = s.readbuffer.length - s.readoffset := by rw [cache, List.length_drop]
      rw [pending, List.length_append] at hlen
      exact readLoop_prompt hsize hD _ _ { s with readoffset := s.readbuffer.length } (by omega) (by omega)
        (by dsimp only; omega) (Or.inr hwait)
  rw [h] at hserves
  obtain ⟨hbefore, -, hs'⟩ := hserves
  refine ⟨s', ?_, ?_, hs', hw⟩
  · rw [h, hbefore, List.take_left' hd]
  · rw [hbefore, List.drop_left' hd]

/-- What no transfer from the device changes. -/
theorem readLoop_frame (hsize : 3 ≤ C.maxPacketSize) (hD : Sends D C.maxPacketSize owed) {I : υ → Prop}
    (hI : ∀ n u, I u → I (D.read n u).2) {size fuel : ℕ} {data d : List ℕ} {attempt : ℤ} {s s' : FtdiState υ}
    (h : readLoop D C size fuel data attempt s = .ok d s') (hs : I s.usbDev) : I s'.usbDev := by
  induction fuel generalizing data attempt s with
  | zero => cases h
  | succ fuel ih =>
    have hnext := hI C.readbufferChunksize _ hs
    rcases readLoop_succ hsize hD size fuel data attempt s with ⟨-, s'', hround⟩ | ⟨p, -, hround⟩
    · cases hround.symm.trans h
    · rcases hround with ⟨-, -, hround⟩ | ⟨-, -, hround⟩ | ⟨-, -, hround⟩ | ⟨-, -, hround⟩ | ⟨-, -, hround⟩
      · exact ih (hround.symm.trans h) hnext
      · cases hround.symm.trans h
        exact hnext
      · exact ih (hround.symm.trans h) hnext
      · cases hround.symm.trans h
        exact hnext
      · cases hround.symm.trans h
        exact hnext

theorem readDataBytes_frame (hsize : 3 ≤ C.maxPacketSize) (hD : Sends D C.maxPacketSize owed) {I : υ → Prop}
    (hI : ∀ n u, I u → I (D.read n u).2) {size : ℕ} {d : List ℕ} {attempt : ℤ} {s s' : FtdiState υ}
    (h : readDataBytes D C size attempt s = .ok d s') (hs : I s.usbDev) : I s'.usbDev := by
  have hpacket : C.maxPacketSize ≠ 0 := by omega
  by_cases hcache : size + s.readoffset ≤ s.readbuffer.length
  · cases (readDataBytes_cached hpacket attempt hcache).symm.trans h
    exact hs
  · exact readLoop_frame hsize hD hI ((readDataBytes_loop hpacket attempt hcache).symm.trans h) hs

/-! ### A device that takes what is written -/

/-- A device that takes some of what it is offered, from the front. -/
structure Accepts (D : UsbDev υ) (sent : υ → List ℕ) : Prop where
  write : ∀ data u, data ≠ [] → ∃ n : ℕ, 0 < n ∧ n ≤ data.length ∧ (D.write data u).1 = some (n : ℤ) ∧
    sent (D.write data u).2 = sent u ++ data.take n

variable {sent : υ → List ℕ}

theorem writeLoop_accepts (hchunk : 0 < C.writebufferChunksize) (hD : Accepts D sent) {I : υ → Prop}
    (hI : ∀ data u, I u → I (D.write data u).2) {data : List ℕ} {fuel : ℕ} (offset : ℕ) (s : FtdiState υ)
    (hs : I s.usbDev) (hle : offset ≤ data.length) (hfuel : data.length - offset < fuel) :
    ∃ u', writeLoop D C data fuel offset s = .ok data.length { s with usbDev := u' } ∧
      sent u' = sent s.usbDev ++ data.drop offset ∧ I u' := by
  induction fuel generalizing offset s with
  | zero => omega
  | succ fuel ih =>
    rw [writeLoop]
    by_cases hlt : offset < data.length
    · set chunk := (data.drop offset).take (min C.writebufferChunksize (data.length - offset)) with hdef
      have hlen : chunk.length = min C.writebufferChunksize (data.length - offset) := by
        rw [hdef, List.length_take, List.length_drop]
        omega
      obtain ⟨n, hpos, hn, hres, hsent⟩ := hD.write chunk s.usbDev (List.ne_nil_of_length_pos (by omega))
      have hwrite : write_ D chunk s = .ok (n : ℤ) { s with usbDev := (D.write chunk s.usbDev).2 } := by
        rw [write_]
        rcases h : D.write chunk s.usbDev with ⟨r, u⟩
        rw [h] at hres
        dsimp only at hres
        rw [hres]
      have htake : data.drop offset = chunk.take n ++ data.drop (offset + n) := by
        rw [hdef, List.take_take, Nat.min_eq_left (by omega), ← List.drop_drop, List.take_append_drop]
      obtain ⟨u', h', hsent', hu'⟩ := ih (offset + n) { s with usbDev := (D.write chunk s.usbDev).2 }
        (hI chunk _ hs) (by omega) (by omega)
      refine ⟨u', ?_, ?_, hu'⟩
      · rw [if_pos hlt, Prog.bind_ok hwrite, if_neg (by omega), Int.toNat_natCast]
        exact h'
      · rw [hsent', hsent, htake, List.append_assoc]
    · rw [if_neg hlt]
      have heq : offset = data.length := by omega
      exact ⟨s.usbDev, by rw [heq]; rfl, by rw [heq, List.drop_length, List.append_nil], hs⟩

/-- **What is written goes out once and in order**, in as many pieces as the device likes. -/
theorem writeData_accepts (hchunk : 0 < C.writebufferChunksize) (hD : Accepts D sent) {I : υ → Prop}
    (hI : ∀ data u, I u → I (D.write data u).2) (data : List ℕ) (s : FtdiState υ) (hs : I s.usbDev) :
    ∃ u', writeData D C data s = .ok data.length { s with usbDev := u' } ∧ sent u' = sent s.usbDev ++ data ∧ I u' :=
  writeLoop_accepts hchunk hD hI 0 s hs (Nat.zero_le _) (by omega)

end Ftdi

end PyOcdRiscv.Jtag
