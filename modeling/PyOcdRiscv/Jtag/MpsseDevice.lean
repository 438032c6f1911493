import PyOcdRiscv.Jtag.Mpsse

/-!
# A device

A device that is as `Mpsse` asks, for any target: it collects the bytes it is sent until they
make a command, executes it, and sends what it puts out in packets of its own, two empty
transfers after the last byte. That it executes the commands that were encoded is that no
command begins with another (`decode_of_begins`).
-/

namespace PyOcdRiscv.Jtag

open Lib

/-- The command that bytes make, if they make one. -/
def MpsseCmd.decode : List ℕ → Option MpsseCmd
  | [op, a] => if op = Ftdi.READ_BITS_NVE_LSB then some (.readBits (a + 1)) else none
  | op :: a :: b :: data =>
    if op = Ftdi.WRITE_BYTES_NVE_LSB then if data.length = a + 256 * b + 1 then some (.writeBytes data) else none
    else if op = Ftdi.RW_BYTES_PVE_NVE_LSB then if data.length = a + 256 * b + 1 then some (.rwBytes data) else none
    else if data ≠ [] then none
    else if op = Ftdi.WRITE_BITS_NVE_LSB then some (.writeBits (a + 1) b)
    else if op = Ftdi.READ_BYTES_NVE_LSB then some (.readBytes (a + 256 * b + 1))
    else if op = Ftdi.RW_BITS_PVE_NVE_LSB then some (.rwBits (a + 1) b)
    else if op = Ftdi.WRITE_BITS_TMS_NVE then some (.writeTms (a + 1) b)
    else none
  | _ => none

namespace MpsseCmd

/-- The two bytes of a length give it back. -/
theorem lengthBytes_eq {n : ℕ} (hpos : 0 < n) (hn : n ≤ 65536) :
    (n - 1) % 256 + 256 * ((n - 1) / 256 % 256) + 1 = n := by
  omega

theorem decode_encode {c : MpsseCmd} (hc : c.Valid) : decode c.encode = some c := by
  cases c with
  | writeBytes data | rwBytes data =>
    have hlen := (lengthBytes_eq hc.1 hc.2.1).symm
    simp [encode, lengthBytes, decode, ← hlen, Ftdi.WRITE_BYTES_NVE_LSB, Ftdi.RW_BYTES_PVE_NVE_LSB]
  | readBytes n => simp [encode, lengthBytes, decode, lengthBytes_eq hc.1 hc.2, Ftdi.WRITE_BYTES_NVE_LSB,
      Ftdi.RW_BYTES_PVE_NVE_LSB, Ftdi.WRITE_BITS_NVE_LSB, Ftdi.READ_BYTES_NVE_LSB]
  | readBits n => simp [encode, decode, Nat.sub_add_cancel hc.1]
  | writeBits n byte | rwBits n byte | writeTms n byte =>
    simp [encode, decode, Nat.sub_add_cancel hc.1, Ftdi.WRITE_BYTES_NVE_LSB, Ftdi.RW_BYTES_PVE_NVE_LSB,
      Ftdi.WRITE_BITS_NVE_LSB, Ftdi.READ_BYTES_NVE_LSB, Ftdi.RW_BITS_PVE_NVE_LSB, Ftdi.WRITE_BITS_TMS_NVE]

/-- **No command begins with another.** -/
theorem decode_of_begins {c : MpsseCmd} (hc : c.Valid) {l rest : List ℕ} (h : c.encode = l ++ rest) (hrest : rest ≠ []) :
    decode l = none := by
  have hpos := List.length_pos_of_ne_nil hrest
  match l with
  | [] => rfl
  | [op] => rfl
  | [op, a] =>
    rw [decode, if_neg]
    rintro rfl
    cases c <;> simp_all [encode, lengthBytes, Ftdi.WRITE_BYTES_NVE_LSB, Ftdi.RW_BYTES_PVE_NVE_LSB,
      Ftdi.WRITE_BITS_NVE_LSB, Ftdi.READ_BYTES_NVE_LSB, Ftdi.RW_BITS_PVE_NVE_LSB, Ftdi.WRITE_BITS_TMS_NVE,
      Ftdi.READ_BITS_NVE_LSB]
  | op :: a :: b :: data =>
    cases c with
    | writeBytes data' | rwBytes data' =>
      have hlen := lengthBytes_eq hc.1 hc.2.1
      simp only [encode, lengthBytes, List.cons_append, List.nil_append, List.cons.injEq] at h
      obtain ⟨rfl, rfl, rfl, rfl⟩ := h
      have hshort : data.length ≠ (data ++ rest).length := by simpa using hrest
      rw [← hlen] at hshort
      simp only [decode, if_neg hshort]
      simp [Ftdi.WRITE_BYTES_NVE_LSB, Ftdi.RW_BYTES_PVE_NVE_LSB]
    | _ => simp_all [encode, lengthBytes]

end MpsseCmd

/-- What a device has done, and the bytes of a command that is not whole yet. -/
structure MpsseFeed where
  run : MpsseRun
  buffer : List ℕ

namespace MpsseFeed

variable (tdo : History → Bool) (low : History → ℕ)

/-- A byte comes in. -/
def feed (f : MpsseFeed) (byte : ℕ) : MpsseFeed :=
  match MpsseCmd.decode (f.buffer ++ [byte]) with
  | some c => ⟨f.run.exec tdo low c, []⟩
  | none => ⟨f.run, f.buffer ++ [byte]⟩

/-- What bytes come to. -/
def after (bytes : List ℕ) : MpsseFeed := bytes.foldl (feed tdo low) ⟨⟨.start, []⟩, []⟩

/-- What has been put out stays. -/
theorem output_feed (f : MpsseFeed) (byte : ℕ) : f.run.output <+: (f.feed tdo low byte).run.output := by
  rw [feed]
  split
  · exact List.prefix_append _ _
  · exact List.prefix_refl _

theorem output_feeds (f : MpsseFeed) (bytes : List ℕ) :
    f.run.output <+: (bytes.foldl (feed tdo low) f).run.output := by
  induction bytes generalizing f with
  | nil => exact List.prefix_refl _
  | cons byte bytes ih => exact (output_feed tdo low f byte).trans (ih _)

/-- **A command is executed when it is whole**, and not before. -/
theorem feeds_encode {c : MpsseCmd} (hc : c.Valid) (r : MpsseRun) {l rest : List ℕ} (h : c.encode = l ++ rest)
    (hrest : rest ≠ []) : rest.foldl (feed tdo low) ⟨r, l⟩ = ⟨r.exec tdo low c, []⟩ := by
  induction rest generalizing l with
  | nil => exact absurd rfl hrest
  | cons byte rest ih =>
    rw [List.append_cons] at h
    rw [List.foldl_cons, feed]
    by_cases hlast : rest = []
    · rw [hlast, List.append_nil] at h
      rw [hlast, ← h, MpsseCmd.decode_encode hc]
      rfl
    · rw [MpsseCmd.decode_of_begins hc h hlast]
      exact ih h hlast

theorem after_encode {cs : List MpsseCmd} (hcs : ∀ c ∈ cs, c.Valid) :
    after tdo low (cs.flatMap MpsseCmd.encode) = ⟨.after tdo low cs, []⟩ := by
  induction cs using List.reverseRecOn with
  | nil => rfl
  | append_singleton cs c ih =>
    have hlast : c.Valid := hcs c (by simp)
    rw [List.flatMap_append, List.flatMap_singleton, after, List.foldl_append]
    rw [after] at ih
    rw [ih fun c' hc' => hcs c' (List.mem_append_left _ hc'), feeds_encode tdo low hlast _ rfl c.encode_ne_nil,
      MpsseRun.after_append]

end MpsseFeed

/-- A device. -/
structure MpsseDevice (tdo : History → Bool) (low : History → ℕ) where
  /-- The bytes it has been sent. -/
  sent : List ℕ
  /-- The bytes it has sent. -/
  delivered : List ℕ
  /-- The empty transfers before the next of them. -/
  wait : ℕ
  delivered_begins : delivered <+: (MpsseFeed.after tdo low sent).run.output
  wait_le : wait ≤ 3

namespace MpsseDevice

variable {tdo : History → Bool} {low : History → ℕ}

/-- What it has put out and not sent. -/
def owed (u : MpsseDevice tdo low) : List ℕ := (MpsseFeed.after tdo low u.sent).run.output.drop u.delivered.length

/-- Before the first byte. -/
def fresh : MpsseDevice tdo low := ⟨[], [], 0, List.prefix_refl _, Nat.zero_le _⟩

theorem delivered_owed (u : MpsseDevice tdo low) : u.delivered ++ u.owed = (MpsseFeed.after tdo low u.sent).run.output := by
  obtain ⟨rest, hrest⟩ := u.delivered_begins
  rw [owed, ← hrest, List.drop_left]

/-- Bytes come in, and it takes a while. -/
def receive (data : List ℕ) (u : MpsseDevice tdo low) : MpsseDevice tdo low where
  sent := u.sent ++ data
  delivered := u.delivered
  wait := 2
  delivered_begins := by
    rw [MpsseFeed.after, List.foldl_append]
    exact u.delivered_begins.trans (MpsseFeed.output_feeds tdo low _ data)
  wait_le := by decide

/-- A transfer: the packet, or an empty one. -/
def transfer (packetSize : ℕ) (u : MpsseDevice tdo low) : List ℕ × MpsseDevice tdo low :=
  if u.wait = 0 then
    (1 :: 96 :: u.owed.take (packetSize - 2),
      { u with
        delivered := u.delivered ++ u.owed.take (packetSize - 2)
        delivered_begins := by
          rw [← u.delivered_owed, List.prefix_append_right_inj]
          exact List.take_prefix _ _ })
  else ([1, 96], { u with wait := u.wait - 1, wait_le := (Nat.sub_le _ _).trans u.wait_le })

/-- The device on the bus. -/
def usb (tdo : History → Bool) (low : History → ℕ) (packetSize : ℕ) : UsbDev (MpsseDevice tdo low) where
  write data u := (some data.length, u.receive data)
  read _ u := (some (u.transfer packetSize).1, (u.transfer packetSize).2)

theorem transfer_due {u : MpsseDevice tdo low} (h : u.wait = 0) (packetSize : ℕ) :
    (u.transfer packetSize).1 = 1 :: 96 :: u.owed.take (packetSize - 2) ∧
      u.owed = u.owed.take (packetSize - 2) ++ (u.transfer packetSize).2.owed ∧ (u.transfer packetSize).2.wait = 0 ∧
      (u.transfer packetSize).2.sent = u.sent := by
  have hall := (u.transfer packetSize).2.delivered_owed
  rw [transfer, if_pos h] at hall ⊢
  refine ⟨rfl, ?_, h, rfl⟩
  have hown := u.delivered_owed
  dsimp only at hall hown
  rw [← hown, List.append_assoc] at hall
  exact (List.append_cancel_left hall).symm

theorem transfer_late {u : MpsseDevice tdo low} (h : u.wait ≠ 0) (packetSize : ℕ) :
    (u.transfer packetSize).1 = [1, 96] ∧ (u.transfer packetSize).2.owed = u.owed ∧
      (u.transfer packetSize).2.wait + 1 = u.wait ∧ (u.transfer packetSize).2.sent = u.sent := by
  rw [transfer, if_neg h]
  exact ⟨rfl, rfl, Nat.sub_add_cancel (Nat.pos_of_ne_zero h), rfl⟩

/-- **It is a device as asked for.** -/
def mpsse (tdo : History → Bool) (low : History → ℕ) {packetSize : ℕ} (hsize : 3 ≤ packetSize) :
    Mpsse (usb tdo low packetSize) packetSize tdo where
  low := low
  sent := sent
  history u := (MpsseFeed.after tdo low u.sent).run.pins.history
  delivered := delivered
  owed := owed
  wait := wait
  accepts := ⟨fun data u hne => ⟨data.length, List.length_pos_of_ne_nil hne, Nat.le_refl _, rfl, by
    rw [List.take_length]
    rfl⟩⟩
  delivered_write _ _ := rfl
  sent_read n u := by
    by_cases h : u.wait = 0
    · exact (transfer_due h packetSize).2.2.2
    · exact (transfer_late h packetSize).2.2.2
  prompt := {
    read n u t ht := by
      obtain rfl : (u.transfer packetSize).1 = t := Option.some.inj ht
      by_cases h : u.wait = 0
      · obtain ⟨hbytes, howed, -⟩ := transfer_due h packetSize
        rw [hbytes]
        exact ⟨_, .last 1 96 (List.length_take_le _ _), howed⟩
      · obtain ⟨hbytes, howed, -⟩ := transfer_late h packetSize
        rw [hbytes]
        exact ⟨[], .last 1 96 (Nat.zero_le _), howed.symm⟩
    answers n u _ := Option.some_ne_none _
    late n u _ hpos := by
      obtain ⟨-, howed, hwait, -⟩ := transfer_late (Nat.pos_iff_ne_zero.mp hpos) packetSize
      exact ⟨howed, hwait⟩
    due n u hne hzero := by
      obtain ⟨-, howed, hwait, -⟩ := transfer_due hzero packetSize
      refine ⟨fun heq => ?_, hwait⟩
      change (u.transfer packetSize).2.owed = u.owed at heq
      have hlen := congrArg List.length howed
      rw [heq, List.length_append, List.length_take] at hlen
      have hpos := List.length_pos_of_ne_nil hne
      omega }
  wait_le := wait_le
  executes u cs hcs hsent := by
    have hrun := MpsseFeed.after_encode tdo low hcs
    rw [← hsent] at hrun
    refine ⟨by rw [hrun], ?_⟩
    rw [delivered_owed, hrun]

end MpsseDevice

end PyOcdRiscv.Jtag
