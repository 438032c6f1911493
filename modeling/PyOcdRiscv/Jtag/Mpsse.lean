import PyOcdRiscv.Jtag.Ftdi
import PyOcdRiscv.Lib.Tap

/-!
# The engine in an FTDI device

What the multi-protocol engine of an FTDI device does with the commands that `JtagController`
of `pyftdi/jtag.py` sends to it, by the names that `pyftdi/ftdi.py` has for them. The pins TMS
and TDI stay as the last command has left them, and a command that reads puts its bits into
bytes, least significant first, a few bits at the top of their byte.

The device is not part of this program: `Mpsse` is what is asked of one. It takes what is
written to it in pieces of its own, executes a command when it has it whole, and sends what
is to be sent, framed, after no more than three empty transfers.
-/

namespace PyOcdRiscv.Jtag

open Lib

/-- A command. -/
inductive MpsseCmd where
  /-- `WRITE_BYTES_NVE_LSB`. -/
  | writeBytes (data : List ℕ)
  /-- `WRITE_BITS_NVE_LSB`. -/
  | writeBits (length byte : ℕ)
  /-- `READ_BYTES_NVE_LSB`. -/
  | readBytes (length : ℕ)
  /-- `READ_BITS_NVE_LSB`. -/
  | readBits (length : ℕ)
  /-- `RW_BYTES_PVE_NVE_LSB`. -/
  | rwBytes (data : List ℕ)
  /-- `RW_BITS_PVE_NVE_LSB`. -/
  | rwBits (length byte : ℕ)
  /-- `WRITE_BITS_TMS_NVE`. -/
  | writeTms (length byte : ℕ)
  deriving DecidableEq, Repr

/-- What there is to see of the engine. -/
structure Pins where
  /-- The edges of TCK. -/
  history : History
  /-- TMS. -/
  tms : Bool
  /-- TDI. -/
  tdi : Bool

/-- The bytes that the bits make, least significant first. -/
def octets : ℕ → List Bool → List ℕ
  | 0, _ => []
  | n + 1, l => value (l.take 8) :: octets n (l.drop 8)

namespace Ftdi

def WRITE_BYTES_NVE_LSB : ℕ := 0x19
def WRITE_BITS_NVE_LSB : ℕ := 0x1b
def READ_BYTES_NVE_LSB : ℕ := 0x2c
def READ_BITS_NVE_LSB : ℕ := 0x2e
def RW_BYTES_PVE_NVE_LSB : ℕ := 0x39
def RW_BITS_PVE_NVE_LSB : ℕ := 0x3b
def WRITE_BITS_TMS_NVE : ℕ := 0x4b

end Ftdi

namespace MpsseCmd

/-- The length, less one, in two bytes. -/
def lengthBytes (length : ℕ) : List ℕ := [(length - 1) % 256, (length - 1) / 256 % 256]

/-- The bytes of a command. -/
def encode : MpsseCmd → List ℕ
  | writeBytes data => Ftdi.WRITE_BYTES_NVE_LSB :: lengthBytes data.length ++ data
  | writeBits length byte => [Ftdi.WRITE_BITS_NVE_LSB, length - 1, byte]
  | readBytes length => Ftdi.READ_BYTES_NVE_LSB :: lengthBytes length
  | readBits length => [Ftdi.READ_BITS_NVE_LSB, length - 1]
  | rwBytes data => Ftdi.RW_BYTES_PVE_NVE_LSB :: lengthBytes data.length ++ data
  | rwBits length byte => [Ftdi.RW_BITS_PVE_NVE_LSB, length - 1, byte]
  | writeTms length byte => [Ftdi.WRITE_BITS_TMS_NVE, length - 1, byte]

/-- The commands there are. -/
def Valid : MpsseCmd → Prop
  | writeBytes data | rwBytes data => 0 < data.length ∧ data.length ≤ 65536 ∧ ∀ b ∈ data, b < 256
  | writeBits length byte | rwBits length byte => 0 < length ∧ length ≤ 8 ∧ byte < 256
  | readBytes length => 0 < length ∧ length ≤ 65536
  | readBits length => 0 < length ∧ length ≤ 8
  | writeTms length byte => 0 < length ∧ length ≤ 7 ∧ byte < 256

/-- The edges it makes, with the pins as they are. -/
def edges (tms tdi : Bool) : MpsseCmd → List Edge
  | writeBytes data | rwBytes data => (data.flatMap (bits 8)).map fun b => ⟨tms, b⟩
  | writeBits length byte | rwBits length byte => (bits length byte).map fun b => ⟨tms, b⟩
  | readBytes length => List.replicate (8 * length) ⟨tms, tdi⟩
  | readBits length => List.replicate length ⟨tms, tdi⟩
  | writeTms length byte => (bits length byte).map fun b => ⟨b, byte.testBit 7⟩

/-- What it puts out, when TDO has shown `sampled`; a few bits leave the bottom of their byte
as `low` has it. -/
def response (sampled : List Bool) (low : ℕ) : MpsseCmd → List ℕ
  | readBytes length => octets length sampled
  | rwBytes data => octets data.length sampled
  | readBits length | rwBits length _ => [value sampled <<< (8 - length) + low % 2 ^ (8 - length)]
  | writeBytes _ | writeBits _ _ | writeTms _ _ => []

end MpsseCmd

namespace Pins

/-- Edges are made. -/
def clock (p : Pins) (es : List Edge) : Pins where
  history := p.history ++ es
  tms := (es.getLast?.map Edge.tms).getD p.tms
  tdi := (es.getLast?.map Edge.tdi).getD p.tdi

/-- Before the first command, with all pins low. -/
def start : Pins := ⟨[], false, false⟩

end Pins

/-- The pins, and the bytes that have been put out. -/
structure MpsseRun where
  pins : Pins
  output : List ℕ

namespace MpsseRun

variable (tdo : History → Bool) (low : History → ℕ)

/-- A command is executed. -/
def exec (r : MpsseRun) (c : MpsseCmd) : MpsseRun where
  pins := r.pins.clock (c.edges r.pins.tms r.pins.tdi)
  output := r.output ++
    c.response (sample tdo r.pins.history (c.edges r.pins.tms r.pins.tdi)) (low r.pins.history)

/-- What commands come to. -/
def after (cs : List MpsseCmd) : MpsseRun := cs.foldl (exec tdo low) ⟨.start, []⟩

end MpsseRun

/-- **What is asked of a device**, with a target that shows `tdo`. -/
structure Mpsse {υ : Type} (D : UsbDev υ) (packetSize : ℕ) (tdo : History → Bool) where
  /-- What a byte of a few bits holds besides them. -/
  low : History → ℕ
  /-- The bytes it has been sent. -/
  sent : υ → List ℕ
  /-- The edges it has made. -/
  history : υ → History
  /-- The bytes it has sent, -/
  delivered : υ → List ℕ
  /-- and those it has yet to send. -/
  owed : υ → List ℕ
  /-- The empty transfers that come before them. -/
  wait : υ → ℕ
  accepts : Ftdi.Accepts D sent
  delivered_write : ∀ data u, delivered (D.write data u).2 = delivered u
  sent_read : ∀ n u, sent (D.read n u).2 = sent u
  prompt : Ftdi.Prompt D packetSize owed wait
  wait_le : ∀ u, wait u ≤ 3
  /-- Commands it has whole are executed. -/
  executes : ∀ u cs, (∀ c ∈ cs, c.Valid) → sent u = cs.flatMap MpsseCmd.encode →
    history u = (MpsseRun.after tdo low cs).pins.history ∧ delivered u ++ owed u = (MpsseRun.after tdo low cs).output

theorem MpsseCmd.encode_ne_nil (c : MpsseCmd) : c.encode ≠ [] := by
  cases c <;> exact List.cons_ne_nil _ _

theorem MpsseCmd.eq_nil_of_flatMap {cs : List MpsseCmd} (h : cs.flatMap MpsseCmd.encode = []) : cs = [] := by
  cases cs with
  | nil => rfl
  | cons c cs => exact absurd (List.append_eq_nil_iff.mp h).1 c.encode_ne_nil

theorem MpsseRun.after_append (tdo : History → Bool) (low : History → ℕ) (cs : List MpsseCmd) (c : MpsseCmd) :
    after tdo low (cs ++ [c]) = (after tdo low cs).exec tdo low c := List.foldl_concat ..

/-! ### Bytes -/

@[simp] theorem length_octets (n : ℕ) (l : List Bool) : (octets n l).length = n := by
  induction n generalizing l with
  | zero => rfl
  | succ n ih => simp [octets, ih]

theorem octets_lt (n : ℕ) (l : List Bool) : ∀ b ∈ octets n l, b < 256 := by
  induction n generalizing l with
  | zero => simp [octets]
  | succ n ih =>
    intro b hb
    rcases List.mem_cons.mp hb with rfl | hb
    · have hlt := value_lt (l.take 8)
      have hle : 2 ^ (l.take 8).length ≤ 2 ^ 8 := Nat.pow_le_pow_right (by decide) (by rw [List.length_take]; omega)
      exact Nat.lt_of_lt_of_le hlt hle
    · exact ih _ b hb

/-- **Bits into bytes and back**. -/
theorem flatMap_octets {n : ℕ} {l : List Bool} (hl : l.length = 8 * n) : (octets n l).flatMap (bits 8) = l := by
  induction n generalizing l with
  | zero => exact (List.length_eq_zero_iff.mp hl).symm
  | succ n ih =>
    have htake : (l.take 8).length = 8 := by rw [List.length_take]; omega
    have hbits : bits 8 (value (l.take 8)) = l.take 8 := by
      have h := bits_value (l.take 8)
      rwa [htake] at h
    rw [octets, List.flatMap_cons, hbits, ih (by rw [List.length_drop]; omega), List.take_append_drop]

/-- **A few bits out of a byte**: they are at the top of it. -/
theorem bits_shiftRight (l : List Bool) (low : ℕ) :
    bits l.length ((value l <<< (8 - l.length) + low % 2 ^ (8 - l.length)) >>> (8 - l.length)) = l := by
  have hlow : low % 2 ^ (8 - l.length) < 2 ^ (8 - l.length) := Nat.mod_lt _ (Nat.two_pow_pos _)
  rw [Nat.shiftLeft_eq, Nat.shiftRight_eq_div_pow, Nat.add_comm, Nat.add_mul_div_right _ _ (Nat.two_pow_pos _),
    Nat.div_eq_of_lt hlow, Nat.zero_add, bits_value]

end PyOcdRiscv.Jtag
