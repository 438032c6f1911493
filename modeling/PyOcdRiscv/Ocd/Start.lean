import PyOcdRiscv.Jtag.FtdiEngine
import PyOcdRiscv.Jtag.SessionStart
import PyOcdRiscv.Target.DmiJtagTap
import PyOcdRiscv.Target.JtagBridge
import PyOcdRiscv.Target.ReveTap

/-!
# The targets at the start of a session

`archmap` of `dbgjtag.py`, and the TAPs of the four targets in simulation. Murax and Saxon
have the same TAP, with an instruction register of four bits; those of Pulp and Reve have
five, and each keeps it in another way: Pulp in a register of its own, Reve in the low bits
of the register it shifts everything in. With a Blaster the program takes the length from
`archmap`; in simulation it finds the same one out (`sessionStart_finds`), and with an FTDI
device too (`sessionStart_finds_ftdi`).
-/

namespace PyOcdRiscv.Ocd

open Lib Jtag Target

/-! ### The architectures -/

/-- The names in `archmap`. -/
inductive Arch where
  | murax | saxon | pulp | reve
  deriving DecidableEq, Repr

/-- `Archdata`, less the class of the driver. -/
structure Archdata where
  /-- `membaseadr`. -/
  membaseadr : ℕ
  /-- `bootadr`. -/
  bootadr : ℕ
  /-- `irsize`. -/
  irsize : ℕ

/-- `archmap`. -/
def archmap : Arch → Archdata
  | .murax => ⟨0x80000000, 0x80000000, 4⟩
  | .saxon => ⟨0x10A00000, 0x10A00000, 4⟩
  | .pulp => ⟨0x30000000, 0x30000080, 5⟩
  | .reve => ⟨0x00000000, 0x0, 5⟩

/-! ### Their TAPs -/

theorem bits_ne_nil_of_pos {n : ℕ} (hn : 0 < n) (r : ShiftReg n) : r.bits ≠ [] := by
  intro h
  have hl := r.length_bits
  rw [h, List.length_nil] at hl
  omega

/-- The bit at the output is the next one to come. -/
theorem out_of_begins {n : ℕ} {r : ShiftReg n} {a : Bool} {l : List Bool} (h : a :: l <+: r.bits) : r.out = a := by
  obtain ⟨l', hl⟩ := h
  rw [ShiftReg.out, ← hl]
  rfl

/-- A shift leaves the others, whatever comes in at the top. -/
theorem prefix_shiftIn {n : ℕ} {r : ShiftReg n} {a : Bool} {l : List Bool} (h : a :: l <+: r.bits) (b : Bool) :
    l <+: (r.shiftIn b).bits := by
  obtain ⟨l', hl⟩ := h
  refine ⟨l' ++ [b], ?_⟩
  change l ++ (l' ++ [b]) = (r.bits ++ [b]).tail
  rw [← hl, List.cons_append, List.cons_append, List.tail_cons, List.append_assoc]

/-- The TAP of Murax and of Saxon. -/
def bridgeTarget (answer : List Command → Word) (T : Timing) :
    TapTarget (JtagBridge.bridge.system answer T) 0x10001fff 4 where
  tap x := x.1.fsmState
  Fresh x := x.1.instruction = .ofNat 4 1 ∧ x.1.idcode = .ofNat 32 0x10001fff
  IdLeft x l := x.1.fsmState = .shiftDr ∧ x.1.instruction = .ofNat 4 1 ∧ l <+: x.1.idcode.bits
  irReg x := x.1.instructionShift.bits
  tap_edge _ _ := rfl
  fresh_reset := by
    rintro ⟨⟨fsm, _, _, _, _, _, _, _⟩, d⟩ ht e
    dsimp only at ht
    subst ht
    exact ⟨rfl, rfl⟩
  fresh_edge := by
    rintro ⟨⟨fsm, _, _, _, _, _, _, _⟩, d⟩ ⟨hi, hc⟩ ht e
    simp only [List.mem_cons, List.not_mem_nil, or_false] at ht
    rcases ht with rfl | rfl
    · exact ⟨hi, hc⟩
    · exact ⟨hi, hc⟩
  capture := by
    rintro ⟨⟨fsm, _, _, _, _, _, _, _⟩, d⟩ ⟨hi, hc⟩ ht b
    dsimp only at ht hi hc
    subst ht hi hc
    exact ⟨rfl, rfl, List.prefix_refl _⟩
  shiftId := by
    rintro ⟨⟨fsm, _, _, _, idcode, _, _, _⟩, d⟩ a l ⟨ht, hi, hp⟩
    dsimp only at ht hi hp
    subst ht hi
    exact ⟨out_of_begins hp, fun b => ⟨rfl, rfl, prefix_shiftIn hp b⟩⟩
  captureIr _ _ := ShiftReg.length_bits _
  shiftsIr := by
    refine ⟨?_, fun _ => bits_ne_nil_of_pos (by decide) _, ?_, ?_⟩
    · rintro ⟨⟨fsm, _, _, _, _, _, _, _⟩, d⟩ ⟨ht, -⟩ b
      dsimp only at ht
      subst ht
      exact ⟨rfl, ShiftReg.length_bits _⟩
    · rintro ⟨⟨fsm, _, _, _, _, _, _, _⟩, d⟩ ⟨ht, -⟩
      dsimp only at ht
      subst ht
      rfl
    · rintro ⟨⟨fsm, _, _, _, _, _, _, _⟩, d⟩ ⟨ht, -⟩ b
      dsimp only at ht
      subst ht
      rfl

/-- The TAP of Pulp, whatever it is connected to. -/
def pulpTarget {β : Type} (S : DmiSide β) (IdcodeValue : ℕ) : TapTarget (S.system IdcodeValue) IdcodeValue 5 where
  tap x := x.1.tapState
  Fresh x := x.1.jtagIr = DmiJtagTap.IDCODE
  IdLeft x l := x.1.tapState = .shiftDr ∧ x.1.jtagIr = DmiJtagTap.IDCODE ∧ l <+: x.1.idcode.bits
  irReg x := x.1.jtagIrShift.bits
  tap_edge _ _ := rfl
  fresh_reset := by
    rintro ⟨⟨tap, _, _, _, _, _⟩, d⟩ ht e
    dsimp only at ht
    subst ht
    rfl
  fresh_edge := by
    rintro ⟨⟨tap, _, _, _, _, _⟩, d⟩ hi ht e
    simp only [List.mem_cons, List.not_mem_nil, or_false] at ht
    rcases ht with rfl | rfl
    · exact hi
    · exact hi
  capture := by
    rintro ⟨⟨tap, _, _, _, _, _⟩, d⟩ hi ht b
    dsimp only at ht hi
    subst ht hi
    exact ⟨rfl, rfl, List.prefix_refl _⟩
  shiftId := by
    rintro ⟨⟨tap, _, _, idcode, _, _⟩, d⟩ a l ⟨ht, hi, hp⟩
    dsimp only at ht hi hp
    subst ht hi
    exact ⟨out_of_begins hp, fun b => ⟨rfl, rfl, prefix_shiftIn hp b⟩⟩
  captureIr _ _ := ShiftReg.length_bits _
  shiftsIr := by
    refine ⟨?_, fun _ => bits_ne_nil_of_pos (by decide) _, ?_, ?_⟩
    · rintro ⟨⟨tap, _, _, _, _, _⟩, d⟩ ⟨ht, -⟩ b
      dsimp only at ht
      subst ht
      exact ⟨rfl, ShiftReg.length_bits _⟩
    · rintro ⟨⟨tap, _, _, _, _, _⟩, d⟩ ⟨ht, -⟩
      dsimp only at ht
      subst ht
      rfl
    · rintro ⟨⟨tap, _, _, _, _, _⟩, d⟩ ⟨ht, -⟩ b
      dsimp only at ht
      subst ht
      rfl

/-- The identification of Reve moves along, though what is above it comes down with the bits
that are shifted in. -/
theorem prefix_shiftAt {sr : ShiftReg 50} {a : Bool} {l : List Bool} (h : a :: l <+: sr.bits)
    (hl : (a :: l).length ≤ 32) (b : Bool) : l <+: (ReveTap.shiftAt 31 sr b).bits := by
  obtain ⟨l', hl'⟩ := h
  change l <+: (sr.bits.tail ++ [false]).modify 31 (· || b)
  rw [← hl', List.cons_append, List.tail_cons, List.append_assoc, List.prefix_iff_getElem?]
  intro i hi
  rw [List.length_cons] at hl
  rw [List.getElem?_modify_ne _ _ (show 31 ≠ i by omega), List.getElem?_append_left hi, List.getElem?_eq_getElem hi]

/-- The TAP of Reve. -/
def reveTarget (response : List Request → ShiftReg 50) : TapTarget (ReveTap.machine response) 0xabcde6e3 5 where
  tap x := x.1
  Fresh x := x.2.ir = 0x01
  IdLeft x l := x.1 = .shiftDr ∧ x.2.ir = 0x01 ∧ l.length ≤ 32 ∧ l <+: x.2.sr.bits
  irReg x := x.2.sr.bits.take 5
  tap_edge _ _ := rfl
  fresh_reset := by
    rintro ⟨t, d⟩ rfl e
    rfl
  fresh_edge := by
    rintro ⟨t, d⟩ hi ht e
    simp only [List.mem_cons, List.not_mem_nil, or_false] at ht
    rcases ht with rfl | rfl
    · exact hi
    · exact hi
  capture := by
    rintro ⟨t, sr, ir, accepted⟩ hi rfl b
    dsimp only at hi
    subst hi
    exact ⟨rfl, rfl, by simp, List.prefix_append _ _⟩
  shiftId := by
    rintro ⟨t, sr, ir, accepted⟩ a l ⟨rfl, hi, hl, hp⟩
    dsimp only at hi hp
    subst hi
    exact ⟨out_of_begins hp, fun b => ⟨rfl, rfl, (Nat.le_succ _).trans hl, prefix_shiftAt hp hl b⟩⟩
  captureIr := by
    rintro x - b
    simp
  shiftsIr := by
    refine ⟨?_, ?_, ?_, ?_⟩
    · rintro ⟨t, d⟩ ⟨rfl, -⟩ b
      exact ⟨rfl, by simp⟩
    · rintro ⟨t, d⟩ ⟨-, hl⟩ h
      rw [h] at hl
      cases hl
    · rintro ⟨t, ⟨bits, hbits⟩, ir, accepted⟩ ⟨rfl, -⟩
      obtain ⟨a, l, rfl⟩ := List.exists_cons_of_length_eq_add_one hbits
      rfl
    · rintro ⟨t, d⟩ ⟨rfl, -⟩ b
      exact ReveTap.take_shiftIr response d b

/-! ### In simulation -/

/-- The targets of `dbgjtag.py`, each with what is left open of it: what the bus of Murax or
Saxon answers and when, what the TAP of Pulp is connected to and its identification, and what
Reve responds. -/
inductive SimTarget : Type 1 where
  | murax (answer : List Command → Word) (T : Timing)
  | saxon (answer : List Command → Word) (T : Timing)
  | pulp (β : Type) (S : DmiSide β) (IdcodeValue : Word)
  | reve (response : List Request → ShiftReg 50)

namespace SimTarget

/-- Its name. -/
def arch : SimTarget → Arch
  | .murax _ _ => .murax
  | .saxon _ _ => .saxon
  | .pulp _ _ _ => .pulp
  | .reve _ => .reve

/-- Its registers. -/
def State : SimTarget → Type
  | .murax _ _ | .saxon _ _ => JtagBridge × DebugSide
  | .pulp β _ _ => DmiJtagTap × β
  | .reve _ => TapState × ReveTap

/-- What an edge does to them, and what they show. -/
def machine : (t : SimTarget) → Machine t.State
  | .murax answer T | .saxon answer T => JtagBridge.bridge.system answer T
  | .pulp _ S IdcodeValue => S.system IdcodeValue.toNat
  | .reve response => ReveTap.machine response

/-- Its identification. -/
def idcode : SimTarget → Word
  | .murax _ _ | .saxon _ _ => 0x10001fff
  | .pulp _ _ IdcodeValue => IdcodeValue
  | .reve _ => 0xabcde6e3

/-- Each is one the session can start with, and its instruction register has the length that
`archmap` gives. -/
def tapTarget : (t : SimTarget) → TapTarget t.machine t.idcode.toNat (archmap t.arch).irsize
  | .murax answer T | .saxon answer T => bridgeTarget answer T
  | .pulp _ S IdcodeValue => pulpTarget S IdcodeValue.toNat
  | .reve response => reveTarget response

end SimTarget

/-- The instruction registers are short enough. -/
theorem irsize_le (a : Arch) : 0 < (archmap a).irsize ∧ (archmap a).irsize ≤ 12 := by
  cases a <;> exact ⟨by decide, by decide⟩

/-- **What a session finds out at its start** is right for every target: over any lawful
controller, from any state of the engine and of the target, it is the identification, and the
length of the instruction register that `archmap` has. The instruction register is full of zeros
then, and the engine and the port are in Shift-IR. -/
theorem sessionStart_finds (t : SimTarget) {σ : Type} {C : Controller σ} {x : t.State}
    (L : C.Lawful (t.machine.shows x)) {s : EngineState σ} {sm : TapState} {w : Wire}
    (hs : JtagOCDEngine.At L s sm w) : ∃ s' last h,
      sessionStart (JtagOCDEngine.tool C) s = .ok (t.idcode.toNat, .length (archmap t.arch).irsize) s' ∧
        JtagOCDEngine.At L s' .shiftIr ⟨last, h⟩ ∧ t.tapTarget.tap (t.machine.run x h) = .shiftIr ∧
        t.tapTarget.irReg (t.machine.run x h) = List.replicate (archmap t.arch).irsize false := by
  obtain ⟨s', h, hrun, ⟨last, hs'⟩, hport⟩ := t.tapTarget.sessionStart_eq t.idcode.isLt (irsize_le t.arch).1
    (irsize_le t.arch).2 (JtagOCDEngine.lawfulTool L) ⟨w.last, hs⟩
  exact ⟨s', last, h, hrun, hs', hport⟩

/-- Reve, found in Pause-DR by an engine that is somewhere else and has a bit kept back. -/
theorem sessionStart_finds_reve : ∃ s',
    sessionStart (JtagOCDEngine.tool (JtagSimController.controller ((ReveTap.machine fun _ => .ofNat 50 0).shows
        (.pauseDr, ⟨.ofNat 50 77, 0x11, []⟩)))) ⟨.exit2Ir, ⟨some true, []⟩⟩ =
      .ok (0xabcde6e3, .length 5) s' := by
  obtain ⟨s', _, _, h, -⟩ := sessionStart_finds (.reve fun _ => .ofNat 50 0)
    (JtagSimController.lawful ((ReveTap.machine fun _ => .ofNat 50 0).shows (.pauseDr, ⟨.ofNat 50 77, 0x11, []⟩)))
    (s := ⟨.exit2Ir, ⟨some true, []⟩⟩) ⟨trivial, rfl, rfl⟩
  exact ⟨s', h⟩

/-- **And so it is in the mode `f`**, behind any FTDI device: however it cuts what it sends, and
whatever else is in the byte that a few bits come in. What is stacked then counts as done. -/
theorem sessionStart_finds_ftdi (t : SimTarget) {υ : Type} {D : UsbDev υ} {C : FtdiConfig} (hC : FtdiJtag.Fits C)
    {x : t.State} (K : Mpsse D C.maxPacketSize (t.machine.shows x)) {s : EngineState (FtdiJtagState υ)} {sm : TapState}
    {p : Pins} (hs : JtagEngine.At K s sm p) : ∃ s' p',
      sessionStart (JtagEngine.tool D C) s = .ok (t.idcode.toNat, .length (archmap t.arch).irsize) s' ∧
        JtagEngine.ToolAt K s' .shiftIr p' ∧ t.tapTarget.tap (t.machine.run x p'.history) = .shiftIr ∧
        t.tapTarget.irReg (t.machine.run x p'.history) = List.replicate (archmap t.arch).irsize false := by
  obtain ⟨s', h, hrun, ⟨p', hs', rfl⟩, hport⟩ := t.tapTarget.sessionStart_eq t.idcode.isLt (irsize_le t.arch).1
    (irsize_le t.arch).2 (JtagEngine.lawfulTool hC K) ⟨p, ⟨hs.sm, hs.ctrl, hs.low⟩, rfl⟩
  exact ⟨s', p', hrun, hs', hport⟩

/-- Reve, found in Pause-DR. -/
theorem sessionStart_finds_ftdi_reve : ∃ s',
    sessionStart (JtagEngine.tool (MpsseDevice.usb ((ReveTap.machine fun _ => .ofNat 50 0).shows
        (.pauseDr, ⟨.ofNat 50 77, 0x11, []⟩)) (fun _ => 0) 64) ⟨64, 64, 64⟩) (JtagEngine.fresh MpsseDevice.fresh) =
      .ok (0xabcde6e3, .length 5) s' := by
  obtain ⟨s', _, h, -⟩ := sessionStart_finds_ftdi (.reve fun _ => .ofNat 50 0) (C := ⟨64, 64, 64⟩)
    ⟨by decide, by decide⟩ (x := (.pauseDr, ⟨.ofNat 50 77, 0x11, []⟩))
    (MpsseDevice.mpsse _ (fun _ => 0) (by decide)) (JtagEngine.fresh_at (u := MpsseDevice.fresh) rfl .testLogicReset)
  exact ⟨s', h⟩

end PyOcdRiscv.Ocd
