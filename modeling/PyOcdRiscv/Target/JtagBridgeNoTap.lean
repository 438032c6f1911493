import PyOcdRiscv.Target.JtagBridge

/-!
# The bridge behind the virtual JTAG hub

`JtagBridgeNoTap` of `quartus/virtual/Murax.v` has no TAP controller: the hub has it, and
tells it when its data register is captured and shifted. The first two bits of a scan are
a header. With the header 00 the bits after it are those of a command and are handed over;
with the header 01 the response register is captured at the second bit and shifted out
behind it. `io_ctrl_enable` is tied to 1. `VirtualBridge` is the bridge with the TAP
controller of the hub, in which the instruction `VDR` has been loaded.
-/

namespace PyOcdRiscv.Target

open Lib Jtag

open JtagStateMachine (events)

/-- `JtagBridgeNoTap`. -/
structure JtagBridgeNoTap where
  /-- `jtag_wrapper_header`. -/
  header : ShiftReg 2
  /-- `jtag_wrapper_counter`. -/
  counter : Bool
  /-- `jtag_wrapper_done`. -/
  done : Bool
  /-- `_zz_4`: the last edge shifted a bit of a command. -/
  cmdValid : Bool
  /-- `_zz_5`: TDI at the last edge. -/
  cmdBit : Bool
  /-- `_zz_7`: the response on its way out. -/
  rsp : ShiftReg 34

namespace JtagBridgeNoTap

/-- `jtag_wrapper_headerNext`. -/
def headerNext (s : JtagBridgeNoTap) (tdi : Bool) : ShiftReg 2 := s.header.shiftIn tdi

/-- `jtag_wrapper_sendCapture`. -/
def sendCapture (s : JtagBridgeNoTap) (shift : Bool) : Bool := shift && (!s.done && s.counter)

/-- `jtag_wrapper_sendShift`. -/
def sendShift (s : JtagBridgeNoTap) (shift : Bool) : Bool := shift && s.done

/-- `_zz_2`: the bits of a command are being shifted. -/
def shiftsCmd (s : JtagBridgeNoTap) (shift : Bool) : Bool :=
  s.sendShift shift && decide (s.header = .ofNat 2 0)

/-- The response register is captured. -/
def captures (s : JtagBridgeNoTap) (shift tdi : Bool) : Bool :=
  s.sendCapture shift && decide (s.headerNext tdi = .ofNat 2 1)

/-- A rising edge of TCK. -/
def edge (s : JtagBridgeNoTap) (capture shift tdi : Bool) (rsp : ShiftReg 34) : JtagBridgeNoTap where
  header := if shift && !s.done then s.headerNext tdi else s.header
  counter := if shift && !s.done then !s.counter else if capture then false else s.counter
  done := if s.sendCapture shift then true else if capture then false else s.done
  cmdValid := s.shiftsCmd shift
  cmdBit := tdi
  rsp :=
    if s.sendShift shift && decide (s.header = .ofNat 2 1) then s.rsp.shiftIn tdi
    else if s.captures shift tdi then rsp
    else s.rsp

/-- `jtag_wrapper_ctrl_tdo`. -/
def tdo (s : JtagBridgeNoTap) : Bool := if s.header = .ofNat 2 1 then s.rsp.out else false

end JtagBridgeNoTap

/-- The bridge, and the TAP controller of the hub. -/
structure VirtualBridge where
  /-- The state of the hub's port. -/
  hub : TapState
  /-- `jtagBridgeNoTap_1`. -/
  wrapper : JtagBridgeNoTap

namespace VirtualBridge

/-- `virtual_state_cdr`. -/
def cdr (s : VirtualBridge) : Bool := s.hub = .captureDr

/-- `virtual_state_sdr`. -/
def sdr (s : VirtualBridge) : Bool := s.hub = .shiftDr

/-- As a bridge. Outside Shift-DR the hub does not show what the bridge does. -/
def bridge : Bridge VirtualBridge where
  edge s rsp e := ⟨s.hub.next e.tms, s.wrapper.edge s.cdr s.sdr e.tdi rsp⟩
  captures s e := s.wrapper.captures s.sdr e.tdi
  handed s := if s.wrapper.cmdValid then some (!s.wrapper.shiftsCmd s.sdr, s.wrapper.cmdBit) else none
  tdo s := if s.sdr then s.wrapper.tdo else false

variable (answer : List Command → Word) (T : Timing)

/-- Between two scans, in state `t`, when the commands so far are `all`. -/
structure Ready (t : TapState) (all : List Command) (x : VirtualBridge × DebugSide) : Prop where
  resting : Resting t
  hub : x.1.hub = t
  cmdValid : x.1.wrapper.cmdValid = false
  sound : x.2.Sound answer all

/-- At the start, with what runs on the main clock after a reset, and the hub's port in
Run-Test/Idle. -/
def fresh : VirtualBridge × DebugSide :=
  (⟨.runTestIdle, .ofNat 2 0, false, false, false, false, .ofNat 34 0⟩, .fresh)

theorem ready_fresh : Ready answer .runTestIdle [] fresh := ⟨by decide, rfl, rfl, DebugSide.sound_fresh⟩

/-- On the way to Shift-DR the bridge starts on a new header. -/
theorem run_toShiftDr {t : TapState} (ht : Resting t) {s : VirtualBridge} (hs : s.hub = t)
    (hv : s.wrapper.cmdValid = false) (d : DebugSide) : ∃ header bit rsp n,
      (bridge.system answer T).run (s, d) (moveEdges false (events t .shiftDr)) =
          (⟨.shiftDr, ⟨header, false, false, false, bit, rsp⟩⟩, d.wait answer T n) := by
  obtain ⟨hub, header, _, done, _, bit, rsp⟩ := s
  dsimp only at hs hv
  subst hs hv
  rw [events_toShiftDr _ ht]
  rcases ht.cases with rfl | rfl | rfl | rfl
  · exact ⟨header, _, rsp, 4, rfl⟩
  · exact ⟨header, _, rsp, 3, rfl⟩
  · exact ⟨header, _, rsp, 3, rfl⟩
  · exact ⟨header, _, rsp, 3, rfl⟩

/-- A header of two bits, one by one. -/
theorem header_cases (header : ShiftReg 2) : ∃ a b, header = ⟨[a, b], rfl⟩ := by
  obtain ⟨l, hl⟩ := header
  match l, hl with
  | [a, b], _ => exact ⟨a, b, rfl⟩

/-- The header of a command. -/
theorem run_commandHeader (header : ShiftReg 2) (bit : Bool) (rsp : ShiftReg 34) (d : DebugSide) :
    (bridge.system answer T).run (⟨.shiftDr, ⟨header, false, false, false, bit, rsp⟩⟩, d)
        (dataEdges [false, false]) =
      (⟨.shiftDr, ⟨.ofNat 2 0, false, true, false, false, rsp⟩⟩, d.wait answer T 2) := by
  obtain ⟨a, b, rfl⟩ := header_cases header
  rfl

/-- The bits of a command, on their way out of the domain of TCK. -/
theorem run_commandBits (l : List Bool) (b : Bool) (valid bit : Bool) (rsp : ShiftReg 34) (d : DebugSide) :
    ∃ s', (bridge.system answer T).run (⟨.shiftDr, ⟨.ofNat 2 0, false, true, valid, bit, rsp⟩⟩, d)
          (scanEdges (l ++ [b])) =
        (s', d.feed answer T ((if valid then some (false, bit) else none) :: DebugSide.frame l b)) ∧
      s'.hub = .updateDr ∧ s'.wrapper.cmdValid = false := by
  rw [scanEdges, bitEdges_concat]
  induction l generalizing valid bit d with
  | nil => exact ⟨_, rfl, rfl, rfl⟩
  | cons c l ih => exact ih true c _

/-- The header of a response scan: at its second bit the response register is captured. -/
theorem run_responseHeader (header : ShiftReg 2) (bit : Bool) (rsp : ShiftReg 34) (d : DebugSide) :
    (bridge.system answer T).run (⟨.shiftDr, ⟨header, false, false, false, bit, rsp⟩⟩, d)
        (dataEdges [true, false]) =
      (⟨.shiftDr, ⟨.ofNat 2 1, false, true, false, false, (d.wait answer T 1).rsp⟩⟩,
        (d.wait answer T 1).read.wait answer T 1) := by
  obtain ⟨a, b, rfl⟩ := header_cases header
  rfl

/-- A bit of the response goes out. -/
theorem edge_response (bit : Bool) (rsp : ShiftReg 34) (b : Bool) (d : DebugSide) :
    (bridge.system answer T).edge (⟨.shiftDr, ⟨.ofNat 2 1, false, true, false, bit, rsp⟩⟩, d) ⟨false, b⟩ =
      (⟨.shiftDr, ⟨.ofNat 2 1, false, true, false, b, rsp.shiftIn b⟩⟩, d.wait answer T 1) := rfl

/-- The response is shifted out, and nothing is handed over. -/
theorem run_responseBits (l : List Bool) (b : Bool) (bit : Bool) (rsp : ShiftReg 34) (d : DebugSide) :
    ∃ s' n, (bridge.system answer T).run (⟨.shiftDr, ⟨.ofNat 2 1, false, true, false, bit, rsp⟩⟩, d)
        (scanEdges (l ++ [b])) = (s', d.wait answer T n) ∧
      s'.hub = .updateDr ∧ s'.wrapper.cmdValid = false := by
  rw [scanEdges, bitEdges_concat]
  induction l generalizing bit rsp d with
  | nil => exact ⟨_, 2, rfl, rfl, rfl⟩
  | cons c l ih =>
    obtain ⟨s', n, hrun, h⟩ := ih c (rsp.shiftIn c) (d.wait answer T 1)
    refine ⟨s', 1 + n, ?_, h⟩
    rw [dataEdges_cons, List.cons_append, List.cons_append, Machine.run_cons, edge_response, hrun,
      DebugSide.wait_wait]

/-- What comes out. -/
theorem outs_responseBits (l : List Bool) (b : Bool) (bit : Bool) (rsp : ShiftReg 34) (d : DebugSide) :
    (bridge.system answer T).outs (⟨.shiftDr, ⟨.ofNat 2 1, false, true, false, bit, rsp⟩⟩, d)
      (bitEdges (l ++ [b])) = rsp.outs (l ++ [b]) := by
  rw [bitEdges_concat]
  induction l generalizing bit rsp d with
  | nil => rfl
  | cons c l ih => exact congrArg (rsp.out :: ·) (ih c (rsp.shiftIn c) (d.wait answer T 1))

variable {answer T}

/-! ### What the scans do -/

/-- **A command scan** puts its command on the bus. -/
theorem ready_command {t : TapState} {all : List Command} {x : VirtualBridge × DebugSide}
    (hx : Ready answer t all x) {data : List Bool} (hdata : data.length = 67) :
    Ready answer .updateDr (all ++ [Command.ofData data])
      ((bridge.system answer T).run x
        (scanFrom t .shiftDr ([false, false] ++ (List.replicate 8 false ++ data)))) := by
  have hne : data ≠ [] := by
    rintro rfl
    exact absurd hdata (by decide)
  obtain ⟨l, b, rfl⟩ := (List.eq_nil_or_concat data).resolve_left hne
  rw [List.concat_eq_append] at hdata ⊢
  obtain ⟨s, d⟩ := x
  obtain ⟨hrest, hs, hv, hsound⟩ := hx
  obtain ⟨header, bit, rsp, n, h₁⟩ := run_toShiftDr answer T hrest hs hv d
  obtain ⟨s₃, h₃, hs₃, hv₃⟩ := run_commandBits answer T (List.replicate 8 false ++ l) b
    false false rsp ((d.wait answer T n).wait answer T 2)
  rw [if_neg (by decide), List.append_assoc] at h₃
  have hframe := ((hsound.wait (T := T) n).wait (T := T) 2).frame (T := T) hdata
  have hscan : scanEdges ([false, false] ++ (List.replicate 8 false ++ (l ++ [b]))) =
      dataEdges [false, false] ++ scanEdges (List.replicate 8 false ++ (l ++ [b])) := by
    rw [scanEdges, bitEdges_append _ (by simp), List.append_assoc, ← scanEdges]
  rw [scanFrom, Machine.run_append, h₁, hscan, Machine.run_append, run_commandHeader, h₃]
  exact ⟨by decide, hs₃, hv₃, hframe⟩

/-- The bits of a response scan: the header 01, and zeros. -/
theorem bits_responseScan : bits 36 1 = [true, false] ++ (List.replicate 33 false ++ [false]) := by decide

/-- **A response scan** puts nothing on the bus, and reads the response to the last
command, behind two bits of what was there before. -/
theorem ready_response {t : TapState} {all : List Command} {x : VirtualBridge × DebugSide}
    (hx : Ready answer t all x) (hall : all ≠ []) :
    Ready answer .updateDr all ((bridge.system answer T).run x (scanFrom t .shiftDr (bits 36 1))) ∧
      (((bridge.system answer T).run x (scanFrom t .shiftDr (bits 36 1))).2.late = false →
        ∃ stale valid error, stale.length = 2 ∧ (bridge.system answer T).outs
            ((bridge.system answer T).run x (moveEdges false (events t .shiftDr))) (bitEdges (bits 36 1)) =
          stale ++ valid :: error :: bits 32 (answer all).toNat) := by
  obtain ⟨s, d⟩ := x
  obtain ⟨hrest, hs, hv, hsound⟩ := hx
  obtain ⟨header, bit, rsp, n, h₁⟩ := run_toShiftDr answer T hrest hs hv d
  have hsound₂ := (hsound.wait (T := T) n).wait (T := T) 1
  obtain ⟨s₃, m, h₃, hs₃, hv₃⟩ := run_responseBits answer T (List.replicate 33 false)
    false false ((d.wait answer T n).wait answer T 1).rsp
    (((d.wait answer T n).wait answer T 1).read.wait answer T 1)
  have hscan : scanEdges (bits 36 1) =
      dataEdges [true, false] ++ scanEdges (List.replicate 33 false ++ [false]) := by
    rw [scanEdges, bits_responseScan, bitEdges_append _ (by simp), List.append_assoc, ← scanEdges]
  have hrun : (bridge.system answer T).run (s, d) (scanFrom t .shiftDr (bits 36 1)) =
      (s₃, (((d.wait answer T n).wait answer T 1).read.wait answer T 1).wait answer T m) := by
    rw [scanFrom, Machine.run_append, h₁, hscan, Machine.run_append, run_responseHeader, h₃]
  rw [hrun, h₁]
  constructor
  · exact ⟨by decide, hs₃, hv₃, ((hsound₂.of_read).wait 1).wait m⟩
  · intro hlate
    have hdata := hsound₂.rspData hall (DebugSide.late_of_feed (DebugSide.late_of_feed hlate))
    refine ⟨(bridge.system answer T).outs (⟨.shiftDr, ⟨header, false, false, false, bit, rsp⟩⟩,
      d.wait answer T n) (dataEdges [true, false]), ((d.wait answer T n).wait answer T 1).rspValid,
      ((d.wait answer T n).wait answer T 1).rspError, rfl, ?_⟩
    rw [bits_responseScan, bitEdges_append _ (by simp), Machine.outs_append, run_responseHeader,
      outs_responseBits, ShiftReg.outs_eq (by decide), List.take_left' (by simp), ← hdata,
      DebugSide.bits_rsp]

end VirtualBridge

end PyOcdRiscv.Target
