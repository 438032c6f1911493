import PyOcdRiscv.Jtag.ScanLevel
import PyOcdRiscv.Target.SystemDebugger

/-!
# The bridge with a TAP

A bridge hands the bits of a command scan over to the main clock (`FlowCCByToggle`): the
bit of one edge is handed over at the next, with the mark of the last bit as it is then.
`Bridge.system` is a bridge with what runs on the main clock.

`JtagBridge` of `Murax.v` has a TAP controller of its own. Instruction 2 is the command
scan, every bit of which is handed over; instruction 3 captures the response register and
shifts it out. `Ready` is what is true of it between two scans, `ready_command` and
`ready_response` what the two scans do.
-/

namespace PyOcdRiscv.Target

open Lib Jtag

open JtagStateMachine (events)

/-- A bridge, in the domain of TCK. -/
structure Bridge (β : Type) where
  /-- A rising edge of TCK, with what is in the response register. -/
  edge : β → ShiftReg 34 → Edge → β
  /-- Whether the response register is read at this edge. -/
  captures : β → Edge → Bool
  /-- What the next edge hands over. -/
  handed : β → Fragment
  /-- The level on TDO. -/
  tdo : β → Bool

namespace Bridge

variable {β : Type} (D : Bridge β) (answer : List Command → Word) (T : Timing)

/-- A bridge, and what runs on the main clock. -/
def system : Machine (β × DebugSide) where
  edge x e := (D.edge x.1 x.2.rsp e,
    (if D.captures x.1 e then x.2.read else x.2).gap answer T (D.handed x.1))
  tdo x := D.tdo x.1

variable {D answer T}

/-- What was late stays late. -/
theorem late_of_run {x : β × DebugSide} {es : List Edge}
    (h : ((D.system answer T).run x es).2.late = false) : x.2.late = false := by
  induction es generalizing x with
  | nil => exact h
  | cons e es ih =>
    have hstep := DebugSide.late_of_gap (ih h)
    split_ifs at hstep
    · exact DebugSide.late_of_read hstep
    · exact hstep

/-- In front of an eager bus nothing is late. -/
theorem prompt_run {x : β × DebugSide} (hx : x.2.Prompt) (es : List Edge) :
    ((D.system answer .eager).run x es).2.Prompt := by
  induction es generalizing x with
  | nil => exact hx
  | cons e es ih =>
    refine ih (DebugSide.Prompt.gap ?_ _)
    split_ifs
    · exact hx.of_read
    · exact hx

end Bridge

/-! ### The registers -/

/-- `JtagBridge`. -/
structure JtagBridge where
  /-- `jtag_tap_fsm_state`. -/
  fsmState : TapState
  /-- `jtag_tap_instruction`. -/
  instruction : ShiftReg 4
  /-- `jtag_tap_instructionShift`. -/
  instructionShift : ShiftReg 4
  /-- `jtag_tap_bypass`. -/
  bypass : Bool
  /-- `_zz_3`: the identification. -/
  idcode : ShiftReg 32
  /-- `_zz_7`: the last edge shifted a bit of a command. -/
  cmdValid : Bool
  /-- `_zz_8`: TDI at the last edge. -/
  cmdBit : Bool
  /-- `_zz_10`: the response on its way out. -/
  rsp : ShiftReg 34

namespace JtagBridge

/-- `_zz_4 && _zz_5`: the bits of a command are being shifted. -/
def shiftsCmd (s : JtagBridge) : Bool :=
  match s.fsmState with
  | .shiftDr => s.instruction = .ofNat 4 2
  | _ => false

/-- A rising edge of TCK. -/
def edge (s : JtagBridge) (rsp : ShiftReg 34) (e : Edge) : JtagBridge where
  fsmState := s.fsmState.next e.tms
  bypass := e.tdi
  instructionShift :=
    match s.fsmState with
    | .captureIr => s.instruction
    | .shiftIr | .shiftDr => s.instructionShift.shiftIn e.tdi
    | _ => s.instructionShift
  instruction :=
    match s.fsmState with
    | .updateIr => s.instructionShift
    | .testLogicReset => .ofNat 4 1
    | _ => s.instruction
  idcode :=
    match s.fsmState with
    | .shiftDr => if s.instruction = .ofNat 4 1 then s.idcode.shiftIn e.tdi else s.idcode
    | .testLogicReset => .ofNat 32 0x10001fff
    | _ => s.idcode
  cmdValid := s.shiftsCmd
  cmdBit := e.tdi
  rsp :=
    match s.fsmState with
    | .captureDr => if s.instruction = .ofNat 4 3 then rsp else s.rsp
    | .shiftDr => if s.instruction = .ofNat 4 3 then s.rsp.shiftIn e.tdi else s.rsp
    | _ => s.rsp

/-- `jtag_tap_tdoUnbufferd`. -/
def tdo (s : JtagBridge) : Bool :=
  match s.fsmState with
  | .shiftIr => s.instructionShift.out
  | .shiftDr =>
    if s.instruction = .ofNat 4 3 then s.rsp.out
    else if s.instruction = .ofNat 4 2 then false
    else if s.instruction = .ofNat 4 1 then s.idcode.out
    else false
  | _ => s.bypass

/-- As a bridge. -/
def bridge : Bridge JtagBridge where
  edge := edge
  captures s _ :=
    match s.fsmState with
    | .captureDr => s.instruction = .ofNat 4 3
    | _ => false
  handed s := if s.cmdValid then some (!s.shiftsCmd, s.cmdBit) else none
  tdo := tdo

variable (answer : List Command → Word) (T : Timing)

/-- Between two scans, in state `t`, when the commands so far are `all`. -/
structure Ready (t : TapState) (all : List Command) (x : JtagBridge × DebugSide) : Prop where
  resting : Resting t
  fsmState : x.1.fsmState = t
  cmdValid : x.1.cmdValid = false
  sound : x.2.Sound answer all

/-- At the start, with what runs on the main clock after a reset. -/
def fresh : JtagBridge × DebugSide :=
  (⟨.testLogicReset, .ofNat 4 1, .ofNat 4 0, false, .ofNat 32 0x10001fff, false, false, .ofNat 34 0⟩, .fresh)

theorem ready_fresh : Ready answer .testLogicReset [] fresh :=
  ⟨by decide, rfl, rfl, DebugSide.sound_fresh⟩

/-! ### The instruction scan -/

/-- On the way to Shift-IR nothing is handed over. -/
theorem run_toShiftIr {t : TapState} (ht : Resting t) {s : JtagBridge} (hs : s.fsmState = t)
    (hv : s.cmdValid = false) (d : DebugSide) : ∃ s' n,
      (bridge.system answer T).run (s, d) (moveEdges false (events t .shiftIr)) =
          (s', d.wait answer T n) ∧
        s'.fsmState = .shiftIr ∧ s'.cmdValid = false := by
  obtain ⟨fsm, _, _, _, _, _, _, _⟩ := s
  dsimp only at hs hv
  subst hs hv
  rw [events_toShiftIr _ ht]
  rcases ht.cases with rfl | rfl | rfl | rfl
  · exact ⟨_, 5, rfl, rfl, rfl⟩
  · exact ⟨_, 4, rfl, rfl, rfl⟩
  · exact ⟨_, 4, rfl, rfl, rfl⟩
  · exact ⟨_, 4, rfl, rfl, rfl⟩

/-- The instruction is shifted in, and the scan ends. -/
theorem run_scanIr (l : List Bool) (b : Bool) {s : JtagBridge} (hs : s.fsmState = .shiftIr)
    (hv : s.cmdValid = false) (d : DebugSide) : ∃ s' n,
      (bridge.system answer T).run (s, d) (scanEdges (l ++ [b])) = (s', d.wait answer T n) ∧
        s'.fsmState = .updateIr ∧ s'.cmdValid = false ∧
        s'.instructionShift = s.instructionShift.shiftAll (l ++ [b]) := by
  rw [scanEdges, bitEdges_concat]
  induction l generalizing s d with
  | nil =>
    obtain ⟨fsm, _, shift, _, _, _, _, _⟩ := s
    dsimp only at hs hv
    subst hs hv
    exact ⟨_, 2, rfl, rfl, rfl, rfl⟩
  | cons c l ih =>
    obtain ⟨fsm, instruction, shift, bypass, idcode, _, bit, rsp⟩ := s
    dsimp only at hs hv
    subst hs hv
    obtain ⟨s', n, hrun, h⟩ := ih (s := ⟨.shiftIr, instruction, shift.shiftIn c, c, idcode, false, c, rsp⟩)
      rfl rfl (d.wait answer T 1)
    rw [DebugSide.wait_wait] at hrun
    exact ⟨s', 1 + n, hrun, h⟩

/-- **A scan of the instruction register** hands nothing over. -/
theorem run_instruction {t : TapState} (ht : Resting t) {s : JtagBridge} (hs : s.fsmState = t)
    (hv : s.cmdValid = false) (d : DebugSide) {l : List Bool} (hl : l.length = 4) : ∃ s' n,
      (bridge.system answer T).run (s, d) (scanFrom t .shiftIr l) = (s', d.wait answer T n) ∧
        s'.fsmState = .updateIr ∧ s'.cmdValid = false ∧ s'.instructionShift = ⟨l, hl⟩ := by
  obtain ⟨s₁, n₁, h₁, hs₁, hv₁⟩ := run_toShiftIr answer T ht hs hv d
  have hne : l ≠ [] := by
    rintro rfl
    exact absurd hl (by decide)
  obtain ⟨l', b, hcons⟩ := (List.eq_nil_or_concat l).resolve_left hne
  obtain ⟨s₂, n₂, h₂, hs₂, hv₂, hshift⟩ := run_scanIr answer T l' b hs₁ hv₁
    (d.wait answer T n₁)
  rw [← List.concat_eq_append, ← hcons] at h₂ hshift
  rw [ShiftReg.shiftAll_eq _ hl] at hshift
  refine ⟨s₂, n₁ + n₂, ?_, hs₂, hv₂, hshift⟩
  rw [scanFrom, Machine.run_append, h₁, h₂, DebugSide.wait_wait]

/-! ### The data scans -/

/-- Instruction 2 taken over, nothing is captured. -/
theorem run_toCommand {s : JtagBridge} (hs : s.fsmState = .updateIr) (hv : s.cmdValid = false)
    (hi : s.instructionShift = .ofNat 4 2) (d : DebugSide) : ∃ s',
      (bridge.system answer T).run (s, d) (moveEdges false (events .updateIr .shiftDr)) =
          (s', d.wait answer T 3) ∧
        s'.fsmState = .shiftDr ∧ s'.instruction = .ofNat 4 2 ∧ s'.cmdValid = false := by
  obtain ⟨fsm, _, _, _, _, _, _, _⟩ := s
  dsimp only at hs hv hi
  subst hs hv hi
  rw [events_toShiftDr _ (by decide)]
  exact ⟨_, rfl, rfl, rfl, rfl⟩

/-- The bits of a command, on their way out of the domain of TCK. -/
theorem run_commandBits (l : List Bool) (b : Bool) {s : JtagBridge} (hs : s.fsmState = .shiftDr)
    (hi : s.instruction = .ofNat 4 2) (d : DebugSide) : ∃ s',
      (bridge.system answer T).run (s, d) (scanEdges (l ++ [b])) =
          (s', d.feed answer T ((if s.cmdValid then some (false, s.cmdBit) else none) ::
            DebugSide.frame l b)) ∧
        s'.fsmState = .updateDr ∧ s'.cmdValid = false := by
  rw [scanEdges, bitEdges_concat]
  induction l generalizing s d with
  | nil =>
    obtain ⟨fsm, _, _, _, _, _, _, _⟩ := s
    dsimp only at hs hi
    subst hs hi
    exact ⟨_, rfl, rfl, rfl⟩
  | cons c l ih =>
    obtain ⟨fsm, _, shift, bypass, idcode, valid, bit, rsp⟩ := s
    dsimp only at hs hi
    subst hs hi
    exact ih (s := ⟨.shiftDr, .ofNat 4 2, shift.shiftIn c, c, idcode, true, c, rsp⟩) rfl rfl _

/-- Instruction 3 taken over, the response register is captured. -/
theorem run_toResponse {s : JtagBridge} (hs : s.fsmState = .updateIr) (hv : s.cmdValid = false)
    (hi : s.instructionShift = .ofNat 4 3) (d : DebugSide) : ∃ s',
      (bridge.system answer T).run (s, d) (moveEdges false (events .updateIr .shiftDr)) =
          (s', (d.wait answer T 2).read.wait answer T 1) ∧
        s'.fsmState = .shiftDr ∧ s'.instruction = .ofNat 4 3 ∧ s'.cmdValid = false ∧
        s'.rsp = (d.wait answer T 2).rsp := by
  obtain ⟨fsm, _, _, _, _, _, _, _⟩ := s
  dsimp only at hs hv hi
  subst hs hv hi
  rw [events_toShiftDr _ (by decide)]
  exact ⟨_, rfl, rfl, rfl, rfl, rfl⟩

/-- A bit of the response goes out. -/
theorem edge_response (shift : ShiftReg 4) (bypass : Bool) (idcode : ShiftReg 32) (bit : Bool)
    (rsp : ShiftReg 34) (b : Bool) (d : DebugSide) :
    (bridge.system answer T).edge (⟨.shiftDr, .ofNat 4 3, shift, bypass, idcode, false, bit, rsp⟩, d)
        ⟨false, b⟩ =
      (⟨.shiftDr, .ofNat 4 3, shift.shiftIn b, b, idcode, false, b, rsp.shiftIn b⟩, d.wait answer T 1) :=
  rfl

/-- The response is shifted out, and nothing is handed over. -/
theorem run_responseBits (l : List Bool) (b : Bool) {s : JtagBridge} (hs : s.fsmState = .shiftDr)
    (hi : s.instruction = .ofNat 4 3) (hv : s.cmdValid = false) (d : DebugSide) : ∃ s' n,
      (bridge.system answer T).run (s, d) (scanEdges (l ++ [b])) = (s', d.wait answer T n) ∧
        s'.fsmState = .updateDr ∧ s'.cmdValid = false := by
  rw [scanEdges, bitEdges_concat]
  induction l generalizing s d with
  | nil =>
    obtain ⟨fsm, _, shift, bypass, idcode, valid, bit, rsp⟩ := s
    dsimp only at hs hi hv
    subst hs hi hv
    exact ⟨⟨.updateDr, .ofNat 4 3, shift.shiftIn b, false, idcode, false, false, rsp.shiftIn b⟩, 2, rfl, rfl,
      rfl⟩
  | cons c l ih =>
    obtain ⟨fsm, _, shift, bypass, idcode, valid, bit, rsp⟩ := s
    dsimp only at hs hi hv
    subst hs hi hv
    obtain ⟨s', n, hrun, h⟩ := ih (s := ⟨.shiftDr, .ofNat 4 3, shift.shiftIn c, c, idcode, false, c,
      rsp.shiftIn c⟩) rfl rfl rfl (d.wait answer T 1)
    refine ⟨s', 1 + n, ?_, h⟩
    rw [dataEdges_cons, List.cons_append, List.cons_append, Machine.run_cons, edge_response, hrun,
      DebugSide.wait_wait]

/-- What comes out. -/
theorem outs_responseBits (l : List Bool) {s : JtagBridge} (hs : s.fsmState = .shiftDr)
    (hi : s.instruction = .ofNat 4 3) (d : DebugSide) :
    (bridge.system answer T).outs (s, d) (dataEdges l) = s.rsp.outs l := by
  induction l generalizing s d with
  | nil => rfl
  | cons c l ih =>
    obtain ⟨fsm, _, shift, bypass, idcode, valid, bit, rsp⟩ := s
    dsimp only at hs hi
    subst hs hi
    exact congrArg (rsp.out :: ·) (ih rfl rfl _)

variable {answer T}

/-! ### What the scans do -/

/-- The edges of a command, from state `t`. -/
def commandEdges (t : TapState) (l : List Bool) : List Edge :=
  scanFrom t .shiftIr (bits 4 2) ++ scanFrom .updateIr .shiftDr l

/-- The edges of a response scan, from state `t`, up to its bits. -/
def responseMoves (t : TapState) : List Edge :=
  scanFrom t .shiftIr (bits 4 3) ++ moveEdges false (events .updateIr .shiftDr)

/-- **A command scan** puts its command on the bus. -/
theorem ready_command {t : TapState} {all : List Command} {x : JtagBridge × DebugSide}
    (hx : Ready answer t all x) {data : List Bool} (hdata : data.length = 67) :
    Ready answer .updateDr (all ++ [Command.ofData data])
      ((bridge.system answer T).run x (commandEdges t (List.replicate 8 false ++ data))) := by
  have hne : data ≠ [] := by
    rintro rfl
    exact absurd hdata (by decide)
  obtain ⟨l, b, rfl⟩ := (List.eq_nil_or_concat data).resolve_left hne
  rw [List.concat_eq_append] at hdata ⊢
  obtain ⟨s, d⟩ := x
  obtain ⟨hrest, hs, hv, hsound⟩ := hx
  obtain ⟨s₁, n, h₁, hs₁, hv₁, hi₁⟩ := run_instruction answer T hrest hs hv d
    (length_bits 4 2)
  obtain ⟨s₂, h₂, hs₂, hi₂, hv₂⟩ := run_toCommand answer T hs₁ hv₁ hi₁
    (d.wait answer T n)
  obtain ⟨s₃, h₃, hs₃, hv₃⟩ := run_commandBits answer T (List.replicate 8 false ++ l) b
    hs₂ hi₂ ((d.wait answer T n).wait answer T 3)
  rw [hv₂, if_neg (by decide), List.append_assoc] at h₃
  rw [commandEdges, scanFrom.eq_def .updateIr, Machine.run_append, h₁, Machine.run_append, h₂, h₃]
  have hframe := ((hsound.wait (T := T) n).wait (T := T) 3).frame (T := T) hdata
  exact ⟨by decide, hs₃, hv₃, hframe⟩

/-- **A response scan** puts nothing on the bus, and reads the response to the last
command. -/
theorem ready_response {t : TapState} {all : List Command} {x : JtagBridge × DebugSide}
    (hx : Ready answer t all x) (hall : all ≠ []) :
    Ready answer .updateDr all ((bridge.system answer T).run x
        (responseMoves t ++ scanEdges (List.replicate 35 false))) ∧
      (((bridge.system answer T).run x (responseMoves t)).2.late = false →
        ∃ valid error, (bridge.system answer T).outs ((bridge.system answer T).run x (responseMoves t))
          (dataEdges (List.replicate 34 false)) = valid :: error :: bits 32 (answer all).toNat) := by
  obtain ⟨s, d⟩ := x
  obtain ⟨hrest, hs, hv, hsound⟩ := hx
  obtain ⟨s₁, n, h₁, hs₁, hv₁, hi₁⟩ := run_instruction answer T hrest hs hv d
    (length_bits 4 3)
  obtain ⟨s₂, h₂, hs₂, hi₂, hv₂, hr₂⟩ := run_toResponse answer T hs₁ hv₁ hi₁
    (d.wait answer T n)
  obtain ⟨s₃, m, h₃, hs₃, hv₃⟩ := run_responseBits answer T (List.replicate 34 false) false
    hs₂ hi₂ hv₂ (((d.wait answer T n).wait answer T 2).read.wait answer T 1)
  have hmoves : (bridge.system answer T).run (s, d) (responseMoves t) =
      (s₂, ((d.wait answer T n).wait answer T 2).read.wait answer T 1) := by
    rw [responseMoves, Machine.run_append, h₁, h₂]
  have hsound₂ := (hsound.wait (T := T) n).wait (T := T) 2
  constructor
  · rw [Machine.run_append, hmoves, List.replicate_succ', h₃]
    exact ⟨by decide, hs₃, hv₃, ((hsound₂.of_read).wait 1).wait m⟩
  · rw [hmoves]
    intro hlate
    have hdata := hsound₂.rspData hall (DebugSide.late_of_feed hlate)
    refine ⟨((d.wait answer T n).wait answer T 2).rspValid, ((d.wait answer T n).wait answer T 2).rspError, ?_⟩
    rw [outs_responseBits _ _ _ hs₂ hi₂, ShiftReg.outs_eq (by decide), List.take_left' (by simp), hr₂, ← hdata]
    exact DebugSide.bits_rsp _

end JtagBridge

end PyOcdRiscv.Target
