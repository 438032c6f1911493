import PyOcdRiscv.Jtag.BitArith
import PyOcdRiscv.Jtag.Engine

/-!
# The tool

`JtagTool` of `pyftdi/jtag.py`, as `dbgjtag.py` uses it: reading the identification, and
finding out how long the register is that a port has selected. It works on any engine that
has the methods it calls (`ToolEngine`), and reaches through the engine to its controller
and its state machine.

`detect_register_size` tries one length after the other. For a length it sends that many
zeros and then, in 255 rounds, a pattern of eight bits followed by as many zeros again, and
looks for the pattern in what comes back. What there is to know of an engine for that is
`ToolEngine.Lawful`: what it puts on the wire while the port stays in a shift state, and on
the way there.
-/

namespace PyOcdRiscv.Jtag

open Lib

open JtagStateMachine (events)

/-- What `JtagTool`, and `dbgjtag.py` before there is a driver, use of an engine, on a state
`ε` and with the errors `φ`. -/
structure ToolEngine (φ ε : Type) where
  /-- `JtagError("Invalid state: ..")`. -/
  invalidState : φ
  /-- `reset()`. -/
  reset : EStateM φ ε Unit
  /-- `_sm.state_of(mode)`. -/
  stateOf : JtagStateMachine.Mode → ε → Bool
  /-- `_ctrl.write_tms(tms)`. -/
  writeTms : BitSequence → EStateM φ ε Unit
  /-- `_sm.handle_events(events)`. -/
  handleEvents : BitSequence → EStateM φ ε Unit
  /-- `change_state(statename)`. -/
  changeState : TapState → EStateM φ ε Unit
  /-- `read_dr(length)`. -/
  readDr : ℕ → EStateM φ ε BitSequence
  /-- `write(out, use_last)`. -/
  write : BitSequence → Bool → EStateM φ ε Unit
  /-- `shift_register(out)`. -/
  shiftRegister : BitSequence → EStateM φ ε BitSequence

namespace JtagTool

/-- `PATTERN_LEN`. -/
def PATTERN_LEN : ℕ := 8

/-- `MAX_REG_LEN`. -/
def MAX_REG_LEN : ℕ := 1024

/-- How `detect_register_size` ends when no call of its own raises. -/
inductive Detection where
  /-- `return length`. -/
  | length (n : ℕ)
  /-- `return`. -/
  | none
  /-- `JtagError('TDO seems to be stuck')`. -/
  | stuck
  /-- `JtagError('Unable to detect register length')`. -/
  | undetected
  deriving DecidableEq, Repr

/-- `BitSequence(length=length)`. -/
def zeros (length : ℕ) : BitSequence := BitSequence.updateLength [] length false

/-- What a round makes of `stuck`. -/
def nextStuck (stuck tdo : Option Bool) : Option Bool :=
  let stuck := if stuck = none then tdo else stuck
  if stuck ≠ tdo then none else stuck

variable {φ ε : Type} (E : ToolEngine φ ε)

/-- `idcode`. -/
def idcode : EStateM φ ε ℕ := do
  let idcode ← E.readDr 32
  E.changeState .runTestIdle
  return idcode.toInt

/-- `for p in range(1, 1 << PATTERN_LEN)`, with `k` rounds to go. -/
def patternLoop (length : ℕ) : ℕ → BitSequence → Bool → Option Bool → EStateM φ ε (Bool × Option Bool)
  | 0, _, ok, stuck => pure (ok, stuck)
  | k + 1, inj, _, stuck => do
    E.write (zeros length) false
    let rcv ← E.shiftRegister inj
    let stuck := nextStuck stuck rcv.invariant
    if (rcv.irshift length).cmp inj = 0 then patternLoop length k inj.inc true stuck
    else pure (false, stuck)

/-- `for length in range(1, MAX_REG_LEN)`, with `k` lengths to go. -/
def lengthLoop : ℕ → ℕ → Option Bool → EStateM φ ε Detection
  | 0, _, stuck => pure (if stuck ≠ none then .stuck else .undetected)
  | k + 1, length, stuck =>
    if length > 12 then pure .none
    else do
      let inj := (zeros (length + PATTERN_LEN)).inc
      let r ← patternLoop E length ((1 <<< PATTERN_LEN) - 1) inj false stuck
      if r.1 then pure (.length length) else lengthLoop k (length + 1) r.2

/-- `detect_register_size`. -/
def detectRegisterSize : EStateM φ ε Detection := do
  let s ← get
  if E.stateOf .shift s = false then throw E.invalidState
  if E.stateOf .capture s then
    E.writeTms [false]
    E.handleEvents [false]
  lengthLoop E (MAX_REG_LEN - 1) 1 none

end JtagTool

/-- The methods of a `JtagOCDEngine`. -/
def JtagOCDEngine.tool {σ : Type} (C : Controller σ) : ToolEngine Fault (EngineState σ) where
  invalidState := .invalidState
  reset := reset C
  stateOf mode s := JtagStateMachine.isOf mode s.sm
  writeTms tms := do
    let _ ← onCtrl (C.writeTms tms false)
  handleEvents events := handleEvents events
  changeState statename := changeState C statename
  readDr length := readDr C length
  write out useLast := onCtrl (C.write out useLast)
  shiftRegister out := shiftRegister C out

/-! ### What an engine does while the port shifts -/

/-- **What the tool relies on**, for a target that shows `tdo`: a reset and a move lead where
they should, in a capture state it can move on, and in a shift state what it shifts is on the
wire and what the target shows comes back. -/
structure ToolEngine.Lawful {φ ε : Type} (E : ToolEngine φ ε) (tdo : History → Bool) where
  /-- The state machine is in this state, and the target has seen this. -/
  At : ε → TapState → History → Prop
  /-- And no bit is kept back. -/
  Clear : ε → TapState → History → Prop
  at_of_clear : ∀ {s sm h}, Clear s sm h → At s sm h
  reset : ∀ {s sm h}, At s sm h → ∃ s' b,
    E.reset s = .ok () s' ∧ Clear s' .testLogicReset (h ++ moveEdges b (List.replicate 5 true))
  changeState : ∀ {s sm h}, Clear s sm h → ∀ t, (events sm t).length < 8 → ∃ s',
    E.changeState t s = .ok () s' ∧ Clear s' t (h ++ moveEdges false (events sm t))
  readDr : ∀ {s sm h}, Clear s sm h → sm ≠ .shiftDr → ∀ n, 0 < n → n < 512 → ∃ s',
    E.readDr n s = .ok (EngineCall.answer tdo h sm (.readDr n)) s' ∧
      Clear s' .updateDr (h ++ scanFrom sm .shiftDr (List.replicate (n + 1) false))
  stateOf : ∀ {s sm h}, At s sm h → ∀ mode, E.stateOf mode s = JtagStateMachine.isOf mode sm
  leave : ∀ {s sm h}, At s sm h → JtagStateMachine.isOf .capture sm = true → ∃ s₁ s₂ b,
    E.writeTms [false] s = .ok () s₁ ∧ E.handleEvents [false] s₁ = .ok () s₂ ∧
      At s₂ (sm.next false) (h ++ [⟨false, b⟩])
  write : ∀ {s sm h}, At s sm h → sm.Shifts → ∀ out, out ≠ [] → out.length < 512 → ∃ s',
    E.write out false s = .ok () s' ∧ At s' sm (h ++ dataEdges out)
  shiftRegister : ∀ {s sm h}, At s sm h → sm.Shifts → ∀ out, out ≠ [] → out.length < 512 → ∃ s',
    E.shiftRegister out s = .ok (sample tdo h (dataEdges out)) s' ∧ At s' sm (h ++ dataEdges out)

namespace JtagOCDEngine

variable {σ : Type} {C : Controller σ} {tdo : History → Bool}

theorem isOf_of_shifts {sm : TapState} (hsm : sm.Shifts) :
    JtagStateMachine.isOf .shift sm = true ∧ JtagStateMachine.isOf .capture sm = false := by
  rcases hsm with rfl | rfl <;> exact ⟨rfl, rfl⟩

/-- In a shift state `shift_register` makes no move. -/
theorem shiftRegister_shifts (L : C.Lawful tdo) {s : EngineState σ} {sm : TapState} {w : Wire}
    (hs : At L s sm w) (hsm : sm.Shifts) {out : BitSequence} (hne : out ≠ []) (hout : out.length < 512) :
    ∃ s', shiftRegister C out s = .ok (sample tdo w.history (dataEdges out)) s' ∧
      At L s' sm (w.afterScan out false) := by
  obtain ⟨hshift, hcapture⟩ := isOf_of_shifts hsm
  have hok : ScanOk out false := ⟨hout, by simp⟩
  have hread : asRead (w.shifted tdo out) = sample tdo w.history (dataEdges out) := by
    refine asRead_eq fun h => hne ?_
    rw [← List.length_eq_zero_iff, ← length_dataEdges, ← length_sample tdo w.history]
    exact List.length_eq_zero_iff.mpr h
  obtain ⟨s', h', hs'⟩ := shiftRegister_of hs hshift fun s hr => L.writeread out false s hok hr
  rw [hcapture, if_neg Bool.false_ne_true] at h' hs'
  rw [EngineCall.leaves, hcapture, if_neg Bool.false_ne_true] at hs'
  exact ⟨s', by rw [h', hread], hs'⟩

/-- **The engine is one the tool can rely on**, over any lawful controller. -/
def lawfulTool (L : C.Lawful tdo) : (tool C).Lawful tdo where
  At s sm h := ∃ last, At L s sm ⟨last, h⟩
  Clear s sm h := At L s sm ⟨none, h⟩
  at_of_clear hs := ⟨none, hs⟩
  reset := by
    rintro s sm h ⟨last, hs⟩
    obtain ⟨s', h', hs'⟩ := reset_eq hs
    exact ⟨s', _, h', hs'⟩
  changeState hs t _ := by
    obtain ⟨s', h', hs'⟩ := changeState_eq hs t
    rw [afterTms_none] at hs'
    exact ⟨s', h', hs'⟩
  readDr hs _ n _ hn := readDr_eq hs hn
  stateOf := by
    rintro s sm h ⟨last, hs⟩ mode
    exact congrArg (JtagStateMachine.isOf mode) hs.sm
  leave := by
    rintro s sm h ⟨last, hs⟩ hsm
    obtain ⟨c, hc, hrest, hwire⟩ := L.writeTms [false] false s.ctrl hs.rest
    obtain ⟨s₂, h₂, hs₂⟩ := handleEvents_ok (L := L) (s := { s with ctrl := c }) ⟨hrest, hs.sm, hwire⟩ [false]
    refine ⟨{ s with ctrl := c }, s₂, (⟨last, h⟩ : Wire).tdi, ?_, h₂, none, ?_⟩
    · change (onCtrl (C.writeTms [false] false) >>= fun _ => pure ()) s = _
      rw [Prog.bind_ok (onCtrl_ok hc)]
      rfl
    · rw [hs.wire] at hs₂
      have hnext : JtagStateMachine.handleEvents sm [false] = sm.next false := JtagStateMachine.getx_eq sm false
      rwa [hnext] at hs₂
  write := by
    rintro s sm h ⟨last, hs⟩ hsm out hne hout
    obtain ⟨c, hc, hrest, hwire⟩ := L.write out false s.ctrl ⟨hout, by simp⟩ hs.rest
    exact ⟨{ s with ctrl := c }, onCtrl_ok hc, last, hrest, hs.sm, by rw [hwire, hs.wire]; rfl⟩
  shiftRegister := by
    rintro s sm h ⟨last, hs⟩ hsm out hne hout
    obtain ⟨s', h', hs'⟩ := shiftRegister_shifts L hs hsm hne hout
    exact ⟨s', h', last, hs'⟩

end JtagOCDEngine

end PyOcdRiscv.Jtag
