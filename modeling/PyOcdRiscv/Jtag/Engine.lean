import PyOcdRiscv.Jtag.Controller
import PyOcdRiscv.Jtag.EngineCall

/-!
# The engine

`JtagOCDEngine` of `dbgjtag.py`, over any controller. It moves the port along the path
its state machine finds, has the controller shift, and tells the state machine where the
port has gone; the port itself is never asked.

For a lawful controller that keeps no bit back, each call is a list of edges
(`EngineCall.edges`), an answer made of what TDO showed at them (`EngineCall.answer`),
and a new state of the state machine (`EngineCall.leaves`): `handler_eq`.
-/

namespace PyOcdRiscv.Jtag

open Lib

/-- A `JtagOCDEngine`. -/
structure EngineState (σ : Type) where
  /-- `self._sm`. -/
  sm : TapState
  /-- `self._ctrl`. -/
  ctrl : σ

namespace JtagOCDEngine

variable {σ : Type}

/-- The monad of its methods. -/
abbrev M (σ : Type) := EStateM Fault (EngineState σ)

/-- A call on `self._ctrl`. -/
def onCtrl {α : Type} (x : EStateM Fault σ α) : M σ α := fun s =>
  match x s.ctrl with
  | .ok a c => .ok a { s with ctrl := c }
  | .error e c => .error e { s with ctrl := c }

/-- `self._sm.handle_events(events)`. -/
def handleEvents (events : BitSequence) : M σ Unit :=
  modify fun s => { s with sm := JtagStateMachine.handleEvents s.sm events }

variable (C : Controller σ)

/-- `change_state`. -/
def changeState (statename : TapState) : M σ Unit := do
  let s ← get
  match JtagStateMachine.getEvents (JtagStateMachine.findPath statename s.sm) with
  | .error e => throw e
  | .ok events => do
    let _ ← onCtrl (C.writeTms events false)
    handleEvents events

/-- `reset`. -/
def reset : M σ Unit := do
  onCtrl C.reset
  modify fun s => { s with sm := .testLogicReset }

/-- `write_ir`. -/
def writeIr (instruction : BitSequence) : M σ Unit := do
  changeState C .shiftIr
  onCtrl (C.write instruction true)
  changeState C .updateIr

/-- `write_dr`. -/
def writeDr (data : BitSequence) : M σ Unit := do
  changeState C .shiftDr
  onCtrl (C.write data true)
  changeState C .updateDr

/-- `read_dr`. -/
def readDr (length : ℕ) : M σ BitSequence := do
  changeState C .shiftDr
  let data ← onCtrl (C.read length)
  changeState C .updateDr
  return data

/-- `readwrite_dr`. -/
def readwriteDr (out : BitSequence) : M σ ℕ := do
  changeState C .shiftDr
  let data ← onCtrl (C.writeread out true)
  let tdo ← onCtrl (C.writeTms [true, true] true)
  handleEvents [true, true]
  return data.toInt + tdo.toInt <<< (out.length - 1)

/-- `write_vir`. -/
def writeVir (val : BitSequence) : M σ Unit := do
  writeIr C (BitSequence.ofInt VIR false 10)
  writeDr C (virWord val)
  writeIr C (BitSequence.ofInt VDR false 10)

/-- `shift_register`. -/
def shiftRegister (out : BitSequence) : M σ BitSequence := do
  let s ← get
  if JtagStateMachine.isOf .shift s.sm = false then throw .invalidState
  if JtagStateMachine.isOf .capture s.sm then
    let _ ← onCtrl (C.writeTms [false] false)
    handleEvents [false]
  onCtrl (C.writeread out false)

/-- The methods. -/
def handler : (o : EngineCall) → M σ (Engine.Res o)
  | .changeState statename => changeState C statename
  | .writeIr instruction => writeIr C instruction
  | .writeDr data => writeDr C data
  | .readDr length => readDr C length
  | .readwriteDr out => readwriteDr C out
  | .writeVir val => writeVir C val
  | .shiftRegister out => shiftRegister C out
  | .writeTms out shouldRead => onCtrl (C.writeTms out shouldRead)
  | .reset => reset C

end JtagOCDEngine

/-! ### What a call comes to -/

open JtagStateMachine (events)

/-- The edges of a scan of `l` by way of the shift state `t`, from state `s`. -/
def scanFrom (s t : TapState) (l : BitSequence) : List Edge := moveEdges false (events s t) ++ scanEdges l

namespace EngineCall

/-- The edges of a call that finds the port in state `s`. -/
def edges (s : TapState) : EngineCall → List Edge
  | .changeState statename => moveEdges false (events s statename)
  | .writeIr instruction => scanFrom s .shiftIr instruction
  | .writeDr data => scanFrom s .shiftDr data
  | .readDr length => scanFrom s .shiftDr (List.replicate (length + 1) false)
  | .readwriteDr out => scanFrom s .shiftDr out
  | .writeVir val =>
    scanFrom s .shiftIr (BitSequence.ofInt VIR false 10) ++
      (scanFrom .updateIr .shiftDr (virWord val) ++
        scanFrom .updateDr .shiftIr (BitSequence.ofInt VDR false 10))
  | .shiftRegister out =>
    (if JtagStateMachine.isOf .capture s then [⟨false, false⟩] else []) ++ dataEdges out
  | .writeTms out _ => moveEdges false out
  | .reset => moveEdges false (List.replicate 5 true)

/-- The state a call leaves the state machine in. -/
def leaves (s : TapState) : EngineCall → TapState
  | .changeState statename => statename
  | .writeIr _ | .writeVir _ => .updateIr
  | .writeDr _ | .readDr _ | .readwriteDr _ => .updateDr
  | .shiftRegister _ => if JtagStateMachine.isOf .capture s then s.next false else s
  | .writeTms _ _ => s
  | .reset => .testLogicReset

/-- What a call returns, for a target that shows `tdo` and has seen `h`. -/
def answer (tdo : History → Bool) (h : History) (s : TapState) : (o : EngineCall) → Engine.Res o
  | .changeState _ | .writeIr _ | .writeDr _ | .writeVir _ | .reset => ()
  | .readDr length =>
    asRead (sample tdo (h ++ moveEdges false (events s .shiftDr)) (dataEdges (List.replicate length false)))
  | .readwriteDr out => value (sample tdo (h ++ moveEdges false (events s .shiftDr)) (bitEdges out))
  | .shiftRegister out =>
    asRead (sample tdo (h ++ if JtagStateMachine.isOf .capture s then [⟨false, false⟩] else [])
      (dataEdges out))
  | .writeTms _ _ => [false]

/-- The calls that do what they are for in state `s`: scans shorter than 512 bits, of a
bit at least if the last one goes out with a move, `shift_register` in a capture or a
shift state, and of `write_tms` itself only cycles of Run-Test/Idle. -/
def Fits (s : TapState) : EngineCall → Prop
  | .changeState _ | .reset => True
  | .writeIr l | .writeDr l | .readwriteDr l => l ≠ [] ∧ l.length < 512
  | .readDr length => length < 512
  | .writeVir val => val.length < 512
  | .shiftRegister out =>
    s ∈ [TapState.captureDr, .shiftDr, .captureIr, .shiftIr] ∧ out.length < 512
  | .writeTms out shouldRead =>
    s = .runTestIdle ∧ shouldRead = false ∧ out = List.replicate out.length false

end EngineCall

namespace JtagOCDEngine

variable {σ : Type} {C : Controller σ} {tdo : History → Bool} {L : C.Lawful tdo}

/-- Where an engine is: its controller rests, with `w` to see, and the state machine is in
state `sm`. -/
structure At (L : C.Lawful tdo) (s : EngineState σ) (sm : TapState) (w : Wire) : Prop where
  rest : L.Rest s.ctrl
  sm : s.sm = sm
  wire : L.wire s.ctrl = w

theorem onCtrl_ok {α : Type} {x : EStateM Fault σ α} {s : EngineState σ} {a : α} {c : σ}
    (h : x s.ctrl = .ok a c) : onCtrl x s = .ok a { s with ctrl := c } := by
  simp only [onCtrl, h]

/-- TMS values with no bit kept back. -/
theorem afterTms_none (h : History) (tms : BitSequence) :
    (⟨none, h⟩ : Wire).afterTms tms = ⟨none, h ++ moveEdges false tms⟩ := by
  cases tms with
  | nil => simp [Wire.afterTms, moveEdges]
  | cons t tms => rfl

/-- What a move puts on the wire. -/
theorem history_afterTms (w : Wire) (tms : BitSequence) :
    (w.afterTms tms).history = w.history ++ moveEdges w.tdi tms := by
  rw [Wire.afterTms]
  split_ifs with h
  · rw [h, moveEdges, List.append_nil]
  · rfl

/-- The end of a scan: the move takes the last bit along. -/
theorem afterTms_scan (w : Wire) (l : BitSequence) :
    (w.afterScan l true).afterTms [true, true] = ⟨none, w.history ++ scanEdges l⟩ := by
  have htdi : (w.afterScan l true).tdi = l.getLast?.getD false := by
    simp only [Wire.tdi, Wire.afterScan, if_true]
    cases l.getLast? with
    | none => rfl
    | some b => cases b <;> rfl
  rw [Wire.afterTms, if_neg (by simp), htdi]
  simp [Wire.afterScan, Wire.now, scanEdges, bitEdges, moveEdges]

/-- And of a `read_dr`, which has no bit kept back: the move shifts a zero in. -/
theorem afterTms_read (h : History) (n : ℕ) :
    ((⟨none, h⟩ : Wire).afterScan (List.replicate n false) false).afterTms [true, true] =
      ⟨none, h ++ scanEdges (List.replicate (n + 1) false)⟩ := by
  rw [Wire.afterTms, if_neg (by simp), scanEdges, bitEdges_zeros]
  simp [Wire.afterScan, Wire.now, moveEdges, Wire.tdi]

/-- A shift state is left for its update state by two ones. -/
theorem events_update : events .shiftIr .updateIr = [true, true] ∧ events .shiftDr .updateDr = [true, true] := by
  decide +kernel

theorem handleEvents_ok {s : EngineState σ} {sm : TapState} {w : Wire} (h : At L s sm w)
    (tms : BitSequence) : ∃ s', handleEvents tms s = .ok () s' ∧
      At L s' (JtagStateMachine.handleEvents sm tms) w := by
  refine ⟨{ s with sm := JtagStateMachine.handleEvents s.sm tms }, rfl, h.rest, ?_, h.wire⟩
  rw [← h.sm]

theorem changeState_eq {s : EngineState σ} {sm : TapState} {w : Wire} (h : At L s sm w) (t : TapState) :
    ∃ s', changeState C t s = .ok () s' ∧ At L s' t (w.afterTms (events sm t)) := by
  obtain ⟨c, hc, hr, hw⟩ := L.writeTms (events sm t) false s.ctrl h.rest
  obtain ⟨s', h', hs'⟩ := handleEvents_ok (L := L) (s := { s with ctrl := c }) ⟨hr, h.sm, hw⟩ (events sm t)
  rw [JtagStateMachine.handleEvents_events, h.wire] at hs'
  refine ⟨s', ?_, hs'⟩
  have hget : (get : M σ _) s = .ok s s := rfl
  rw [changeState, Prog.bind_ok hget, h.sm, JtagStateMachine.getEvents_findPath]
  dsimp only
  rw [Prog.bind_ok (onCtrl_ok hc), h']

/-- A bit sequence of a length below 512 can be scanned. -/
theorem scanOk {l : BitSequence} (hl : l ≠ [] ∧ l.length < 512) : ScanOk l true :=
  ⟨by simp only [Wire.now, if_true, List.length_dropLast]; omega, fun _ => hl.1⟩

/-- **A scan that writes**, of either column, whether a bit is kept back or not. -/
theorem scan_of {s : EngineState σ} {sm t u : TapState} {w : Wire} (hs : At L s sm w)
    (htu : events t u = [true, true]) {l : BitSequence} (hl : ∀ s, L.Rest s → ∃ s',
      C.write l true s = .ok () s' ∧ L.Rest s' ∧ L.wire s' = (L.wire s).afterScan l true) :
    ∃ s', (do changeState C t; onCtrl (C.write l true); changeState C u) s = .ok () s' ∧
      At L s' u ⟨none, (w.afterTms (events sm t)).history ++ scanEdges l⟩ := by
  obtain ⟨s₁, h₁, hs₁⟩ := changeState_eq hs t
  obtain ⟨c, hc, hr, hw⟩ := hl s₁.ctrl hs₁.rest
  rw [hs₁.wire] at hw
  obtain ⟨s₃, h₃, hs₃⟩ := changeState_eq (L := L) (s := { s₁ with ctrl := c }) ⟨hr, hs₁.sm, hw⟩ u
  rw [htu, afterTms_scan] at hs₃
  exact ⟨s₃, by rw [Prog.bind_ok h₁, Prog.bind_ok (onCtrl_ok hc), h₃], hs₃⟩

theorem scan_eq {s : EngineState σ} {sm t u : TapState} {h : History} (hs : At L s sm ⟨none, h⟩)
    (htu : events t u = [true, true]) {l : BitSequence} (hl : ScanOk l true) :
    ∃ s', (do changeState C t; onCtrl (C.write l true); changeState C u) s = .ok () s' ∧
      At L s' u ⟨none, h ++ scanFrom sm t l⟩ := by
  obtain ⟨s', h', hs'⟩ := scan_of hs htu fun s hr => L.write l true s hl hr
  rw [afterTms_none, List.append_assoc] at hs'
  exact ⟨s', h', hs'⟩

theorem writeIr_eq {s : EngineState σ} {sm : TapState} {h : History} (hs : At L s sm ⟨none, h⟩)
    {l : BitSequence} (hl : ScanOk l true) : ∃ s', writeIr C l s = .ok () s' ∧
      At L s' .updateIr ⟨none, h ++ scanFrom sm .shiftIr l⟩ := scan_eq hs events_update.1 hl

theorem writeDr_eq {s : EngineState σ} {sm : TapState} {h : History} (hs : At L s sm ⟨none, h⟩)
    {l : BitSequence} (hl : ScanOk l true) : ∃ s', writeDr C l s = .ok () s' ∧
      At L s' .updateDr ⟨none, h ++ scanFrom sm .shiftDr l⟩ := scan_eq hs events_update.2 hl

/-- **A scan that reads**, whether a bit is kept back or not. -/
theorem readDr_of {s : EngineState σ} {sm : TapState} {w : Wire} (hs : At L s sm w) {n : ℕ}
    (hread : ∀ s, L.Rest s → ∃ s',
      C.read n s = .ok (asRead ((L.wire s).shifted tdo (List.replicate n false))) s' ∧ L.Rest s' ∧
        L.wire s' = (L.wire s).afterScan (List.replicate n false) false) : ∃ s',
      readDr C n s = .ok (asRead (sample tdo (w.afterTms (events sm .shiftDr)).history
          (dataEdges (List.replicate n false)))) s' ∧
        At L s' .updateDr
          (((w.afterTms (events sm .shiftDr)).afterScan (List.replicate n false) false).afterTms [true, true]) := by
  obtain ⟨s₁, h₁, hs₁⟩ := changeState_eq hs .shiftDr
  obtain ⟨c, hc, hr, hw⟩ := hread s₁.ctrl hs₁.rest
  rw [hs₁.wire] at hc hw
  obtain ⟨s₃, h₃, hs₃⟩ := changeState_eq (L := L) (s := { s₁ with ctrl := c }) ⟨hr, hs₁.sm, hw⟩ .updateDr
  rw [events_update.2] at hs₃
  refine ⟨s₃, ?_, hs₃⟩
  rw [readDr, Prog.bind_ok h₁, Prog.bind_ok (onCtrl_ok hc), Prog.bind_ok h₃]
  rfl

theorem readDr_eq {s : EngineState σ} {sm : TapState} {h : History} (hs : At L s sm ⟨none, h⟩) {n : ℕ}
    (hn : n < 512) : ∃ s',
      readDr C n s = .ok (EngineCall.answer tdo h sm (.readDr n)) s' ∧
        At L s' .updateDr ⟨none, h ++ scanFrom sm .shiftDr (List.replicate (n + 1) false)⟩ := by
  obtain ⟨s', h', hs'⟩ := readDr_of hs fun s hr => L.read n s hn hr
  rw [afterTms_none] at h' hs'
  rw [afterTms_read, List.append_assoc] at hs'
  exact ⟨s', h', hs'⟩

theorem value_asRead (l : BitSequence) : value (asRead l) = value l := by
  by_cases hl : l = []
  · subst hl
    rfl
  · rw [asRead_eq hl]

variable (tdo) in
/-- The bits `readwrite_dr` reads, and the one that comes out at the move. -/
theorem value_sample_bits (h : History) (out : BitSequence) :
    value (sample tdo h (dataEdges out.dropLast)) +
        (tdo (h ++ dataEdges out.dropLast)).toNat <<< (out.length - 1) =
      value (sample tdo h (bitEdges out)) := by
  rw [bitEdges, sample_append, value_append, length_sample, length_dataEdges, List.length_dropLast,
    Nat.shiftLeft_eq, Nat.mul_comm]
  simp

/-- **A scan that reads and writes**, whether a bit is kept back or not. -/
theorem readwriteDr_of {s : EngineState σ} {sm : TapState} {w : Wire} (hs : At L s sm w) {out : BitSequence}
    (hne : out ≠ []) (hout : ∀ s, L.Rest s → ∃ s',
      C.writeread out true s = .ok (asRead ((L.wire s).shifted tdo out.dropLast)) s' ∧ L.Rest s' ∧
        L.wire s' = (L.wire s).afterScan out true) : ∃ s',
      readwriteDr C out s =
          .ok (value (sample tdo (w.afterTms (events sm .shiftDr)).history (bitEdges out))) s' ∧
        At L s' .updateDr ⟨none, (w.afterTms (events sm .shiftDr)).history ++ scanEdges out⟩ := by
  obtain ⟨s₁, h₁, hs₁⟩ := changeState_eq hs .shiftDr
  obtain ⟨c, hc, hr, hw⟩ := hout s₁.ctrl hs₁.rest
  rw [hs₁.wire] at hc hw
  obtain ⟨c', hc', hr', hw'⟩ := L.writeTms [true, true] true c hr
  have hlast : (L.wire c).last.isSome = true := by
    rw [hw]
    simpa [Wire.afterScan] using hne
  rw [hlast, if_pos rfl, hw] at hc'
  rw [hw, afterTms_scan] at hw'
  obtain ⟨s₃, h₃, hs₃⟩ := handleEvents_ok (L := L) (s := { s₁ with ctrl := c' }) ⟨hr', hs₁.sm, hw'⟩
    [true, true]
  refine ⟨s₃, ?_, hs₃⟩
  rw [readwriteDr, Prog.bind_ok h₁, Prog.bind_ok (onCtrl_ok hc)]
  rw [Prog.bind_ok (onCtrl_ok (s := { s₁ with ctrl := c }) hc'), Prog.bind_ok h₃]
  have hval := value_sample_bits tdo (w.afterTms (events sm .shiftDr)).history out
  refine congrArg (fun v => EStateM.Result.ok v s₃) ?_
  rw [BitSequence.toInt_eq, BitSequence.toInt_eq, value_asRead]
  refine Eq.trans ?_ hval
  simp [Wire.shifted, Wire.now, Wire.afterScan]

theorem readwriteDr_eq {s : EngineState σ} {sm : TapState} {h : History} (hs : At L s sm ⟨none, h⟩)
    {out : BitSequence} (hout : out ≠ [] ∧ out.length < 512) : ∃ s',
      readwriteDr C out s = .ok (EngineCall.answer tdo h sm (.readwriteDr out)) s' ∧
        At L s' .updateDr ⟨none, h ++ scanFrom sm .shiftDr out⟩ := by
  obtain ⟨s', h', hs'⟩ := readwriteDr_of hs hout.1 fun s hr => L.writeread out true s (scanOk hout) hr
  rw [afterTms_none] at h' hs'
  rw [List.append_assoc] at hs'
  exact ⟨s', h', hs'⟩

theorem writeVir_eq {s : EngineState σ} {sm : TapState} {h : History} (hs : At L s sm ⟨none, h⟩)
    {val : BitSequence} (hval : val.length < 512) : ∃ s', writeVir C val s = .ok () s' ∧
      At L s' .updateIr ⟨none, h ++ EngineCall.edges sm (.writeVir val)⟩ := by
  have hir (v : ℕ) : ScanOk (BitSequence.ofInt v false 10) true := by
    rw [BitSequence.ofInt_eq (by decide)]
    exact scanOk ⟨by simp [bits], by simp⟩
  have hdr : ScanOk (virWord val) true := by
    rw [virWord_eq]
    exact ⟨by simpa [Wire.now] using hval, fun _ => by simp⟩
  obtain ⟨s₁, h₁, hs₁⟩ := writeIr_eq hs (hir VIR)
  obtain ⟨s₂, h₂, hs₂⟩ := writeDr_eq hs₁ hdr
  obtain ⟨s₃, h₃, hs₃⟩ := writeIr_eq hs₂ (hir VDR)
  refine ⟨s₃, by rw [writeVir, Prog.bind_ok h₁, Prog.bind_ok h₂, h₃], ?_⟩
  rw [List.append_assoc, List.append_assoc] at hs₃
  exact hs₃

/-- Capture and shift states are states of the mode `shift`. -/
theorem isOf_shift {s : TapState} (hs : s ∈ [TapState.captureDr, .shiftDr, .captureIr, .shiftIr]) :
    JtagStateMachine.isOf .shift s = true := by
  revert s
  decide

/-- **`shift_register`**, where it is let through, whether a bit is kept back or not. -/
theorem shiftRegister_of {s : EngineState σ} {sm : TapState} {w : Wire} (hs : At L s sm w)
    (hshift : JtagStateMachine.isOf .shift sm = true) {out : BitSequence} (hout : ∀ s, L.Rest s → ∃ s',
      C.writeread out false s = .ok (asRead ((L.wire s).shifted tdo out)) s' ∧ L.Rest s' ∧
        L.wire s' = (L.wire s).afterScan out false) : ∃ s',
      let w' := if JtagStateMachine.isOf .capture sm then w.afterTms [false] else w
      shiftRegister C out s = .ok (asRead (w'.shifted tdo out)) s' ∧
        At L s' (EngineCall.leaves sm (.shiftRegister out)) (w'.afterScan out false) := by
  obtain ⟨hrest, rfl, hwire⟩ := hs
  have hget : (get : M σ _) s = .ok s s := rfl
  by_cases hcap : JtagStateMachine.isOf .capture s.sm = true
  · obtain ⟨c, hc, hr, hw⟩ := L.writeTms [false] false s.ctrl hrest
    rw [hwire] at hw
    obtain ⟨s₁, h₁, hs₁⟩ := handleEvents_ok (L := L) (s := { s with ctrl := c }) ⟨hr, rfl, hw⟩ [false]
    obtain ⟨c', hc', hr', hw'⟩ := hout s₁.ctrl hs₁.rest
    rw [hs₁.wire] at hc' hw'
    refine ⟨{ s₁ with ctrl := c' }, ?_, hr', ?_, ?_⟩
    · rw [shiftRegister, Prog.bind_ok hget, hshift]
      simp only [Bool.true_eq_false, if_false, hcap, if_true]
      rw [Prog.bind_ok (onCtrl_ok hc), Prog.bind_ok h₁, onCtrl_ok hc']
    · rw [EngineCall.leaves, if_pos hcap, ← JtagStateMachine.getx_eq]
      exact hs₁.sm
    · rw [hw', if_pos hcap]
  · obtain ⟨c', hc', hr', hw'⟩ := hout s.ctrl hrest
    rw [hwire] at hc' hw'
    refine ⟨{ s with ctrl := c' }, ?_, hr', ?_, ?_⟩
    · rw [shiftRegister, Prog.bind_ok hget, hshift]
      simp only [Bool.true_eq_false, if_false, hcap, Bool.false_eq_true]
      rw [onCtrl_ok hc']
    · rw [EngineCall.leaves, if_neg hcap]
    · rw [hw', if_neg hcap]

theorem shiftRegister_eq {s : EngineState σ} {sm : TapState} {h : History} (hs : At L s sm ⟨none, h⟩)
    {out : BitSequence} (hfit : EngineCall.Fits sm (.shiftRegister out)) : ∃ s',
      shiftRegister C out s = .ok (EngineCall.answer tdo h sm (.shiftRegister out)) s' ∧
        At L s' (EngineCall.leaves sm (.shiftRegister out))
          ⟨none, h ++ EngineCall.edges sm (.shiftRegister out)⟩ := by
  have hok : ScanOk out false := ⟨hfit.2, by simp⟩
  obtain ⟨s', h', hs'⟩ := shiftRegister_of hs (isOf_shift hfit.1) fun s hr => L.writeread out false s hok hr
  refine ⟨s', h'.trans ?_, ?_⟩
  · by_cases hcap : JtagStateMachine.isOf .capture sm = true
    · rw [if_pos hcap, EngineCall.answer, if_pos hcap]
      rfl
    · rw [if_neg hcap, EngineCall.answer, if_neg hcap, List.append_nil]
      rfl
  · by_cases hcap : JtagStateMachine.isOf .capture sm = true
    · rw [if_pos hcap] at hs'
      rw [EngineCall.edges, if_pos hcap, ← List.append_assoc]
      exact hs'
    · rw [if_neg hcap] at hs'
      rw [EngineCall.edges, if_neg hcap, List.nil_append]
      exact hs'

/-- If the scan fails, so does the call. -/
theorem shiftRegister_error {s : EngineState σ} {sm : TapState} {w : Wire} (hs : At L s sm w)
    (hshift : JtagStateMachine.isOf .shift sm = true) {out : BitSequence} {e : Fault}
    (hout : ∀ s, ∃ s', C.writeread out false s = .error e s') : ∃ s', shiftRegister C out s = .error e s' := by
  obtain ⟨hrest, rfl, hwire⟩ := hs
  have hget : (get : M σ _) s = .ok s s := rfl
  have herr (s : EngineState σ) : ∃ s', onCtrl (C.writeread out false) s = .error e s' := by
    obtain ⟨c, hc⟩ := hout s.ctrl
    exact ⟨{ s with ctrl := c }, by rw [onCtrl, hc]⟩
  by_cases hcap : JtagStateMachine.isOf .capture s.sm = true
  · obtain ⟨c, hc, hr, hw⟩ := L.writeTms [false] false s.ctrl hrest
    obtain ⟨s₁, h₁, -⟩ := handleEvents_ok (L := L) (s := { s with ctrl := c }) ⟨hr, rfl, hw⟩ [false]
    obtain ⟨s', h'⟩ := herr s₁
    refine ⟨s', ?_⟩
    rw [shiftRegister, Prog.bind_ok hget, hshift]
    simp only [Bool.true_eq_false, if_false, hcap, if_true]
    rw [Prog.bind_ok (onCtrl_ok hc), Prog.bind_ok h₁, h']
  · obtain ⟨s', h'⟩ := herr s
    refine ⟨s', ?_⟩
    rw [shiftRegister, Prog.bind_ok hget, hshift]
    simp only [Bool.true_eq_false, if_false, hcap, Bool.false_eq_true]
    rw [h']

/-- **Elsewhere it is refused**, and nothing is done. -/
theorem shiftRegister_refused {s : EngineState σ} (hs : JtagStateMachine.isOf .shift s.sm = false)
    (out : BitSequence) : shiftRegister C out s = .error .invalidState s := by
  have hget : (get : M σ _) s = .ok s s := rfl
  rw [shiftRegister, Prog.bind_ok hget, if_pos hs]
  rfl

/-- `reset` does not ask where the port is, nor whether a bit is kept back. -/
theorem reset_eq {s : EngineState σ} {sm : TapState} {w : Wire} (hs : At L s sm w) : ∃ s',
    reset C s = .ok () s' ∧
      At L s' .testLogicReset ⟨none, w.history ++ moveEdges w.tdi (List.replicate 5 true)⟩ := by
  obtain ⟨c, hc, hr, hw⟩ := L.reset s.ctrl hs.rest
  rw [hs.wire, Wire.afterTms, if_neg (by decide)] at hw
  refine ⟨⟨.testLogicReset, c⟩, ?_, hr, rfl, hw⟩
  rw [reset, Prog.bind_ok (onCtrl_ok hc)]
  rfl

/-- **What a call does**, if no bit is kept back: it clocks its edges, returns its answer,
and keeps no bit back either. -/
theorem handler_eq {s : EngineState σ} {sm : TapState} {h : History} (hs : At L s sm ⟨none, h⟩)
    {o : EngineCall} (ho : o.Fits sm) : ∃ s',
      handler C o s = .ok (o.answer tdo h sm) s' ∧ At L s' (o.leaves sm) ⟨none, h ++ o.edges sm⟩ := by
  cases o with
  | changeState t =>
    obtain ⟨s', h', hs'⟩ := changeState_eq hs t
    rw [afterTms_none] at hs'
    exact ⟨s', h', hs'⟩
  | writeIr l => exact writeIr_eq hs (scanOk ho)
  | writeDr l => exact writeDr_eq hs (scanOk ho)
  | readDr n => exact readDr_eq hs ho
  | readwriteDr out => exact readwriteDr_eq hs ho
  | writeVir val => exact writeVir_eq hs ho
  | shiftRegister out => exact shiftRegister_eq hs ho
  | writeTms out shouldRead =>
    obtain ⟨-, rfl, -⟩ := ho
    obtain ⟨c, hc, hr, hw⟩ := L.writeTms out false s.ctrl hs.rest
    rw [hs.wire, afterTms_none] at hw
    exact ⟨{ s with ctrl := c }, onCtrl_ok hc, hr, hs.sm, hw⟩
  | reset => exact reset_eq hs

end JtagOCDEngine

end PyOcdRiscv.Jtag
