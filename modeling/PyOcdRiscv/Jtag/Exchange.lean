import PyOcdRiscv.Jtag.ScanLevel
import PyOcdRiscv.Jtag.SameWire

/-!
# A register read and written in one scan

`readwrite_dr` on a data register of `n` bits, from any state of the engine that is in
step with the port, whether a bit is kept back or not. What it returns is what is in the
register when the shifting begins, and what it leaves there is what it was given
(`exchanged`).

That there is a capture on the way is the rule, but not always so: `change_state` takes
the shortest path, and from Shift-DR, Exit1-DR, Pause-DR and Exit2-DR it does not lead
through Capture-DR (`Captures`).
-/

namespace PyOcdRiscv.Jtag

open Lib

open JtagStateMachine (events)

/-- The edges of `es`, from state `s`, that are clocked in state `t`. -/
def edgesIn (t : TapState) : TapState → List Edge → ℕ
  | _, [] => 0
  | s, e :: es => (if s = t then 1 else 0) + edgesIn t (s.next e.tms) es

theorem edgesIn_append (t s : TapState) (es₁ es₂ : List Edge) :
    edgesIn t s (es₁ ++ es₂) = edgesIn t s es₁ + edgesIn t (s.after es₁) es₂ := by
  induction es₁ generalizing s with
  | nil => simp [edgesIn]
  | cons e es ih => simp only [List.cons_append, edgesIn, ih, TapState.after_cons, Nat.add_assoc]

/-- The states from which the way to Shift-DR leads through Capture-DR. -/
def Captures (s : TapState) : Bool := s ∉ [TapState.shiftDr, .exit1Dr, .pauseDr, .exit2Dr]

/-! ### The way to Shift-DR -/

/-- The TMS values that lead to Shift-DR. -/
def toShiftDr : TapState → List Bool
  | .testLogicReset => [false, true, false, false]
  | .runTestIdle | .updateDr | .updateIr => [true, false, false]
  | .selectDrScan => [false, false]
  | .captureDr => [false]
  | .shiftDr => []
  | .exit1Dr => [false, true, false]
  | .pauseDr => [true, false]
  | .exit2Dr => [false]
  | .selectIrScan => [true, false, true, false, false]
  | .captureIr => [true, true, true, false, false]
  | .shiftIr => [true, true, true, false, false]
  | .exit1Ir => [true, true, false, false]
  | .pauseIr => [true, true, true, false, false]
  | .exit2Ir => [true, true, false, false]

theorem events_shiftDr : ∀ s, events s .shiftDr = toShiftDr s := by decide +kernel

theorem edgesIn_toShiftDr (s : TapState) (b : Bool) :
    edgesIn .shiftDr s (moveEdges b (toShiftDr s)) = 0 ∧
      edgesIn .captureDr s (moveEdges b (toShiftDr s)) = if Captures s then 1 else 0 := by
  cases s <;> exact ⟨rfl, rfl⟩

/-! ### The register -/

section
variable {n : ℕ} (capture : ShiftReg n → ShiftReg n)

/-- A port with a data register of `n` bits; `capture` is what its capture loads. -/
def dataRegister : Port (ShiftReg n) where
  captureIr r := r
  shiftIr r _ := r
  updateIr r := r
  captureDr := capture
  shiftDr r b := r.shiftIn b
  updateDr r := r
  reset r := r
  outIr _ := false
  outDr r := r.out

/-- What is in the register when the shifting begins, from state `s`. -/
def shifted (s : TapState) (r : ShiftReg n) : ShiftReg n := if Captures s then capture r else r

theorem run_toShiftDr_register (s : TapState) (r : ShiftReg n) (b : Bool) :
    (dataRegister capture).machine.run (s, r) (moveEdges b (toShiftDr s)) = (.shiftDr, shifted capture s r) := by
  cases s <;> rfl

theorem outsDr_register (r : ShiftReg n) (l : List Bool) : (dataRegister capture).outsDr r l = r.outs l := by
  induction l generalizing r with
  | nil => rfl
  | cons b l ih => exact congrArg (r.out :: ·) (ih (r.shiftIn b))

theorem shiftsDr_register (r : ShiftReg n) (l : List Bool) :
    (dataRegister capture).shiftsDr r l = r.shiftAll l := rfl

/-- As many bits come out as are in it: all of them. -/
theorem outs_register (r : ShiftReg n) {l : List Bool} (hl : l.length = n) (hn : 0 < n) : r.outs l = r.bits := by
  rw [ShiftReg.outs_eq hn, List.take_left' (by simp [hl])]

/-! ### The scan -/

/-- A scan is clocked in the shift state, but for its last edge. -/
theorem edgesIn_scanEdges {l : List Bool} (hl : l ≠ []) :
    edgesIn .shiftDr .shiftDr (scanEdges l) = l.length ∧ edgesIn .captureDr .shiftDr (scanEdges l) = 0 := by
  have hdata (t : TapState) (l : List Bool) :
      edgesIn t .shiftDr (dataEdges l) = if t = .shiftDr then l.length else 0 := by
    induction l with
    | nil => simp [edgesIn]
    | cons b l ih =>
      have hstep : TapState.shiftDr.next false = .shiftDr := rfl
      rw [dataEdges_cons, edgesIn, hstep, ih]
      by_cases ht : t = .shiftDr
      · subst ht
        simp [Nat.add_comm]
      · simp [ht, Ne.symm ht]
  obtain ⟨l, b, rfl⟩ := (List.eq_nil_or_concat l).resolve_left hl
  rw [List.concat_eq_append, scanEdges, bitEdges_concat, List.append_assoc]
  constructor
  · rw [edgesIn_append, hdata, TapState.after_dataEdges (Or.inl rfl), List.length_append]
    rfl
  · rw [edgesIn_append, hdata, TapState.after_dataEdges (Or.inl rfl)]
    rfl

variable {σ : Type} {C : Controller σ} {x : TapState × ShiftReg n}
  {L : C.Lawful ((dataRegister capture).machine.shows x)}

/-- What a `readwrite_dr` of `out` does on an engine in state `s`, in step with a port in
state `sm` with `r` in its register: the value it returns, the edges it clocks, where they
lead; and that `read_dr` would have returned the same and `write_dr` have loaded the
same. -/
def Exchanged (L : C.Lawful ((dataRegister capture).machine.shows x)) (s : EngineState σ) (sm : TapState)
    (w : Wire) (r : ShiftReg n) (out : BitSequence) : Prop :=
  (∃ s' es, JtagOCDEngine.readwriteDr C out s = .ok (shifted capture sm r).value s' ∧
    JtagOCDEngine.At L s' .updateDr ⟨none, w.history ++ es⟩ ∧
    edgesIn .shiftDr sm es = n ∧ edgesIn .captureDr sm es = (if Captures sm then 1 else 0) ∧
    ((dataRegister capture).machine.run x (w.history ++ es)).1 = .updateDr ∧
    ((dataRegister capture).machine.run x (w.history ++ es)).2.bits = out) ∧
  (∃ s' bits, JtagOCDEngine.readDr C n s = .ok bits s' ∧ BitSequence.toInt bits = (shifted capture sm r).value) ∧
  ∃ s' h, JtagOCDEngine.writeDr C out s = .ok () s' ∧ JtagOCDEngine.At L s' .updateDr ⟨none, h⟩ ∧
    ((dataRegister capture).machine.run x h).2.bits = out

/-- **A scan that reads and writes.** -/
theorem exchanged {s : EngineState σ} {sm : TapState} {w : Wire} {r : ShiftReg n}
    (hs : JtagOCDEngine.At L s sm w) (hx : (dataRegister capture).machine.run x w.history = (sm, r))
    {out : BitSequence} (hlen : out.length = n) (hn : 0 < n) (hc : L.Carries out) :
    Exchanged capture L s sm w r out := by
  have hne : out ≠ [] := by
    rintro rfl
    exact absurd hlen (by simp; omega)
  -- the register, once the port is in Shift-DR
  have hmove : (dataRegister capture).machine.run x (w.history ++ moveEdges w.tdi (toShiftDr sm)) =
      (.shiftDr, shifted capture sm r) := by
    rw [Machine.run_append, hx, run_toShiftDr_register]
  have hscan : (dataRegister capture).machine.run x
      (w.history ++ moveEdges w.tdi (toShiftDr sm) ++ scanEdges out) = (.updateDr, ⟨out, hlen⟩) := by
    rw [Machine.run_append, hmove, Port.run_scanDr _ _ hne, shiftsDr_register, ShiftReg.shiftAll_eq _ hlen]
    rfl
  have hhist : (w.afterTms (events sm .shiftDr)).history = w.history ++ moveEdges w.tdi (toShiftDr sm) := by
    rw [JtagOCDEngine.history_afterTms, events_shiftDr]
  refine ⟨?_, ?_, ?_⟩
  · obtain ⟨s', h', hs'⟩ := JtagOCDEngine.readwriteDr_of hs hne fun c hr => hc.writeread true c (fun _ => hne) hr
    rw [hhist] at h' hs'
    obtain ⟨hshift, hcapture⟩ := edgesIn_toShiftDr sm w.tdi
    obtain ⟨hshift', hcapture'⟩ := edgesIn_scanEdges hne
    have hafter : sm.after (moveEdges w.tdi (toShiftDr sm)) = .shiftDr := by
      rw [← events_shiftDr, ← JtagStateMachine.handleEvents_eq_after, JtagStateMachine.handleEvents_events]
    refine ⟨s', moveEdges w.tdi (toShiftDr sm) ++ scanEdges out, ?_, ?_, ?_, ?_, ?_, ?_⟩
    · rw [h', Machine.sample_shows, hmove, Port.outs_bitsDr _ _ hne, outsDr_register,
        outs_register _ hlen hn]
      rfl
    · rw [← List.append_assoc]
      exact hs'
    · rw [edgesIn_append, hshift, hafter, hshift', hlen, Nat.zero_add]
    · rw [edgesIn_append, hcapture, hafter, hcapture', Nat.add_zero]
    · rw [← List.append_assoc, hscan]
    · rw [← List.append_assoc, hscan]
  · obtain ⟨s', h', -⟩ := JtagOCDEngine.readDr_of (n := out.length) hs hc.read
    rw [hhist, hlen] at h'
    refine ⟨s', _, h', ?_⟩
    rw [BitSequence.toInt_eq, JtagOCDEngine.value_asRead, Machine.sample_shows, hmove, Port.outs_dataDr,
      outsDr_register, outs_register _ (List.length_replicate ..) hn]
    rfl
  · obtain ⟨s', h', hs'⟩ := JtagOCDEngine.scan_of hs JtagOCDEngine.events_update.2
      fun c hr => hc.write true c (fun _ => hne) hr
    rw [hhist] at hs'
    refine ⟨s', _, h', hs', ?_⟩
    rw [hscan]

end

/-! ### On the two controllers -/

/-- **A register is exchanged in one scan**: on the simulator's controller whatever its
length, and on the USB-Blaster's if it is shorter than 512 bits. -/
theorem readwriteDr_exchanges {n : ℕ} (hn : 0 < n) (capture : ShiftReg n → ShiftReg n) (x : TapState × ShiftReg n)
    {sm : TapState} {w : Wire} {r : ShiftReg n} (hx : (dataRegister capture).machine.run x w.history = (sm, r))
    {out : BitSequence} (hlen : out.length = n) :
    (∀ s, JtagOCDEngine.At (JtagSimController.lawful ((dataRegister capture).machine.shows x)) s sm w →
      Exchanged capture (JtagSimController.lawful ((dataRegister capture).machine.shows x)) s sm w r out) ∧
    (n < 512 → ∀ s, JtagOCDEngine.At (Blaster.lawful ((dataRegister capture).machine.shows x)) s sm w →
      Exchanged capture (Blaster.lawful ((dataRegister capture).machine.shows x)) s sm w r out) := by
  constructor
  · intro s hs
    exact exchanged capture hs hx hlen hn (JtagSimController.carries _ out)
  · intro hlt s hs
    exact exchanged capture hs hx hlen hn (Controller.Lawful.carries _ (by rw [hlen]; exact hlt))

/-- Two bits, from Test-Logic-Reset, with a bit kept back that the first move takes
along. -/
theorem readwriteDr_exchanges_two :
    Exchanged id (Blaster.lawful ((dataRegister id).machine.shows (.testLogicReset, ShiftReg.ofNat 2 1)))
      ⟨.testLogicReset, { Blaster.fresh with last := some true }⟩ .testLogicReset ⟨some true, []⟩
      (ShiftReg.ofNat 2 1) [false, true] := by
  have hx : (dataRegister id).machine.run (.testLogicReset, ShiftReg.ofNat 2 1) (Wire.mk (some true) []).history =
    (.testLogicReset, ShiftReg.ofNat 2 1) := rfl
  have hlen : [false, true].length = 2 := rfl
  exact (readwriteDr_exchanges (by decide) id _ hx hlen).2 (by decide) _ ⟨⟨rfl, rfl⟩, rfl, rfl⟩

/-- **There is not always a capture on the way**: a scan that finds the port in Shift-DR goes
on shifting. -/
theorem shiftDr_not_captured : ¬ ∀ (n : ℕ) (capture : ShiftReg n → ShiftReg n) (x : TapState × ShiftReg n)
    (s s' : EngineState Wire) (sm : TapState) (w : Wire) (r : ShiftReg n) (out : BitSequence) (v : ℕ)
    (es : List Edge), 0 < n → out.length = n → (dataRegister capture).machine.run x w.history = (sm, r) →
    JtagOCDEngine.At (JtagSimController.lawful ((dataRegister capture).machine.shows x)) s sm w →
    JtagOCDEngine.readwriteDr (JtagSimController.controller ((dataRegister capture).machine.shows x)) out s =
      .ok v s' → s'.ctrl.history = w.history ++ es → edgesIn .captureDr sm es = 1 := by
  intro h
  have hscan := h 1 id (.shiftDr, ShiftReg.ofNat 1 0) ⟨.shiftDr, ⟨none, []⟩⟩
    ⟨.updateDr, ⟨none, scanEdges [true]⟩⟩ .shiftDr ⟨none, []⟩ (ShiftReg.ofNat 1 0) [true] 0 (scanEdges [true])
    (by decide) rfl rfl ⟨trivial, rfl, rfl⟩ rfl rfl
  exact absurd hscan (by decide)

end PyOcdRiscv.Jtag
