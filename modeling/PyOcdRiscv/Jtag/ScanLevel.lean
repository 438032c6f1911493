import PyOcdRiscv.Jtag.Engine
import PyOcdRiscv.Jtag.Scans

/-!
# From edges to scans

What joins the two views of the engine. Against a device behind a port, from a state in
which the port rests, the edges of a call that is a whole scan or a move to
Run-Test/Idle do to the device what `onScans` says, and the answer is the one `onScans`
gives (`handler_onScans`). So a program of such calls can be followed scan by scan
(`exec_onScans`).
-/

namespace PyOcdRiscv.Jtag

open Lib

open JtagStateMachine (events)

/-- The states in which a port rests: nothing is captured or shifted on leaving them. -/
def Resting (s : TapState) : Prop := s ∈ [TapState.testLogicReset, .runTestIdle, .updateDr, .updateIr]

instance : DecidablePred Resting := fun s =>
  inferInstanceAs (Decidable (s ∈ [TapState.testLogicReset, .runTestIdle, .updateDr, .updateIr]))

theorem resting_runTestIdle : Resting .runTestIdle := by decide

theorem resting_updateDr : Resting .updateDr := by decide

theorem resting_updateIr : Resting .updateIr := by decide

/-- The calls that can be taken scan by scan. -/
def EngineCall.Whole : EngineCall → Prop
  | .changeState statename => statename = .runTestIdle
  | .writeIr _ | .writeDr _ | .readwriteDr _ | .writeVir _ | .writeTms _ _ => True
  | .readDr length => 0 < length
  | .shiftRegister _ | .reset => False

section
variable {δ : Type} (P : Port δ)

/-! ### Moves -/

theorem events_toShiftDr : ∀ s, Resting s →
    events s .shiftDr = if s = .testLogicReset then [false, true, false, false] else [true, false, false] := by
  decide +kernel

theorem events_toShiftIr : ∀ s, Resting s → events s .shiftIr =
    if s = .testLogicReset then [false, true, true, false, false] else [true, true, false, false] := by
  decide +kernel

theorem events_toIdle : ∀ s, Resting s →
    events s .runTestIdle = if s = .runTestIdle then [] else [false] := by
  decide +kernel

/-- The states in which a port rests, one by one. -/
theorem Resting.cases {s : TapState} (hs : Resting s) :
    s = .testLogicReset ∨ s = .runTestIdle ∨ s = .updateDr ∨ s = .updateIr := by
  simpa [Resting] using hs

/-- On the way to Shift-DR the data register is captured. -/
theorem run_toShiftDr {s : TapState} (hs : Resting s) (d : δ) :
    P.machine.run (s, d) (moveEdges false (events s .shiftDr)) = (.shiftDr, P.captureDr d) := by
  rw [events_toShiftDr s hs]
  rcases hs.cases with rfl | rfl | rfl | rfl <;> rfl

/-- On the way to Shift-IR the instruction register is captured. -/
theorem run_toShiftIr {s : TapState} (hs : Resting s) (d : δ) :
    P.machine.run (s, d) (moveEdges false (events s .shiftIr)) = (.shiftIr, P.captureIr d) := by
  rw [events_toShiftIr s hs]
  rcases hs.cases with rfl | rfl | rfl | rfl <;> rfl

/-- On the way to Run-Test/Idle nothing happens. -/
theorem run_toIdle {s : TapState} (hs : Resting s) (d : δ) :
    P.machine.run (s, d) (moveEdges false (events s .runTestIdle)) = (.runTestIdle, d) := by
  rw [events_toIdle s hs]
  rcases hs.cases with rfl | rfl | rfl | rfl <;> rfl

/-- Nor does anything in Run-Test/Idle. -/
theorem run_idle (d : δ) (n : ℕ) :
    P.machine.run (.runTestIdle, d) (moveEdges false (List.replicate n false)) = (.runTestIdle, d) := by
  cases n with
  | zero => rfl
  | succ n =>
    rw [List.replicate_succ, moveEdges, Machine.run_cons]
    change P.machine.run (.runTestIdle, d) _ = _
    induction n with
    | zero => rfl
    | succ n ih => exact ih

/-! ### Scans -/

theorem run_scanFromDr {s : TapState} (hs : Resting s) (d : δ) {l : BitSequence} (hl : l ≠ []) :
    P.machine.run (s, d) (scanFrom s .shiftDr l) = (.updateDr, P.scanDr d l) := by
  rw [scanFrom, Machine.run_append, run_toShiftDr P hs, Port.run_scanDr P _ hl]
  rfl

theorem run_scanFromIr {s : TapState} (hs : Resting s) (d : δ) {l : BitSequence} (hl : l ≠ []) :
    P.machine.run (s, d) (scanFrom s .shiftIr l) = (.updateIr, P.scanIr d l) := by
  rw [scanFrom, Machine.run_append, run_toShiftIr P hs, Port.run_scanIr P _ hl]
  rfl

/-- The scans of `write_vir`. -/
theorem run_writeVir {s : TapState} (hs : Resting s) (d : δ) (val : BitSequence) :
    P.machine.run (s, d) (EngineCall.edges s (.writeVir val)) = (.updateIr, scanVir P d val) := by
  have hir (v : ℕ) : BitSequence.ofInt v false 10 ≠ [] := by
    rw [BitSequence.ofInt_eq (by decide)]
    exact bits_ne_nil (by decide) v
  rw [EngineCall.edges, Machine.run_append, Machine.run_append, run_scanFromIr P hs d (hir VIR),
    run_scanFromDr P (by decide) _ (by simp [virWord_eq]), run_scanFromIr P (by decide) _ (hir VDR)]
  rfl

/-- **The edges of a whole call** do what its scans do, and the port comes to rest. -/
theorem run_edges {o : EngineCall} {s : TapState} (hs : Resting s) (ho : o.Fits s) (hw : o.Whole) (d : δ) :
    P.machine.run (s, d) (o.edges s) = (o.leaves s, (onScans P o d).2) ∧ Resting (o.leaves s) := by
  cases o with
  | changeState t =>
    obtain rfl : t = .runTestIdle := hw
    exact ⟨run_toIdle P hs d, resting_runTestIdle⟩
  | writeIr l => exact ⟨run_scanFromIr P hs d ho.1, resting_updateIr⟩
  | writeDr l => exact ⟨run_scanFromDr P hs d ho.1, resting_updateDr⟩
  | readDr n => exact ⟨run_scanFromDr P hs d (by simp), resting_updateDr⟩
  | readwriteDr out => exact ⟨run_scanFromDr P hs d ho.1, resting_updateDr⟩
  | writeVir val => exact ⟨run_writeVir P hs d val, resting_updateIr⟩
  | shiftRegister out => exact hw.elim
  | writeTms out shouldRead =>
    obtain ⟨rfl, -, hout⟩ := ho
    refine ⟨?_, resting_runTestIdle⟩
    rw [EngineCall.edges, hout]
    exact run_idle P d out.length
  | reset => exact hw.elim

/-- **The answer to a whole call** is what comes out of the device. -/
theorem answer_onScans {o : EngineCall} {s : TapState} (hs : Resting s) (ho : o.Fits s) (hw : o.Whole)
    {x : TapState × δ} {h : History} {d : δ} (hx : P.machine.run x h = (s, d)) :
    o.answer (P.machine.shows x) h s = (onScans P o d).1 := by
  have hshift : P.machine.run x (h ++ moveEdges false (events s .shiftDr)) = (.shiftDr, P.captureDr d) := by
    rw [Machine.run_append, hx, run_toShiftDr P hs]
  cases o with
  | readDr n =>
    have hn : List.replicate n false ≠ [] := by simpa using Nat.pos_iff_ne_zero.mp hw
    rw [EngineCall.answer, Machine.sample_shows, hshift, Port.outs_dataDr, asRead_eq]
    · rfl
    · rw [← List.length_pos_iff, Port.length_outsDr, List.length_pos_iff]
      exact hn
  | readwriteDr out =>
    rw [EngineCall.answer, Machine.sample_shows, hshift, Port.outs_bitsDr P _ ho.1]
    rfl
  | shiftRegister out => exact hw.elim
  | reset => exact hw.elim
  | _ => rfl

/-! ### Programs -/

variable {σ : Type} {C : Controller σ} {x : TapState × δ}

/-- An engine in front of a device that was in `x` at the start: the engine is in step,
the port rests, and the device is in `d`. -/
def Facing (L : C.Lawful (P.machine.shows x)) (t : TapState) (s : EngineState σ) (d : δ) : Prop :=
  ∃ h, JtagOCDEngine.At L s t ⟨none, h⟩ ∧ P.machine.run x h = (t, d) ∧ Resting t

variable {P} {L : C.Lawful (P.machine.shows x)}

theorem handler_onScans {o : EngineCall} {t : TapState} {s : EngineState σ} {d : δ}
    (hs : Facing P L t s d) (ho : o.Fits t ∧ o.Whole) : ∃ s',
      JtagOCDEngine.handler C o s = .ok (onScans P o d).1 s' ∧
        Facing P L (o.leaves t) s' (onScans P o d).2 := by
  obtain ⟨h, hat, hx, hrest⟩ := hs
  obtain ⟨s', hrun, hs'⟩ := JtagOCDEngine.handler_eq hat ho.1
  obtain ⟨hedges, hrest'⟩ := run_edges P hrest ho.1 ho.2 d
  rw [answer_onScans P hrest ho.1 ho.2 hx] at hrun
  refine ⟨s', hrun, h ++ o.edges t, hs', ?_, hrest'⟩
  rw [Machine.run_append, hx, hedges]

/-- **A program of whole calls** that fit, on the engine and scan by scan. -/
theorem exec_onScans {α : Type} {p : Prog Engine α} {t : TapState} {s : EngineState σ} {d : δ}
    {Q : α → TapState → Prop}
    (hp : Prog.Follows (fun s (o : EngineCall) => o.Fits s ∧ o.Whole) (fun s (o : EngineCall) => o.leaves s)
      p t Q) (hs : Facing P L t s d) :
    ∃ t' s', Prog.exec (JtagOCDEngine.handler C) p s = .ok (Prog.run (onScans P) p d).1 s' ∧
      Facing P L t' s' (Prog.run (onScans P) p d).2 :=
  hp.exec_eq (fun _ _ _ _ hs ho => handler_onScans hs ho) hs

end

end PyOcdRiscv.Jtag
