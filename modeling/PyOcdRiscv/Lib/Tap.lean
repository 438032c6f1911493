import PyOcdRiscv.Lib.ShiftReg
import Mathlib.Data.Fintype.Defs

/-!
# The test access port

The TAP controller of IEEE 1149.1: sixteen states, one step at each rising edge of
TCK, decided by TMS. What a target does with its serial input is decided by the
state it is in before the edge, so a run of the port is a list of edges, each
with its TMS and its TDI (`Edge`); `TapState.after` is where it leads.

A target answers on TDO. All that matters of it here is the level it shows
before each rising edge, as a function of the edges it has seen: `sample` is
the list of levels over a list of edges. A target given as a machine (`Machine`)
is one such function.
-/

namespace PyOcdRiscv.Lib

/-- The states of the TAP controller. -/
inductive TapState where
  | testLogicReset | runTestIdle
  | selectDrScan | captureDr | shiftDr | exit1Dr | pauseDr | exit2Dr | updateDr
  | selectIrScan | captureIr | shiftIr | exit1Ir | pauseIr | exit2Ir | updateIr
  deriving DecidableEq, Repr

instance : Fintype TapState where
  elems := {.testLogicReset, .runTestIdle,
    .selectDrScan, .captureDr, .shiftDr, .exit1Dr, .pauseDr, .exit2Dr, .updateDr,
    .selectIrScan, .captureIr, .shiftIr, .exit1Ir, .pauseIr, .exit2Ir, .updateIr}
  complete s := by cases s <;> decide

/-- The state after a rising edge of TCK with the given TMS. -/
def TapState.next : TapState → Bool → TapState
  | .testLogicReset, tms => if tms then .testLogicReset else .runTestIdle
  | .runTestIdle, tms => if tms then .selectDrScan else .runTestIdle
  | .selectDrScan, tms => if tms then .selectIrScan else .captureDr
  | .captureDr, tms => if tms then .exit1Dr else .shiftDr
  | .shiftDr, tms => if tms then .exit1Dr else .shiftDr
  | .exit1Dr, tms => if tms then .updateDr else .pauseDr
  | .pauseDr, tms => if tms then .exit2Dr else .pauseDr
  | .exit2Dr, tms => if tms then .updateDr else .shiftDr
  | .updateDr, tms => if tms then .selectDrScan else .runTestIdle
  | .selectIrScan, tms => if tms then .testLogicReset else .captureIr
  | .captureIr, tms => if tms then .exit1Ir else .shiftIr
  | .shiftIr, tms => if tms then .exit1Ir else .shiftIr
  | .exit1Ir, tms => if tms then .updateIr else .pauseIr
  | .pauseIr, tms => if tms then .exit2Ir else .pauseIr
  | .exit2Ir, tms => if tms then .updateIr else .shiftIr
  | .updateIr, tms => if tms then .selectDrScan else .runTestIdle

/-- A rising edge of TCK, with the levels of TMS and TDI at it. -/
structure Edge where
  /-- Test mode select. -/
  tms : Bool
  /-- Test data in. -/
  tdi : Bool
  deriving DecidableEq, Repr

/-- The edges a target has seen, the first one first. -/
abbrev History := List Edge

/-- The state after a list of edges. -/
def TapState.after (s : TapState) (h : History) : TapState := h.foldl (fun s e => s.next e.tms) s

@[simp] theorem TapState.after_nil (s : TapState) : s.after [] = s := rfl

@[simp] theorem TapState.after_cons (s : TapState) (e : Edge) (h : History) :
    s.after (e :: h) = (s.next e.tms).after h := rfl

theorem TapState.after_append (s : TapState) (h₁ h₂ : History) :
    s.after (h₁ ++ h₂) = (s.after h₁).after h₂ := List.foldl_append

/-- Five edges with TMS high reach Test-Logic-Reset from anywhere. -/
theorem TapState.after_reset (s : TapState) (h : History) (hl : h.map (·.tms) = List.replicate 5 true) :
    s.after h = .testLogicReset := by
  have hs : ∀ s : TapState, (List.replicate 5 true).foldl TapState.next s = .testLogicReset := by
    decide
  rw [after, ← List.foldl_map (f := Edge.tms) (g := TapState.next), hl, hs]

/-! ### Lists of edges -/

/-- Bits of data: TMS stays low. -/
def dataEdges (l : List Bool) : List Edge := l.map fun b => ⟨false, b⟩

/-- A move of the port along `tms`, with `b` on TDI at the first edge. -/
def moveEdges (b : Bool) : List Bool → List Edge
  | [] => []
  | t :: tms => ⟨t, b⟩ :: tms.map fun t => ⟨t, false⟩

/-- The bits of a scan: TMS goes high with the last one. -/
def bitEdges (l : List Bool) : List Edge := dataEdges l.dropLast ++ [⟨true, l.getLast?.getD false⟩]

/-- A scan, from the shift state to the update state. -/
def scanEdges (l : List Bool) : List Edge := bitEdges l ++ [⟨true, false⟩]

@[simp] theorem length_dataEdges (l : List Bool) : (dataEdges l).length = l.length :=
  List.length_map ..

@[simp] theorem dataEdges_nil : dataEdges [] = [] := rfl

@[simp] theorem dataEdges_cons (b : Bool) (l : List Bool) :
    dataEdges (b :: l) = ⟨false, b⟩ :: dataEdges l := rfl

theorem dataEdges_append (l₁ l₂ : List Bool) : dataEdges (l₁ ++ l₂) = dataEdges l₁ ++ dataEdges l₂ :=
  List.map_append

@[simp] theorem map_tdi_dataEdges (l : List Bool) : (dataEdges l).map Edge.tdi = l := by
  rw [dataEdges, List.map_map]
  exact List.map_id l

theorem bitEdges_concat (l : List Bool) (b : Bool) : bitEdges (l ++ [b]) = dataEdges l ++ [⟨true, b⟩] := by
  simp [bitEdges]

theorem bitEdges_append (l : List Bool) {l' : List Bool} (hl : l' ≠ []) :
    bitEdges (l ++ l') = dataEdges l ++ bitEdges l' := by
  obtain ⟨l', b, rfl⟩ := (List.eq_nil_or_concat l').resolve_left hl
  rw [List.concat_eq_append, ← List.append_assoc, bitEdges_concat, bitEdges_concat, dataEdges_append,
    List.append_assoc]

/-- A scan of zeros. -/
theorem bitEdges_zeros (n : ℕ) :
    bitEdges (List.replicate (n + 1) false) = dataEdges (List.replicate n false) ++ [⟨true, false⟩] := by
  rw [List.replicate_succ', bitEdges_concat]

theorem map_tdi_bitEdges {l : List Bool} (hl : l ≠ []) : (bitEdges l).map Edge.tdi = l := by
  obtain ⟨l, b, rfl⟩ := (List.eq_nil_or_concat l).resolve_left hl
  simp [bitEdges_concat]

/-- The states in which data is shifted. -/
def TapState.Shifts (s : TapState) : Prop := s = .shiftDr ∨ s = .shiftIr

instance (s : TapState) : Decidable s.Shifts := inferInstanceAs (Decidable (s = .shiftDr ∨ s = .shiftIr))

/-- Data does not leave a shift state. -/
theorem TapState.after_dataEdges {s : TapState} (hs : s.Shifts) (l : List Bool) :
    s.after (dataEdges l) = s := by
  induction l with
  | nil => rfl
  | cons b l ih => rcases hs with rfl | rfl <;> exact ih

/-! ### What a target shows on TDO -/

/-- The level on TDO before each of the edges `es` after the edges `h`. -/
def sample (tdo : History → Bool) : History → List Edge → List Bool
  | _, [] => []
  | h, e :: es => tdo h :: sample tdo (h ++ [e]) es

variable (tdo : History → Bool)

@[simp] theorem sample_nil (h : History) : sample tdo h [] = [] := rfl

@[simp] theorem sample_cons (h : History) (e : Edge) (es : List Edge) :
    sample tdo h (e :: es) = tdo h :: sample tdo (h ++ [e]) es := rfl

@[simp] theorem length_sample (h : History) (es : List Edge) :
    (sample tdo h es).length = es.length := by
  induction es generalizing h with
  | nil => rfl
  | cons e es ih => simp [ih]

theorem sample_append (h : History) (es₁ es₂ : List Edge) :
    sample tdo h (es₁ ++ es₂) = sample tdo h es₁ ++ sample tdo (h ++ es₁) es₂ := by
  induction es₁ generalizing h with
  | nil => simp
  | cons e es ih => simp [ih]

/-- A target as a machine: what an edge does to it, and the level it shows. -/
structure Machine (δ : Type) where
  /-- A rising edge. -/
  edge : δ → Edge → δ
  /-- The level on TDO before the next rising edge. -/
  tdo : δ → Bool

namespace Machine

variable {δ : Type} (M : Machine δ)

/-- The state after a list of edges. -/
def run (d : δ) (h : History) : δ := h.foldl M.edge d

@[simp] theorem run_nil (d : δ) : M.run d [] = d := rfl

@[simp] theorem run_cons (d : δ) (e : Edge) (h : History) : M.run d (e :: h) = M.run (M.edge d e) h :=
  rfl

theorem run_append (d : δ) (h₁ h₂ : History) : M.run d (h₁ ++ h₂) = M.run (M.run d h₁) h₂ :=
  List.foldl_append

/-- What the machine started in `d` shows after a list of edges. -/
def shows (d : δ) (h : History) : Bool := M.tdo (M.run d h)

/-- The level the machine shows before each edge. -/
def outs : δ → List Edge → List Bool
  | _, [] => []
  | d, e :: es => M.tdo d :: outs (M.edge d e) es

theorem outs_append (d : δ) (es₁ es₂ : List Edge) :
    M.outs d (es₁ ++ es₂) = M.outs d es₁ ++ M.outs (M.run d es₁) es₂ := by
  induction es₁ generalizing d with
  | nil => rfl
  | cons e es ih => simp only [List.cons_append, outs, ih, run_cons]

/-- Sampling a machine is watching it from the state it has reached. -/
theorem sample_shows (d : δ) (h : History) (es : List Edge) :
    sample (M.shows d) h es = M.outs (M.run d h) es := by
  induction es generalizing h with
  | nil => rfl
  | cons e es ih =>
    rw [sample_cons, ih, run_append]
    rfl

end Machine

end PyOcdRiscv.Lib
