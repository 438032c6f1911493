import PyOcdRiscv.Lib.Tap

/-!
# Devices behind a port

What a device does as its TAP controller goes round: it loads a register in a capture
state, moves it along in a shift state, and takes it over when an update state is
entered. `Port.machine` is the device with its controller, edge by edge.

A scan is one round through a column: `scanDr d l` is what is left of `d` after the
bits `l` have been shifted into the data register, and `outsDr` what came out.
`run_scanDr` and `run_scanIr` say that the edges of a scan are one.

There are devices that take a register over only at the edge that leaves the update state
(`lateMachine`). What is in such a device, with what the state it is in does on entry done
to it, is what is in one that takes over at once (`run_flush`). Neither looks at TDI but to
shift it in (`Machine.Tap`).
-/

namespace PyOcdRiscv.Lib

/-- A device behind a port. -/
structure Port (δ : Type) where
  /-- Capture-IR. -/
  captureIr : δ → δ
  /-- Shift-IR, with TDI. -/
  shiftIr : δ → Bool → δ
  /-- Update-IR. -/
  updateIr : δ → δ
  /-- Capture-DR. -/
  captureDr : δ → δ
  /-- Shift-DR, with TDI. -/
  shiftDr : δ → Bool → δ
  /-- Update-DR. -/
  updateDr : δ → δ
  /-- Test-Logic-Reset. -/
  reset : δ → δ
  /-- The serial output of the instruction register. -/
  outIr : δ → Bool
  /-- The serial output of the data register. -/
  outDr : δ → Bool

namespace Port

variable {δ : Type} (P : Port δ)

/-- What an edge does in the state it finds. -/
def act (d : δ) (tdi : Bool) : TapState → δ
  | .captureIr => P.captureIr d
  | .shiftIr => P.shiftIr d tdi
  | .captureDr => P.captureDr d
  | .shiftDr => P.shiftDr d tdi
  | _ => d

/-- What the state an edge leads to does on entry. -/
def enter (d : δ) : TapState → δ
  | .updateIr => P.updateIr d
  | .updateDr => P.updateDr d
  | .testLogicReset => P.reset d
  | _ => d

/-- The device with its controller. -/
def machine : Machine (TapState × δ) where
  edge s e := (s.1.next e.tms, P.enter (P.act s.2 e.tdi s.1) (s.1.next e.tms))
  tdo s := match s.1 with
    | .shiftIr => P.outIr s.2
    | .shiftDr => P.outDr s.2
    | _ => false

/-- The controller goes its own way. -/
theorem run_fst (x : TapState × δ) (h : History) : (P.machine.run x h).1 = x.1.after h := by
  induction h generalizing x with
  | nil => rfl
  | cons e h ih => exact ih (P.machine.edge x e)

/-! ### Scans -/

/-- The bits of `l` shifted into the instruction register. -/
def shiftsIr (d : δ) (l : List Bool) : δ := l.foldl P.shiftIr d

/-- The bits of `l` shifted into the data register. -/
def shiftsDr (d : δ) (l : List Bool) : δ := l.foldl P.shiftDr d

/-- What comes out of the data register as the bits of `l` go in. -/
def outsDr : δ → List Bool → List Bool
  | _, [] => []
  | d, b :: l => P.outDr d :: outsDr (P.shiftDr d b) l

/-- A scan of the instruction register. -/
def scanIr (d : δ) (l : List Bool) : δ := P.updateIr (P.shiftsIr (P.captureIr d) l)

/-- A scan of the data register. -/
def scanDr (d : δ) (l : List Bool) : δ := P.updateDr (P.shiftsDr (P.captureDr d) l)

/-! ### The edges of a scan -/

theorem outsDr_append (d : δ) (l₁ l₂ : List Bool) :
    P.outsDr d (l₁ ++ l₂) = P.outsDr d l₁ ++ P.outsDr (P.shiftsDr d l₁) l₂ := by
  induction l₁ generalizing d with
  | nil => rfl
  | cons b l ih => simp only [List.cons_append, outsDr, ih, shiftsDr, List.foldl_cons]

@[simp] theorem length_outsDr (d : δ) (l : List Bool) : (P.outsDr d l).length = l.length := by
  induction l generalizing d with
  | nil => rfl
  | cons b l ih => exact congrArg (· + 1) (ih (P.shiftDr d b))

theorem run_dataDr (d : δ) (l : List Bool) :
    P.machine.run (.shiftDr, d) (dataEdges l) = (.shiftDr, P.shiftsDr d l) := by
  induction l generalizing d with
  | nil => rfl
  | cons b l ih => exact ih (P.shiftDr d b)

theorem run_dataIr (d : δ) (l : List Bool) :
    P.machine.run (.shiftIr, d) (dataEdges l) = (.shiftIr, P.shiftsIr d l) := by
  induction l generalizing d with
  | nil => rfl
  | cons b l ih => exact ih (P.shiftIr d b)

theorem outs_dataDr (d : δ) (l : List Bool) :
    P.machine.outs (.shiftDr, d) (dataEdges l) = P.outsDr d l := by
  induction l generalizing d with
  | nil => rfl
  | cons b l ih => exact congrArg (P.outDr d :: ·) (ih (P.shiftDr d b))

/-- **The edges of a scan of the data register.** -/
theorem run_scanDr (d : δ) {l : List Bool} (hl : l ≠ []) :
    P.machine.run (.shiftDr, d) (scanEdges l) = (.updateDr, P.updateDr (P.shiftsDr d l)) := by
  obtain ⟨l, b, rfl⟩ := (List.eq_nil_or_concat l).resolve_left hl
  have hb : P.shiftsDr d (l ++ [b]) = P.shiftDr (P.shiftsDr d l) b := List.foldl_concat ..
  rw [List.concat_eq_append, scanEdges, bitEdges_concat, List.append_assoc, Machine.run_append, run_dataDr,
    hb]
  rfl

/-- **The edges of a scan of the instruction register.** -/
theorem run_scanIr (d : δ) {l : List Bool} (hl : l ≠ []) :
    P.machine.run (.shiftIr, d) (scanEdges l) = (.updateIr, P.updateIr (P.shiftsIr d l)) := by
  obtain ⟨l, b, rfl⟩ := (List.eq_nil_or_concat l).resolve_left hl
  have hb : P.shiftsIr d (l ++ [b]) = P.shiftIr (P.shiftsIr d l) b := List.foldl_concat ..
  rw [List.concat_eq_append, scanEdges, bitEdges_concat, List.append_assoc, Machine.run_append, run_dataIr,
    hb]
  rfl

/-- What comes out at the bits of a scan. -/
theorem outs_bitsDr (d : δ) {l : List Bool} (hl : l ≠ []) :
    P.machine.outs (.shiftDr, d) (bitEdges l) = P.outsDr d l := by
  obtain ⟨l, b, rfl⟩ := (List.eq_nil_or_concat l).resolve_left hl
  rw [List.concat_eq_append, bitEdges_concat, Machine.outs_append, outs_dataDr, run_dataDr, outsDr_append]
  rfl

/-! ### Taking over on leaving -/

/-- What an edge does in the state it finds, if what is done on entry otherwise is done
when the state is left. -/
def late (d : δ) (tdi : Bool) : TapState → δ
  | .captureIr => P.captureIr d
  | .shiftIr => P.shiftIr d tdi
  | .updateIr => P.updateIr d
  | .captureDr => P.captureDr d
  | .shiftDr => P.shiftDr d tdi
  | .updateDr => P.updateDr d
  | .testLogicReset => P.reset d
  | _ => d

/-- A device that takes over on leaving, with its controller; `out` is its serial output, in
whatever state. -/
def lateMachine (out : δ → Bool) : Machine (TapState × δ) where
  edge s e := (s.1.next e.tms, P.late s.2 e.tdi s.1)
  tdo s := out s.2

/-- What is done on leaving, done already. -/
def flush (s : TapState × δ) : TapState × δ := (s.1, P.enter s.2 s.1)

/-- **Late and at once**. -/
theorem run_flush (out : δ → Bool) (s : TapState × δ) (h : History) :
    P.machine.run (P.flush s) h = P.flush ((P.lateMachine out).run s h) := by
  induction h generalizing s with
  | nil => rfl
  | cons e h ih =>
    have hedge : P.machine.edge (P.flush s) e = P.flush ((P.lateMachine out).edge s e) := by
      obtain ⟨t, d⟩ := s
      cases t <;> rfl
    rw [Machine.run_cons, Machine.run_cons, hedge, ih]

end Port

/-! ### TDI -/

/-- The machine has a TAP controller, and looks at TDI in its shift states only. -/
structure Machine.Tap {δ : Type} (M : Machine δ) where
  /-- The state of the controller. -/
  state : δ → TapState
  next : ∀ d e, state (M.edge d e) = (state d).next e.tms
  quiet : ∀ d tms b b', ¬ (state d).Shifts → M.edge d ⟨tms, b⟩ = M.edge d ⟨tms, b'⟩

namespace Machine.Tap

variable {δ : Type} {M : Machine δ} (T : M.Tap)

theorem state_run (d : δ) (h : History) : T.state (M.run d h) = (T.state d).after h := by
  induction h generalizing d with
  | nil => rfl
  | cons e h ih => rw [Machine.run_cons, ih, T.next, TapState.after_cons]

/-- The edge after the bits of a scan finds the port out of the shift state: TDI does not
matter at it. -/
theorem run_scan {d : δ} (hd : (T.state d).Shifts) (l : List Bool) (b : Bool) :
    M.run d (bitEdges l ++ [⟨true, b⟩]) = M.run d (scanEdges l) := by
  have hexit : ¬ (T.state (M.run d (bitEdges l))).Shifts := by
    rw [T.state_run, bitEdges, TapState.after_append, TapState.after_dataEdges hd]
    rcases hd with hd | hd
    · rw [hd]
      exact (by decide : ¬ TapState.exit1Dr.Shifts)
    · rw [hd]
      exact (by decide : ¬ TapState.exit1Ir.Shifts)
  rw [scanEdges, Machine.run_append, Machine.run_append]
  exact T.quiet _ _ _ _ hexit

end Machine.Tap

namespace Port

variable {δ : Type} (P : Port δ)

/-- A device with its controller is such a machine. -/
def tap : P.machine.Tap where
  state := Prod.fst
  next _ _ := rfl
  quiet s tms b b' hs := by
    obtain ⟨t, d⟩ := s
    cases t with
    | shiftDr => exact absurd (Or.inl rfl) hs
    | shiftIr => exact absurd (Or.inr rfl) hs
    | _ => rfl

end Port

end PyOcdRiscv.Lib
