import PyOcdRiscv.Lib.Port

/-!
# The DMI register of a transport module

A target with a DMI register among its data registers: Capture-DR loads the response of
the debug module, and what is in the shift register when Update-DR is entered is a
request, with the op in bits 1..0, the data in bits 33..2 and the address above. The
instruction register, the other data registers and the debug module are left open
(`DtmParts`); all that is asked of them is that DR scans do not change the instruction
while they last.

`Dtm` keeps what the debug module has captured and what it has seen at each Update-DR.
-/

namespace PyOcdRiscv.Target

open Lib

/-- What is around a DMI register of `w` bits. -/
structure DtmParts (w : ℕ) (ι μ : Type) where
  /-- The instruction register, and the data registers of the other instructions. -/
  instr : Port ι
  /-- The instruction register selects DMI. -/
  selects : ι → Bool
  /-- What Capture-DR loads. -/
  response : μ → ShiftReg w
  /-- What the debug module makes of what it sees. -/
  accept : μ → ShiftReg w → μ
  selects_captureDr : ∀ i, selects (instr.captureDr i) = selects i
  selects_shiftDr : ∀ i b, selects (instr.shiftDr i b) = selects i

/-- A target with a DMI register. -/
structure Dtm (w : ℕ) (ι μ : Type) where
  /-- The instruction register and the other data registers. -/
  instr : ι
  /-- The DMI shift register. -/
  dmi : ShiftReg w
  /-- The debug module. -/
  dm : μ
  /-- What the DMI register has captured. -/
  captured : List (ShiftReg w)
  /-- At each Update-DR: whether DMI was selected, and what was in the DMI shift
  register. -/
  seen : List (Bool × ShiftReg w)

variable {w : ℕ} {ι μ : Type}

/-- A target on which nothing has been done. -/
def Dtm.init (instr : ι) (dmi : ShiftReg w) (dm : μ) : Dtm w ι μ := ⟨instr, dmi, dm, [], []⟩

namespace DtmParts

variable (D : DtmParts w ι μ)

/-- The target behind its port. -/
def port : Port (Dtm w ι μ) where
  captureIr t := { t with instr := D.instr.captureIr t.instr }
  shiftIr t tdi := { t with instr := D.instr.shiftIr t.instr tdi }
  updateIr t := { t with instr := D.instr.updateIr t.instr }
  captureDr t :=
    if D.selects t.instr then { t with dmi := D.response t.dm, captured := t.captured ++ [D.response t.dm] }
    else { t with instr := D.instr.captureDr t.instr }
  shiftDr t tdi :=
    if D.selects t.instr then { t with dmi := t.dmi.shiftIn tdi }
    else { t with instr := D.instr.shiftDr t.instr tdi }
  updateDr t :=
    if D.selects t.instr then { t with dm := D.accept t.dm t.dmi, seen := t.seen ++ [(true, t.dmi)] }
    else { t with instr := D.instr.updateDr t.instr, seen := t.seen ++ [(false, t.dmi)] }
  reset t := { t with instr := D.instr.reset t.instr }
  outIr t := D.instr.outIr t.instr
  outDr t := if D.selects t.instr then t.dmi.out else D.instr.outDr t.instr

/-- A scan of the instruction register leaves the rest alone. -/
theorem scanIr_eq (t : Dtm w ι μ) (l : List Bool) :
    D.port.scanIr t l = { t with instr := D.instr.scanIr t.instr l } := by
  have h : ∀ (t : Dtm w ι μ) (l : List Bool),
      D.port.shiftsIr t l = { t with instr := D.instr.shiftsIr t.instr l } := by
    intro t l
    induction l generalizing t with
    | nil => rfl
    | cons b l ih => exact ih _
  rw [Port.scanIr, h]
  rfl

/-- Shifting while DMI is selected. -/
theorem shiftsDr_dmi {t : Dtm w ι μ} (ht : D.selects t.instr = true) (l : List Bool) :
    D.port.shiftsDr t l = { t with dmi := t.dmi.shiftAll l } := by
  induction l generalizing t with
  | nil => rfl
  | cons b l ih =>
    have hs : D.port.shiftDr t b = { t with dmi := t.dmi.shiftIn b } := if_pos ht
    change D.port.shiftsDr (D.port.shiftDr t b) l = _
    rw [hs, ih (t := { t with dmi := t.dmi.shiftIn b }) ht]
    rfl

/-- **A scan while DMI is selected**: what is left in the register is seen. -/
theorem scanDr_dmi {t : Dtm w ι μ} (ht : D.selects t.instr = true) (l : List Bool) :
    D.port.scanDr t l =
      { t with
        dmi := (D.response t.dm).shiftAll l
        dm := D.accept t.dm ((D.response t.dm).shiftAll l)
        captured := t.captured ++ [D.response t.dm]
        seen := t.seen ++ [(true, (D.response t.dm).shiftAll l)] } := by
  have hc : D.port.captureDr t =
      { t with dmi := D.response t.dm, captured := t.captured ++ [D.response t.dm] } := if_pos ht
  rw [Port.scanDr, hc, shiftsDr_dmi D (by exact ht)]
  exact if_pos ht

/-- What comes out meanwhile. -/
theorem outsDr_dmi {t : Dtm w ι μ} (ht : D.selects t.instr = true) (l : List Bool) :
    D.port.outsDr (D.port.captureDr t) l = (D.response t.dm).outs l := by
  have h : ∀ (t : Dtm w ι μ) (l : List Bool), D.selects t.instr = true →
      D.port.outsDr t l = t.dmi.outs l := by
    intro t l ht
    induction l generalizing t with
    | nil => rfl
    | cons b l ih =>
      have hs : D.port.shiftDr t b = { t with dmi := t.dmi.shiftIn b } := if_pos ht
      have ho : D.port.outDr t = t.dmi.out := if_pos ht
      rw [Port.outsDr, hs, ho, ih { t with dmi := t.dmi.shiftIn b } ht]
      rfl
  have hc : D.port.captureDr t =
      { t with dmi := D.response t.dm, captured := t.captured ++ [D.response t.dm] } := if_pos ht
  rw [hc]
  exact h _ l ht

/-- **A scan while DMI is not selected** leaves the DMI register alone. -/
theorem scanDr_other {t : Dtm w ι μ} (ht : D.selects t.instr = false) (l : List Bool) :
    D.port.scanDr t l =
      { t with instr := D.instr.scanDr t.instr l, seen := t.seen ++ [(false, t.dmi)] } := by
  have hne {b : Bool} (h : b = false) : ¬ b = true := by simp [h]
  have h : ∀ (t : Dtm w ι μ) (l : List Bool), D.selects t.instr = false →
      D.port.shiftsDr t l = { t with instr := D.instr.shiftsDr t.instr l } ∧
        D.selects (D.instr.shiftsDr t.instr l) = false := by
    intro t l ht
    induction l generalizing t with
    | nil => exact ⟨rfl, ht⟩
    | cons b l ih =>
      have hs : D.port.shiftDr t b = { t with instr := D.instr.shiftDr t.instr b } := if_neg (hne ht)
      change D.port.shiftsDr (D.port.shiftDr t b) l = _ ∧ _
      rw [hs]
      exact ih _ ((D.selects_shiftDr t.instr b).trans ht)
  have hc : D.port.captureDr t = { t with instr := D.instr.captureDr t.instr } := if_neg (hne ht)
  obtain ⟨hshift, hsel⟩ := h { t with instr := D.instr.captureDr t.instr } l
    ((D.selects_captureDr t.instr).trans ht)
  rw [Port.scanDr, hc, hshift]
  exact if_neg (hne hsel)

end DtmParts

/-! ### Requests -/

/-- A DMI request. -/
structure Request where
  /-- 1 for a read, 2 for a write. -/
  op : ℕ
  /-- The address. -/
  adr : ℕ
  /-- The data. -/
  data : ℕ
  deriving DecidableEq, Repr

/-- The request in the register: `{addr, data[31:0], op[1:0]}`. -/
def Request.ofReg (r : ShiftReg w) : Request := ⟨field 0 2 r.bits, field 34 (w - 34) r.bits, field 2 32 r.bits⟩

/-- The requests with an op among what was seen while DMI was selected. -/
def requests (seen : List (Bool × ShiftReg w)) : List Request :=
  ((seen.filter fun e => e.1).map fun e => Request.ofReg e.2).filter fun r => r.op ≠ 0

theorem requests_append (seen₁ seen₂ : List (Bool × ShiftReg w)) :
    requests (seen₁ ++ seen₂) = requests seen₁ ++ requests seen₂ := by
  simp [requests]

end PyOcdRiscv.Target
