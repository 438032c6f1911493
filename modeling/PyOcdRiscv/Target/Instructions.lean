import PyOcdRiscv.Lib.Port
import PyOcdRiscv.Jtag.EngineCall

/-!
# Instruction registers

The two ways in which a target's data register is selected. A debug module with a TAP
of its own (`Tap`) has an instruction register of 5 bits. A debug module behind the
virtual JTAG hub of the FPGA (`Hub`) has none: the hub's own instruction register has
10 bits, and with 0x00E in it the data register is the virtual instruction register,
with the address bit of the node above it; with 0x00C it is the one that the virtual
instruction selects.

The data registers themselves are left open (`DataRegisters`).
-/

namespace PyOcdRiscv.Target

open Lib Jtag

/-- The length of the instruction register. -/
def irLength : ℕ := 5

/-- The data registers of a debug module, as the selected instruction lets them be
reached. -/
structure DataRegisters (ε : Type) where
  /-- Capture-DR. -/
  capture : ℕ → ε → ε
  /-- Shift-DR, with TDI. -/
  shift : ℕ → ε → Bool → ε
  /-- Update-DR. -/
  update : ℕ → ε → ε
  /-- Test-Logic-Reset. -/
  reset : ε → ε
  /-- The serial output. -/
  out : ℕ → ε → Bool

variable {ε : Type} (D : DataRegisters ε)

/-! ### A TAP of its own -/

/-- The instruction register and its shift register, with the data registers. -/
structure Tap (ε : Type) where
  /-- `jtag_ir_shift_q`. -/
  irShift : ShiftReg irLength
  /-- `jtag_ir_q`: the selected instruction. -/
  ir : ShiftReg irLength
  /-- The data registers. -/
  data : ε

/-- A debug module with a TAP of its own. -/
def Tap.port : Port (Tap ε) where
  captureIr t := { t with irShift := .ofNat irLength 0b0101 }
  shiftIr t tdi := { t with irShift := t.irShift.shiftIn tdi }
  updateIr t := { t with ir := t.irShift }
  captureDr t := { t with data := D.capture t.ir.value t.data }
  shiftDr t tdi := { t with data := D.shift t.ir.value t.data tdi }
  updateDr t := { t with data := D.update t.ir.value t.data }
  reset t := { t with ir := .ofNat irLength 1, data := D.reset t.data }
  outIr t := t.irShift.out
  outDr t := D.out t.ir.value t.data

/-- The selected instruction. -/
def Tap.selected (t : Tap ε) : Option ℕ := some t.ir.value

/-! ### Behind the virtual JTAG hub -/

/-- The registers of the hub, with the data registers of the node. -/
structure Hub (ε : Type) where
  /-- The shift register of the hub's instruction register. -/
  irShift : ShiftReg 10
  /-- The hub's instruction register. -/
  ir : ShiftReg 10
  /-- The shift register of the virtual instruction register and the address bit. -/
  virShift : ShiftReg (irLength + 1)
  /-- The virtual instruction register of the node. -/
  vir : ShiftReg irLength
  /-- The data registers. -/
  data : ε

/-- The virtual instruction register takes over what was shifted in, if the address bit
is that of the node. -/
def Hub.loadVir (t : Hub ε) : Hub ε :=
  if t.virShift.bits.getD irLength false then
    { t with vir := ⟨t.virShift.bits.take irLength, by simp⟩ }
  else t

/-- The selected instruction: the virtual one, while the hub's own is 0x00C. -/
def Hub.selected (t : Hub ε) : Option ℕ := if t.ir.value = VDR then some t.vir.value else none

/-- A debug module behind the hub. -/
def Hub.port : Port (Hub ε) where
  captureIr t := { t with irShift := .ofNat 10 0b01 }
  shiftIr t tdi := { t with irShift := t.irShift.shiftIn tdi }
  updateIr t := { t with ir := t.irShift }
  captureDr t :=
    if t.ir.value = VIR then { t with virShift := .ofNat (irLength + 1) 0 }
    else if t.ir.value = VDR then { t with data := D.capture t.vir.value t.data }
    else t
  shiftDr t tdi :=
    if t.ir.value = VIR then { t with virShift := t.virShift.shiftIn tdi }
    else if t.ir.value = VDR then { t with data := D.shift t.vir.value t.data tdi }
    else t
  updateDr t :=
    if t.ir.value = VIR then t.loadVir
    else if t.ir.value = VDR then { t with data := D.update t.vir.value t.data }
    else t
  reset t := { t with ir := .ofNat 10 0, data := D.reset t.data }
  outIr t := t.irShift.out
  outDr t :=
    if t.ir.value = VIR then t.virShift.out
    else if t.ir.value = VDR then D.out t.vir.value t.data
    else false

/-! ### Scans -/

/-- A scan of 5 bits or more leaves the last 5 in the instruction register, and the data
registers as they were. -/
theorem Tap.scanIr_eq (t : Tap ε) (l : List Bool) :
    (Tap.port D).scanIr t l =
      ⟨(ShiftReg.ofNat irLength 0b0101).shiftAll l, (ShiftReg.ofNat irLength 0b0101).shiftAll l, t.data⟩ := by
  have h : ∀ (t : Tap ε) (l : List Bool),
      (Tap.port D).shiftsIr t l = { t with irShift := t.irShift.shiftAll l } := by
    intro t l
    induction l generalizing t with
    | nil => rfl
    | cons b l ih => exact ih _
  rw [Port.scanIr, h]
  rfl

/-- **A scan of 5 bits** selects the instruction it writes. -/
theorem Tap.selected_scanIr (t : Tap ε) {l : List Bool} (hl : l.length = irLength) :
    Tap.selected ((Tap.port D).scanIr t l) = some (value l) := by
  rw [Tap.scanIr_eq, ShiftReg.shiftAll_eq _ hl]
  rfl

/-- A scan of the data register does not change the instruction. -/
theorem Tap.selected_scanDr (t : Tap ε) (l : List Bool) :
    Tap.selected ((Tap.port D).scanDr t l) = Tap.selected t := by
  have h : ∀ (t : Tap ε) (l : List Bool), ((Tap.port D).shiftsDr t l).ir = t.ir := by
    intro t l
    induction l generalizing t with
    | nil => rfl
    | cons b l ih => exact ih _
  exact congrArg (fun r : ShiftReg irLength => some r.value) (h _ l)

/-- A scan of the hub's instruction register. -/
theorem Hub.scanIr_eq (t : Hub ε) (l : List Bool) :
    (Hub.port D).scanIr t l =
      { t with irShift := (ShiftReg.ofNat 10 0b01).shiftAll l, ir := (ShiftReg.ofNat 10 0b01).shiftAll l } := by
  have h : ∀ (t : Hub ε) (l : List Bool),
      (Hub.port D).shiftsIr t l = { t with irShift := t.irShift.shiftAll l } := by
    intro t l
    induction l generalizing t with
    | nil => rfl
    | cons b l ih => exact ih _
  rw [Port.scanIr, h]
  rfl

/-- A scan of the virtual instruction register: the bits that are left in it are taken
over. -/
theorem Hub.scanDr_vir {t : Hub ε} (ht : t.ir.value = VIR) (l : List Bool) :
    (Hub.port D).scanDr t l =
      Hub.loadVir { t with virShift := (ShiftReg.ofNat (irLength + 1) 0).shiftAll l } := by
  have h : ∀ (t : Hub ε) (l : List Bool), t.ir.value = VIR →
      (Hub.port D).shiftsDr t l = { t with virShift := t.virShift.shiftAll l } := by
    intro t l ht
    induction l generalizing t with
    | nil => rfl
    | cons b l ih =>
      have hs : (Hub.port D).shiftDr t b = { t with virShift := t.virShift.shiftIn b } := if_pos ht
      change (Hub.port D).shiftsDr ((Hub.port D).shiftDr t b) l = _
      rw [hs]
      exact ih _ ht
  have hc : (Hub.port D).captureDr t = { t with virShift := .ofNat (irLength + 1) 0 } := if_pos ht
  rw [Port.scanDr, hc, h { t with virShift := .ofNat (irLength + 1) 0 } l ht]
  exact if_pos ht

/-- A scan under the virtual instruction does not change it. -/
theorem Hub.scanDr_data {t : Hub ε} (ht : t.ir.value = VDR) (l : List Bool) :
    ((Hub.port D).scanDr t l).ir = t.ir ∧ ((Hub.port D).scanDr t l).vir = t.vir := by
  have hne : ∀ {n : ℕ}, n = VDR → ¬ n = VIR := by
    rintro n rfl
    decide
  have h : ∀ (t : Hub ε) (l : List Bool), t.ir.value = VDR →
      ((Hub.port D).shiftsDr t l).ir = t.ir ∧ ((Hub.port D).shiftsDr t l).vir = t.vir := by
    intro t l ht
    induction l generalizing t with
    | nil => exact ⟨rfl, rfl⟩
    | cons b l ih =>
      have hs : (Hub.port D).shiftDr t b = { t with data := D.shift t.vir.value t.data b } :=
        (if_neg (hne ht)).trans (if_pos ht)
      change ((Hub.port D).shiftsDr ((Hub.port D).shiftDr t b) l).ir = _ ∧
        ((Hub.port D).shiftsDr ((Hub.port D).shiftDr t b) l).vir = _
      rw [hs]
      exact ih _ ht
  have hc : (Hub.port D).captureDr t = { t with data := D.capture t.vir.value t.data } :=
    (if_neg (hne ht)).trans (if_pos ht)
  have hu : ∀ t : Hub ε, t.ir.value = VDR →
      (Hub.port D).updateDr t = { t with data := D.update t.vir.value t.data } := fun t ht =>
    (if_neg (hne ht)).trans (if_pos ht)
  obtain ⟨h₁, h₂⟩ := h ((Hub.port D).captureDr t) l (by rw [hc]; exact ht)
  rw [hc] at h₁ h₂
  rw [Port.scanDr, hu _ (by rw [hc, h₁]; exact ht), hc]
  exact ⟨h₁, h₂⟩

theorem Hub.selected_scanDr {t : Hub ε} {ir : ℕ} (h : Hub.selected t = some ir) (l : List Bool) :
    Hub.selected ((Hub.port D).scanDr t l) = some ir := by
  rw [Hub.selected] at h
  split_ifs at h with hir
  obtain ⟨h₁, h₂⟩ := Hub.scanDr_data D hir l
  rw [Hub.selected, h₁, h₂, if_pos hir, h]

/-- **The sequence of `write_vir`** selects the instruction it loads. -/
theorem Hub.selected_writeVir (t : Hub ε) {val : BitSequence} (hval : val.length = irLength) :
    Hub.selected ((Hub.port D).scanIr
      ((Hub.port D).scanDr ((Hub.port D).scanIr t (BitSequence.ofInt VIR false 10)) (virWord val))
      (BitSequence.ofInt VDR false 10)) = some val.toInt := by
  have hir : ∀ (t : Hub ε) (v : ℕ), v < 2 ^ 10 →
      ((Hub.port D).scanIr t (BitSequence.ofInt v false 10)).ir.value = v := by
    intro t v hv
    rw [Hub.scanIr_eq, BitSequence.ofInt_eq (by decide), ShiftReg.shiftAll_eq _ (length_bits ..)]
    exact value_bits_of_lt hv
  have hvir : ((Hub.port D).scanDr ((Hub.port D).scanIr t (BitSequence.ofInt VIR false 10))
      (virWord val)).vir.value = val.toInt := by
    rw [Hub.scanDr_vir D (hir t VIR (by decide)), virWord_eq,
      ShiftReg.shiftAll_eq _ (by simp [hval]), Hub.loadVir, if_pos (by simp [← hval])]
    simp [ShiftReg.value, ← hval]
  rw [Hub.selected, if_pos (hir _ VDR (by decide)), Hub.scanIr_eq, hvir]

end PyOcdRiscv.Target
