import PyOcdRiscv.Target.Dtm
import PyOcdRiscv.Jtag.EngineCall

/-!
# The TAP of the Reve target

`jtag_tap.v` and the registers of `riscv_jtag_apb_dm.v` behind it: one shift register of 50
bits for both columns, an instruction register of 5, and a DMI register whose request is
taken by the transport module if its op is 1 or 2. The module is taken to be idle then, so
every request is accepted. What Capture-DR loads of it is left open (`response`).

An update takes place at the edge that leaves the update state (`machine`).
-/

namespace PyOcdRiscv.Target

open Lib

/-- The registers of the TAP. -/
structure ReveTap where
  /-- `jtag_state__sr`. -/
  sr : ShiftReg 50
  /-- `jtag_state__ir`. -/
  ir : ℕ
  /-- The requests that the transport module has accepted. -/
  accepted : List Request

namespace ReveTap

/-- `(sr >> 1) | (tdi ? mask : 0)`, where `mask` is bit `k`. -/
def shiftAt (k : ℕ) (sr : ShiftReg 50) (tdi : Bool) : ShiftReg 50 :=
  ⟨(sr.bits.tail ++ [false]).modify k (· || tdi), by simp⟩

/-- The register holds a request that Update-DR takes. -/
def Takes (d : ReveTap) : Prop := d.ir = 0x11 ∧ (field 0 2 d.sr.bits = 1 ∨ field 0 2 d.sr.bits = 2)

instance : DecidablePred Takes := fun d =>
  inferInstanceAs (Decidable (d.ir = 0x11 ∧ (field 0 2 d.sr.bits = 1 ∨ field 0 2 d.sr.bits = 2)))

variable (response : List Request → ShiftReg 50)

/-- The registers behind the port. -/
def port : Port ReveTap where
  captureIr d := { d with sr := ⟨bits 5 d.ir ++ List.replicate 45 false, by simp⟩ }
  shiftIr d tdi := { d with sr := ⟨(d.sr.bits.tail ++ [false]).set 4 tdi, by simp⟩ }
  updateIr d := { d with ir := value (d.sr.bits.take 5) }
  captureDr d := { d with
    sr := if d.ir = 0x01 then ⟨bits 32 0xabcde6e3 ++ d.sr.bits.drop 32, by simp⟩
      else if d.ir = 0x10 then .ofNat 50 (0x7 <<< 12 + 0x10 <<< 4 + 1)
      else if d.ir = 0x11 then response d.accepted
      else .ofNat 50 0 }
  shiftDr d tdi := { d with
    sr := if d.ir = 0x01 ∨ d.ir = 0x10 then shiftAt 31 d.sr tdi
      else if d.ir = 0x11 then shiftAt 49 d.sr tdi
      else shiftAt 0 d.sr tdi }
  updateDr d := { d with
    accepted := if d.Takes then d.accepted ++ [Request.ofReg d.sr] else d.accepted }
  reset d := { d with ir := 0x01 }
  outIr d := d.sr.out
  outDr d := d.sr.out

/-- The TAP: TDO is bit 0 of the shift register, in every state. -/
def machine : Machine (TapState × ReveTap) := (port response).lateMachine fun d => d.sr.out

/-! ### Scans -/

/-- With DMI selected the register shifts as a whole. -/
theorem shiftAt_top (sr : ShiftReg 50) (tdi : Bool) : shiftAt 49 sr tdi = sr.shiftIn tdi := by
  ext1
  obtain ⟨l, hl⟩ := sr
  obtain ⟨b, l, rfl⟩ := List.exists_cons_of_length_eq_add_one hl
  have hlen : l.length = 49 := by simpa using hl
  change (l ++ [false]).modify 49 (· || tdi) = l ++ [tdi]
  rw [← hlen, List.modify_eq_set_getElem?]
  simp

/-- The five bits that the instruction register takes over shift as a register of five. -/
theorem take_shiftIr (d : ReveTap) (tdi : Bool) :
    ((port response).shiftIr d tdi).sr.bits.take 5 = (d.sr.bits.take 5 ++ [tdi]).tail := by
  obtain ⟨⟨l, hl⟩, ir, accepted⟩ := d
  change ((l.tail ++ [false]).set 4 tdi).take 5 = (l.take 5 ++ [tdi]).tail
  match l, hl with
  | a₀ :: a₁ :: a₂ :: a₃ :: a₄ :: a₅ :: l, _ => rfl

/-- **The instruction that was shifted in** last. -/
theorem take_shiftsIr (d : ReveTap) (l : List Bool) {ir : List Bool} (hir : ir.length = 5) :
    ((port response).shiftsIr d (l ++ ir)).sr.bits.take 5 = ir := by
  have hlow (d : ReveTap) (hd : (d.sr.bits.take 5).length = 5) (l : List Bool) :
      ((port response).shiftsIr d l).sr.bits.take 5 = (ShiftReg.shiftAll ⟨d.sr.bits.take 5, hd⟩ l).bits := by
    induction l generalizing d with
    | nil => rfl
    | cons b l ih =>
      have hstep := take_shiftIr response d b
      have hreg : (⟨((port response).shiftIr d b).sr.bits.take 5, by simp⟩ : ShiftReg 5) =
          ShiftReg.shiftIn ⟨d.sr.bits.take 5, hd⟩ b := ShiftReg.ext hstep
      exact (ih ((port response).shiftIr d b) (by simp)).trans (congrArg (fun r => (ShiftReg.shiftAll r l).bits) hreg)
  rw [Port.shiftsIr, List.foldl_append]
  exact (hlow _ (by simp) ir).trans (congrArg ShiftReg.bits (ShiftReg.shiftAll_eq _ hir))

theorem accepted_shiftsIr (d : ReveTap) (l : List Bool) :
    ((port response).shiftsIr d l).accepted = d.accepted := by
  induction l generalizing d with
  | nil => rfl
  | cons b l ih => exact ih ((port response).shiftIr d b)

/-- Shifting leaves the instruction and what was accepted alone. -/
theorem shiftsDr_eq (d : ReveTap) (l : List Bool) :
    ((port response).shiftsDr d l).ir = d.ir ∧ ((port response).shiftsDr d l).accepted = d.accepted := by
  induction l generalizing d with
  | nil => exact ⟨rfl, rfl⟩
  | cons b l ih => exact ih ((port response).shiftDr d b)

/-- **A scan of another register** leaves the instruction and what was accepted alone. -/
theorem scanDr_other {d : ReveTap} (hd : d.ir ≠ 0x11) (l : List Bool) :
    ((port response).scanDr d l).ir = d.ir ∧ ((port response).scanDr d l).accepted = d.accepted := by
  obtain ⟨hir, hacc⟩ := shiftsDr_eq response ((port response).captureDr d) l
  refine ⟨hir, ?_⟩
  have hnot : ¬ ((port response).shiftsDr ((port response).captureDr d) l).Takes := by
    rintro ⟨h, -⟩
    exact hd (hir.symm.trans h)
  exact (if_neg hnot).trans hacc

/-- **A scan of the DMI register.** -/
theorem scanDr_dmi {d : ReveTap} (hd : d.ir = 0x11) (l : List Bool) :
    let d' : ReveTap := ⟨(response d.accepted).shiftAll l, 0x11, d.accepted⟩
    (port response).scanDr d l =
      { d' with accepted := if d'.Takes then d.accepted ++ [Request.ofReg d'.sr] else d.accepted } := by
  have hshift (d : ReveTap) (hd : d.ir = 0x11) (l : List Bool) :
      (port response).shiftsDr d l = { d with sr := d.sr.shiftAll l } := by
    induction l generalizing d with
    | nil => rfl
    | cons b l ih =>
      have hstep : (port response).shiftDr d b = { d with sr := d.sr.shiftIn b } := by
        rw [← shiftAt_top]
        simp [port, hd]
      change (port response).shiftsDr ((port response).shiftDr d b) l = _
      rw [hstep, ih { d with sr := d.sr.shiftIn b } hd]
      rfl
  have hcap : (port response).captureDr d = { d with sr := response d.accepted } := by
    simp [port, hd]
  rw [Port.scanDr, hcap, hshift { d with sr := response d.accepted } hd]
  obtain ⟨sr, ir, accepted⟩ := d
  obtain rfl : ir = 0x11 := hd
  rfl

/-! ### What is waiting -/

/-- What the TAP has accepted, and what it has if what is waiting is counted in. -/
theorem accepted_flush (s : TapState × ReveTap) : ((port response).flush s).2.accepted =
    s.2.accepted ++ if s.1 = .updateDr ∧ s.2.Takes then [Request.ofReg s.2.sr] else [] := by
  obtain ⟨t, d⟩ := s
  by_cases h : t = .updateDr ∧ d.Takes
  · obtain ⟨rfl, ht⟩ := h
    rw [if_pos ⟨rfl, ht⟩]
    exact if_pos ht
  · rw [if_neg h, List.append_nil]
    cases t with
    | updateDr => exact if_neg fun ht => h ⟨rfl, ht⟩
    | _ => rfl

end ReveTap

end PyOcdRiscv.Target
