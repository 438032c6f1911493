import PyOcdRiscv.Jtag.Exchange
import PyOcdRiscv.Jtag.LongScans

/-!
# Shifting where the port is

`shift_register` shifts in the state the port is in, or, from a capture state, in the
shift state next to it. Whether it may is decided by the modes of the state, and of the
states of the mode `shift` two are one edge away from shifting, as the capture states are:
Exit2-DR and Exit2-IR. They are let through like the others, but no move is made for them,
so the first bit is spent on the way and the state machine stays where it was
(`shiftRegister_shifts_iff`).
-/

namespace PyOcdRiscv.Jtag

open Lib

variable {δ : Type} (P : Port δ)

/-- What the register that is selected in the shift state `t` shifts out as the bits of `l` go
in, the bit at its serial output first. -/
def selectedOuts (t : TapState) : δ → List Bool → List Bool
  | _, [] => []
  | d, b :: l =>
    if t = .shiftIr then P.outIr d :: selectedOuts t (P.shiftIr d b) l
    else P.outDr d :: selectedOuts t (P.shiftDr d b) l

theorem outs_selected {t : TapState} (ht : t.Shifts) (d : δ) (l : List Bool) :
    P.machine.outs (t, d) (dataEdges l) = selectedOuts P t d l := by
  induction l generalizing d with
  | nil => rfl
  | cons b l ih =>
    rcases ht with rfl | rfl
    · rw [selectedOuts, if_neg (by decide)]
      exact congrArg (P.outDr d :: ·) (ih (P.shiftDr d b))
    · rw [selectedOuts, if_pos rfl]
      exact congrArg (P.outIr d :: ·) (ih (P.shiftIr d b))

section
variable {P} {x : TapState × δ} {σ : Type} {C : Controller σ} (L : C.Lawful (P.machine.shows x))

/-- What `shift_register(out)` is to do on an engine that is in step with the port: if the
state is let through, each bit of `out` is clocked in the shift state `t`, none is spent
before it, the register that is selected there is read out, and the engine is in step
afterwards; in other states it is refused, and nothing is done. -/
def ShiftsOut (s : EngineState σ) (out : BitSequence) : Prop :=
  if JtagStateMachine.isOf .shift s.sm = true then
    ∃ s' pre t d, JtagOCDEngine.shiftRegister C out s = .ok (selectedOuts P t d out) s' ∧
      P.machine.run x ((L.wire s.ctrl).history ++ pre) = (t, d) ∧ t.Shifts ∧
      edgesIn .shiftDr s.sm pre + edgesIn .shiftIr s.sm pre = 0 ∧
      (L.wire s'.ctrl).history = (L.wire s.ctrl).history ++ pre ++ dataEdges out ∧
      (∀ k < out.length,
        (P.machine.run x ((L.wire s.ctrl).history ++ pre ++ (dataEdges out).take k)).1 = t) ∧
      s'.sm = (P.machine.run x (L.wire s'.ctrl).history).1
  else JtagOCDEngine.shiftRegister C out s = .error .invalidState s

variable {L} {s : EngineState σ} {sm : TapState} {w : Wire} {out : BitSequence}

/-- The states of the mode `shift`, but for the two: at most one move before the bits. -/
theorem isOf_shift_cases (hshift : JtagStateMachine.isOf .shift sm = true) (hdr : sm ≠ .exit2Dr)
    (hir : sm ≠ .exit2Ir) :
    (JtagStateMachine.isOf .capture sm = true ∧ (sm.next false).Shifts ∧
        ∀ b, edgesIn .shiftDr sm (moveEdges b [false]) + edgesIn .shiftIr sm (moveEdges b [false]) = 0) ∨
      JtagStateMachine.isOf .capture sm = false ∧ sm.Shifts := by
  cases sm with
  | captureDr => exact Or.inl ⟨rfl, Or.inl rfl, fun _ => rfl⟩
  | captureIr => exact Or.inl ⟨rfl, Or.inr rfl, fun _ => rfl⟩
  | shiftDr => exact Or.inr ⟨rfl, Or.inl rfl⟩
  | shiftIr => exact Or.inr ⟨rfl, Or.inr rfl⟩
  | exit2Dr => exact absurd rfl hdr
  | exit2Ir => exact absurd rfl hir
  | _ => exact absurd hshift (by decide)

/-- In those two states nothing goes before the bits, so the port does not shift them. -/
theorem not_shifts_of_exit2 (hx : (P.machine.run x w.history).1 = sm) (hexit : sm = .exit2Dr ∨ sm = .exit2Ir)
    {pre : History} {t : TapState} {d : δ} (hrun : P.machine.run x (w.history ++ pre) = (t, d))
    (hhist : ((if JtagStateMachine.isOf .capture sm then w.afterTms [false] else w).afterScan out false).history =
      w.history ++ pre ++ dataEdges out) : ¬ t.Shifts := by
  have hcap : ¬ JtagStateMachine.isOf .capture sm = true := by
    rcases hexit with rfl | rfl <;> decide
  rw [if_neg hcap] at hhist
  have hpre : pre = [] := by
    have hlen := congrArg List.length hhist
    simp only [Wire.afterScan, Wire.now, Bool.false_eq_true, if_false, List.length_append] at hlen
    exact List.length_eq_zero_iff.mp (by omega)
  rw [hpre, List.append_nil] at hrun
  rw [hrun] at hx
  intro ht
  rcases hexit with rfl | rfl <;> rcases ht with ht | ht <;> exact absurd (hx.symm.trans ht) (by decide)

/-- In the others at most one edge goes before the bits. -/
theorem exists_before_bits (hshift : JtagStateMachine.isOf .shift sm = true) (hdr : sm ≠ .exit2Dr)
    (hir : sm ≠ .exit2Ir) (w : Wire) (out : BitSequence) : ∃ pre t w',
      (if JtagStateMachine.isOf .capture sm then w.afterTms [false] else w) = w' ∧
        (w'.afterScan out false).history = w.history ++ pre ++ dataEdges out ∧
        w'.history = w.history ++ pre ∧ t.Shifts ∧ edgesIn .shiftDr sm pre + edgesIn .shiftIr sm pre = 0 ∧
        sm.after pre = t ∧ EngineCall.leaves sm (.shiftRegister out) = t := by
  rcases isOf_shift_cases hshift hdr hir with ⟨hcap, ht, hpre⟩ | ⟨hcap, ht⟩
  · refine ⟨moveEdges w.tdi [false], sm.next false, w.afterTms [false], if_pos hcap, ?_, rfl, ht, hpre _,
      rfl, if_pos hcap⟩
    rfl
  · refine ⟨[], sm, w, if_neg (by simp [hcap]), ?_, (List.append_nil _).symm, ht, rfl, rfl,
      if_neg (by simp [hcap])⟩
    rw [List.append_nil]
    rfl

/-- **When it shifts**, on a controller that can scan `out`. -/
theorem shiftsOut_iff (hs : JtagOCDEngine.At L s sm w) (hx : (P.machine.run x w.history).1 = sm) (hne : out ≠ [])
    (hc : L.Carries out) : ShiftsOut L s out ↔ sm ≠ .exit2Dr ∧ sm ≠ .exit2Ir := by
  by_cases hshift : JtagStateMachine.isOf .shift sm = true
  · obtain ⟨s', h', hs'⟩ := JtagOCDEngine.shiftRegister_of hs hshift
      fun c hr => hc.writeread false c (fun h => absurd h (by decide)) hr
    rw [ShiftsOut, hs.sm, if_pos hshift, hs.wire]
    constructor
    · rintro ⟨s₁, pre, t, d, h₁, hrun, ht, -, hhist, -, -⟩
      rw [h₁] at h'
      injection h' with _ hsame
      rw [hsame, hs'.wire] at hhist
      constructor
      · exact fun he => not_shifts_of_exit2 hx (Or.inl he) hrun hhist ht
      · exact fun he => not_shifts_of_exit2 hx (Or.inr he) hrun hhist ht
    · rintro ⟨hdr, hir⟩
      -- the port once the bits begin, the edges before them, and what is on the wire then
      obtain ⟨pre, t, w', hw', hwire, hhist, ht, hpre, hafter, hleaves⟩ := exists_before_bits hshift hdr hir w out
      rw [hw'] at h' hs'
      have hport (es : List Edge) : (P.machine.run x (w.history ++ pre ++ es)).1 = t.after es := by
        rw [Port.run_fst, TapState.after_append, TapState.after_append, ← Port.run_fst, hx, hafter]
      have hbegin : (P.machine.run x (w.history ++ pre)).1 = t := by
        rw [← List.append_nil (w.history ++ pre)]
        exact hport []
      refine ⟨s', pre, t, (P.machine.run x (w.history ++ pre)).2, ?_, Prod.ext hbegin rfl, ht, hpre, ?_, ?_, ?_⟩
      · rw [h', asRead_eq (by simpa [Wire.shifted, ← List.length_pos_iff] using hne), Wire.shifted, hhist,
          Machine.sample_shows, ← outs_selected P ht]
        rw [← hbegin]
      · rw [hs'.wire, hwire]
      · intro k _
        rw [hport, dataEdges, ← List.map_take]
        exact TapState.after_dataEdges ht _
      · rw [hs'.wire, hwire, hport, TapState.after_dataEdges ht, hs'.sm, hleaves]
  · rw [ShiftsOut, hs.sm, if_neg hshift]
    refine iff_of_true (JtagOCDEngine.shiftRegister_refused ?_ out) ?_
    · rw [hs.sm]
      simpa using hshift
    · constructor <;> rintro rfl <;> exact hshift rfl

/-- A scan that fails does not shift out. -/
theorem not_shiftsOut_of_error (hs : JtagOCDEngine.At L s sm w)
    (hshift : JtagStateMachine.isOf .shift sm = true) {e : Fault}
    (herr : ∀ s, ∃ s', C.writeread out false s = .error e s') : ¬ ShiftsOut L s out := by
  obtain ⟨s', h'⟩ := JtagOCDEngine.shiftRegister_error hs hshift herr
  rw [ShiftsOut, hs.sm, if_pos hshift, h']
  rintro ⟨_, _, _, _, h, -⟩
  cases h

end

/-- **When `shift_register` shifts out its bits**: on the simulator's controller exactly if the
port is in neither of the two states, and on the USB-Blaster's exactly if, where it is let
through, it is in neither of them and the bits are fewer than 512. -/
theorem shiftRegister_shifts_iff (x : TapState × δ) {sm : TapState} {w : Wire}
    (hx : (P.machine.run x w.history).1 = sm) {out : BitSequence} (hne : out ≠ []) :
    (∀ s, JtagOCDEngine.At (JtagSimController.lawful (P.machine.shows x)) s sm w →
      (ShiftsOut (JtagSimController.lawful (P.machine.shows x)) s out ↔ sm ≠ .exit2Dr ∧ sm ≠ .exit2Ir)) ∧
    ∀ s, JtagOCDEngine.At (Blaster.lawful (P.machine.shows x)) s sm w →
      (ShiftsOut (Blaster.lawful (P.machine.shows x)) s out ↔
        (JtagStateMachine.isOf .shift sm = true → sm ≠ .exit2Dr ∧ sm ≠ .exit2Ir ∧ out.length < 512)) := by
  constructor
  · intro s hs
    exact shiftsOut_iff hs hx hne (JtagSimController.carries _ out)
  · intro s hs
    by_cases hlen : out.length < 512
    · rw [shiftsOut_iff hs hx hne (Controller.Lawful.carries _ hlen)]
      constructor
      · rintro ⟨hdr, hir⟩ -
        exact ⟨hdr, hir, hlen⟩
      · intro h
        constructor <;> rintro rfl
        · exact (h rfl).1 rfl
        · exact (h rfl).2.1 rfl
    · by_cases hshift : JtagStateMachine.isOf .shift sm = true
      · have hnow : 512 ≤ (Wire.now out false).length := Nat.not_lt.mp hlen
        have herr (s : BlasterState) := Blaster.writeread_tooLong (P.machine.shows x) hnow s
        exact iff_of_false (not_shiftsOut_of_error hs hshift fun s => ⟨_, herr s⟩) fun h => hlen (h hshift).2.2
      · refine iff_of_true ?_ fun h => absurd h hshift
        rw [ShiftsOut, hs.sm, if_neg hshift]
        exact JtagOCDEngine.shiftRegister_refused (by simpa [hs.sm] using hshift) out

/-- Two bits from Capture-DR, with a register of three. -/
theorem shiftRegister_shifts_capture :
    ShiftsOut (JtagSimController.lawful ((dataRegister id).machine.shows (.captureDr, ShiftReg.ofNat 3 5)))
      ⟨.captureDr, ⟨none, []⟩⟩ [true, false] := by
  have hx : ((dataRegister id).machine.run (.captureDr, ShiftReg.ofNat 3 5) (Wire.mk none []).history).1 =
    .captureDr := rfl
  have hne : [true, false] ≠ [] := by decide
  exact ((shiftRegister_shifts_iff _ _ hx hne).1 _ ⟨trivial, rfl, rfl⟩).mpr ⟨by decide, by decide⟩

/-- **In Exit2-DR the first bit is spent on the way.** -/
theorem exit2Dr_not_shiftsOut : ¬ ∀ (n : ℕ) (x : TapState × ShiftReg n) (s : EngineState Wire) (sm : TapState)
    (w : Wire) (out : BitSequence), ((dataRegister id).machine.run x w.history).1 = sm → out ≠ [] →
    JtagOCDEngine.At (JtagSimController.lawful ((dataRegister id).machine.shows x)) s sm w →
    ShiftsOut (JtagSimController.lawful ((dataRegister id).machine.shows x)) s out := by
  intro h
  have hs : JtagOCDEngine.At (JtagSimController.lawful ((dataRegister id).machine.shows
      (.exit2Dr, ShiftReg.ofNat 1 0))) ⟨.exit2Dr, ⟨none, []⟩⟩ .exit2Dr ⟨none, []⟩ := ⟨trivial, rfl, rfl⟩
  have hx : ((dataRegister id).machine.run (.exit2Dr, ShiftReg.ofNat 1 0) []).1 = .exit2Dr := rfl
  have hout := h 1 _ _ _ _ [true] hx (by decide) hs
  exact ((shiftsOut_iff hs hx (by decide) (JtagSimController.carries _ [true])).mp hout).1 rfl

end PyOcdRiscv.Jtag
