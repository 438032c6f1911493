import PyOcdRiscv.Jtag.Clocked
import PyOcdRiscv.Jtag.Detect
import PyOcdRiscv.Jtag.Exchange

/-!
# The start of a session

How `dbgjtag.py` begins, but in the mode `v`: it resets the TAP, reads the identification,
and finds out the length of the instruction register in the instruction column. Nothing is
known of the target before: neither the state of its port nor what is in its registers.

What a target has to do for that is `TapTarget`: it follows TMS, selects its identification
when it leaves Test-Logic-Reset, and shifts its instruction register in Shift-IR. Then the
identification and the length are what the session starts with (`sessionStart_eq`), and the
instruction register is full of zeros, in Shift-IR, where the first `write_ir` goes on.
-/

namespace PyOcdRiscv.Jtag

open Lib

open JtagStateMachine (events)

variable {X : Type}

/-- While the machine is as `I` says, it shifts the register `reg`. -/
structure ShiftsRegister (M : Machine X) (I : X → Prop) (reg : X → List Bool) : Prop where
  keep : ∀ {x}, I x → ∀ b, I (M.edge x ⟨false, b⟩)
  ne_nil : ∀ {x}, I x → reg x ≠ []
  out : ∀ {x}, I x → M.tdo x = (reg x).headD false
  shift : ∀ {x}, I x → ∀ b, reg (M.edge x ⟨false, b⟩) = (reg x ++ [b]).tail

namespace ShiftsRegister

variable {M : Machine X} {I : X → Prop} {reg : X → List Bool} (H : ShiftsRegister M I reg)
include H

theorem keep_data {x : X} (hx : I x) (l : List Bool) : I (M.run x (dataEdges l)) := by
  induction l generalizing x with
  | nil => exact hx
  | cons b l ih => exact ih (H.keep hx b)

/-- What was shifted in takes the place of what was shifted out. -/
theorem reg_data {x : X} (hx : I x) (l : List Bool) :
    reg (M.run x (dataEdges l)) = (reg x ++ l).drop l.length := by
  induction l generalizing x with
  | nil => simp
  | cons b l ih =>
    obtain ⟨a, bs, hreg⟩ := List.exists_cons_of_ne_nil (H.ne_nil hx)
    rw [dataEdges_cons, Machine.run_cons, ih (H.keep hx b), H.shift hx, hreg]
    simp

/-- What comes out is what was in the register, then what went in. -/
theorem outs_data {x : X} (hx : I x) (l : List Bool) :
    M.outs x (dataEdges l) = (reg x ++ l).take l.length := by
  induction l generalizing x with
  | nil => rfl
  | cons b l ih =>
    obtain ⟨a, bs, hreg⟩ := List.exists_cons_of_ne_nil (H.ne_nil hx)
    rw [dataEdges_cons, Machine.outs, ih (H.keep hx b), H.shift hx, H.out hx, hreg]
    simp

/-- On the wire it is a register. -/
theorem showsRegister {x : X} {h : History} (hx : I (M.run x h)) :
    ShowsRegister (M.shows x) h (reg (M.run x h)) := by
  intro l
  rw [Machine.sample_shows, H.outs_data hx]

/-- The contents are all there is to see. -/
theorem eq_of_showsRegister {x : X} {h : History} (hx : I (M.run x h)) {c : List Bool}
    (hc : ShowsRegister (M.shows x) h c) (hl : c.length = (reg (M.run x h)).length) : reg (M.run x h) = c := by
  have hboth := (H.showsRegister hx c).symm.trans (hc c)
  rwa [List.take_left' hl.symm, List.take_left] at hboth

end ShiftsRegister

/-! ### Any register -/

/-- **What `detect_register_size` finds** on a target that has a register of `n` bits selected in
the column the port is in, whatever is in it: its length up to 12, and nothing from 13 to 2520.
It raises no error, does nothing but to enter the shift state and to shift some bits `l`, and
leaves the register full of zeros if it has found it. -/
theorem detectRegisterSize_finds {M : Machine X} {I : X → Prop} {reg : X → List Bool}
    (H : ShiftsRegister M I reg) {σ : Type} {C : Controller σ} {x : X} (L : C.Lawful (M.shows x))
    {s : EngineState σ} {sm : TapState} {w : Wire} {n : ℕ} (hs : JtagOCDEngine.At L s sm w)
    (hsm : sm ∈ [TapState.captureDr, .shiftDr, .captureIr, .shiftIr])
    (hreg : ∀ b, I (M.run x (w.history ++ JtagTool.leaveEdges sm b)) ∧
      (reg (M.run x (w.history ++ JtagTool.leaveEdges sm b))).length = n) (hpos : 0 < n) (hmax : n ≤ 2520) :
    ∃ s' w' b l, JtagTool.detectRegisterSize (JtagOCDEngine.tool C) s = .ok (if n ≤ 12 then .length n else .none) s' ∧
      JtagOCDEngine.At L s' (JtagTool.shiftState sm) w' ∧
      w'.history = w.history ++ JtagTool.leaveEdges sm b ++ dataEdges l ∧ I (M.run x w'.history) ∧
        (n ≤ 12 → reg (M.run x w'.history) = List.replicate n false) := by
  obtain ⟨s', b, l, c, h', ⟨last, hs'⟩, hc, hl, hzero⟩ := JtagTool.detectRegisterSize_eq
    (JtagOCDEngine.lawfulTool L) ⟨w.last, hs⟩ hsm (fun b => ⟨_, H.showsRegister (hreg b).1, (hreg b).2⟩) hpos hmax
  obtain ⟨hI, hlen⟩ := hreg b
  have hkeep := H.keep_data hI l
  have hsame : (reg (M.run x (w.history ++ JtagTool.leaveEdges sm b ++ dataEdges l))).length = n := by
    rw [Machine.run_append, H.reg_data hI, List.length_drop, List.length_append, Nat.add_sub_cancel, hlen]
  rw [← Machine.run_append] at hkeep
  refine ⟨s', _, b, l, h', hs', rfl, hkeep, fun hn => ?_⟩
  rw [H.eq_of_showsRegister hkeep hc (hl.trans hsame.symm), hzero hn, JtagTool.zeros_eq]

/-- A register of three bits, from the capture state, which loads it. -/
theorem detectRegisterSize_finds_three : ∃ s' w' b l,
    JtagTool.detectRegisterSize (JtagOCDEngine.tool (JtagSimController.controller
        ((dataRegister id).machine.shows (.captureDr, ShiftReg.ofNat 3 5)))) ⟨.captureDr, ⟨none, []⟩⟩ =
      .ok (.length 3) s' ∧
    JtagOCDEngine.At (JtagSimController.lawful ((dataRegister id).machine.shows (.captureDr, ShiftReg.ofNat 3 5)))
      s' .shiftDr w' ∧ w'.history = ⟨false, b⟩ :: dataEdges l := by
  have H : ShiftsRegister (dataRegister (id : ShiftReg 3 → ShiftReg 3)).machine (fun x => x.1 = .shiftDr)
      fun x => x.2.bits := by
    refine ⟨?_, ?_, ?_, ?_⟩
    · rintro ⟨t, r⟩ rfl b
      rfl
    · rintro ⟨t, r⟩ - hr
      exact absurd r.length_bits (by rw [show r.bits = [] from hr]; decide)
    · rintro ⟨t, r⟩ rfl
      rfl
    · rintro ⟨t, r⟩ rfl b
      rfl
  obtain ⟨s', w', b, l, h, hs', hw, -⟩ := detectRegisterSize_finds H
    (JtagSimController.lawful ((dataRegister id).machine.shows (.captureDr, ShiftReg.ofNat 3 5)))
    (s := ⟨.captureDr, ⟨none, []⟩⟩) ⟨trivial, rfl, rfl⟩ (by decide) (fun b => ⟨rfl, ShiftReg.length_bits _⟩)
    (show 0 < 3 by decide) (by decide)
  exact ⟨s', w', b, l, h, hs', hw⟩

/-! ### From the reset on -/

/-- **A target**, as far as the start of a session goes. -/
structure TapTarget (M : Machine X) (idcode irsize : ℕ) where
  /-- The state of its port. -/
  tap : X → TapState
  /-- The identification is selected, and has not been shifted since the reset. -/
  Fresh : X → Prop
  /-- The identification is being shifted, and these bits of it are still to come. -/
  IdLeft : X → List Bool → Prop
  /-- The register that instructions are shifted in. -/
  irReg : X → List Bool
  tap_edge : ∀ x e, tap (M.edge x e) = (tap x).next e.tms
  fresh_reset : ∀ {x}, tap x = .testLogicReset → ∀ e, Fresh (M.edge x e)
  fresh_edge : ∀ {x}, Fresh x → tap x ∈ [TapState.runTestIdle, .selectDrScan] → ∀ e, Fresh (M.edge x e)
  capture : ∀ {x}, Fresh x → tap x = .captureDr → ∀ b, IdLeft (M.edge x ⟨false, b⟩) (bits 32 idcode)
  shiftId : ∀ {x a l}, IdLeft x (a :: l) → M.tdo x = a ∧ ∀ b, IdLeft (M.edge x ⟨false, b⟩) l
  captureIr : ∀ {x}, tap x = .captureIr → ∀ b, (irReg (M.edge x ⟨false, b⟩)).length = irsize
  shiftsIr : ShiftsRegister M (fun x => tap x = .shiftIr ∧ (irReg x).length = irsize) irReg

/-- The start of `dbgjtag.py`, but in the mode `v`: `engine.reset()`, `tool.idcode()`,
`engine.go_idle()`, `engine.capture_ir()` and `tool.detect_register_size()`. -/
def sessionStart {φ ε : Type} (E : ToolEngine φ ε) : EStateM φ ε (ℕ × JtagTool.Detection) := do
  E.reset
  let id ← JtagTool.idcode E
  E.changeState .runTestIdle
  E.changeState .captureIr
  let irlen ← JtagTool.detectRegisterSize E
  return (id, irlen)

namespace TapTarget

variable {M : Machine X} {idcode irsize : ℕ} (T : TapTarget M idcode irsize)

theorem tap_run (x : X) (h : History) : T.tap (M.run x h) = (T.tap x).after h := by
  induction h generalizing x with
  | nil => rfl
  | cons e h ih => rw [Machine.run_cons, ih, T.tap_edge, TapState.after_cons]

/-- Five ones lead to Test-Logic-Reset, whatever goes with them on TDI. -/
theorem tap_reset (x : X) (h : History) (b : Bool) :
    T.tap (M.run x (h ++ moveEdges b (List.replicate 5 true))) = .testLogicReset := by
  rw [tap_run, TapState.after_append]
  exact TapState.after_reset _ _ rfl

/-- The identification comes out. -/
theorem outs_id {x : X} {l : List Bool} (hx : T.IdLeft x l) (l' : List Bool) (hl : l'.length = l.length) :
    M.outs x (dataEdges l') = l := by
  induction l generalizing x l' with
  | nil =>
    obtain rfl := List.length_eq_zero_iff.mp hl
    rfl
  | cons a l ih =>
    obtain ⟨b, l', rfl⟩ := List.exists_cons_of_length_eq_add_one hl
    obtain ⟨htdo, hleft⟩ := T.shiftId hx
    rw [dataEdges_cons, Machine.outs, htdo, ih (hleft b) l' (Nat.succ.inj hl)]

/-- **The identification** is what comes out after a reset. -/
theorem sample_id {x : X} {h : History} (hx : T.tap (M.run x h) = .testLogicReset) {l : List Bool}
    (hl : l.length = 32) :
    sample (M.shows x) (h ++ moveEdges false (events .testLogicReset .shiftDr)) (dataEdges l) = bits 32 idcode := by
  have hmove : moveEdges false (events .testLogicReset .shiftDr) =
      [⟨false, false⟩, ⟨true, false⟩, ⟨false, false⟩, ⟨false, false⟩] := by decide +kernel
  rw [hmove, Machine.sample_shows, Machine.run_append]
  generalize M.run x h = y at hx
  -- one edge for each state on the way
  have h₁ := T.fresh_reset hx ⟨false, false⟩
  have t₁ : T.tap (M.edge y ⟨false, false⟩) = .runTestIdle := by rw [T.tap_edge, hx]; rfl
  have h₂ := T.fresh_edge h₁ (by rw [t₁]; decide) ⟨true, false⟩
  have t₂ : T.tap (M.edge (M.edge y ⟨false, false⟩) ⟨true, false⟩) = .selectDrScan := by rw [T.tap_edge, t₁]; rfl
  have h₃ := T.fresh_edge h₂ (by rw [t₂]; decide) ⟨false, false⟩
  have t₃ : T.tap (M.edge (M.edge (M.edge y ⟨false, false⟩) ⟨true, false⟩) ⟨false, false⟩) = .captureDr := by
    rw [T.tap_edge, t₂]; rfl
  exact T.outs_id (T.capture h₃ t₃ false) l (by rw [hl, length_bits])

/-- **The instruction register** is what is shifted after Capture-IR. -/
theorem showsIr {x : X} {h : History} (hx : T.tap (M.run x h) = .captureIr) (b : Bool) :
    T.tap (M.run x (h ++ [⟨false, b⟩])) = .shiftIr ∧ (T.irReg (M.run x (h ++ [⟨false, b⟩]))).length = irsize := by
  rw [Machine.run_append]
  constructor
  · change T.tap (M.edge (M.run x h) ⟨false, b⟩) = _
    rw [T.tap_edge, hx]
    rfl
  · exact T.captureIr hx b

/-- The moves of the start are short. -/
theorem length_events_start : (events .updateDr .runTestIdle).length < 8 ∧
    (events .runTestIdle .runTestIdle).length < 8 ∧ (events .runTestIdle .captureIr).length < 8 := by
  decide +kernel

/-- **The start of a session**: with any engine the tool can rely on, and from any state of the
engine and of the target, it finds the identification of the target and the length of its
instruction register. -/
theorem sessionStart_eq (T : TapTarget M idcode irsize) (hid : idcode < 2 ^ 32) (hpos : 0 < irsize)
    (hir : irsize ≤ 12) {φ ε : Type} {E : ToolEngine φ ε} {x : X} (L : E.Lawful (M.shows x)) {s : ε}
    {sm : TapState} {h : History} (hs : L.At s sm h) : ∃ s' h',
      sessionStart E s = .ok (idcode, .length irsize) s' ∧ L.At s' .shiftIr h' ∧
        T.tap (M.run x h') = .shiftIr ∧ T.irReg (M.run x h') = List.replicate irsize false := by
  obtain ⟨s₁, b, h₁, hs₁⟩ := L.reset hs
  have hreset := T.tap_reset x h b
  generalize h ++ moveEdges b (List.replicate 5 true) = h at hs₁ hreset
  -- the identification
  obtain ⟨s₂, h₂, hs₂⟩ := L.readDr hs₁ (by decide) 32 (by decide) (by decide)
  have hread : EngineCall.answer (M.shows x) h .testLogicReset (.readDr 32) = bits 32 idcode := by
    rw [EngineCall.answer, T.sample_id hreset (List.length_replicate ..), asRead_eq (bits_ne_nil (by decide) idcode)]
  rw [hread] at h₂
  obtain ⟨hlen₃, hlen₄, hlen₅⟩ := length_events_start
  obtain ⟨s₃, h₃, hs₃⟩ := L.changeState hs₂ .runTestIdle hlen₃
  obtain ⟨s₄, h₄, hs₄⟩ := L.changeState hs₃ .runTestIdle hlen₄
  obtain ⟨s₅, h₅, hs₅⟩ := L.changeState hs₄ .captureIr hlen₅
  generalize hh : h ++ scanFrom .testLogicReset .shiftDr (List.replicate (32 + 1) false) ++
    moveEdges false (events .updateDr .runTestIdle) ++ moveEdges false (events .runTestIdle .runTestIdle) ++
    moveEdges false (events .runTestIdle .captureIr) = h' at hs₅
  have hcapture : T.tap (M.run x h') = .captureIr := by
    rw [← hh, T.tap_run, TapState.after_append, TapState.after_append, TapState.after_append,
      TapState.after_append, ← T.tap_run, hreset, after_scanFrom _ (Or.inl rfl),
      show (TapState.shiftDr.next true).next true = .updateDr from rfl, after_moves, after_moves, after_moves]
  -- the length of the instruction register
  have hleave (b : Bool) : JtagTool.leaveEdges .captureIr b = [⟨false, b⟩] := rfl
  obtain ⟨s₆, b, l, c, h₆, hs₆, hc, hl, hzero⟩ := JtagTool.detectRegisterSize_eq L (L.at_of_clear hs₅) (by decide)
    (fun b => ⟨_, T.shiftsIr.showsRegister (T.showsIr hcapture b), (T.showsIr hcapture b).2⟩)
    hpos (hir.trans (by decide))
  rw [hleave] at hs₆ hc
  rw [if_pos hir] at h₆
  have hkeep := T.shiftsIr.keep_data (T.showsIr hcapture b) l
  rw [← Machine.run_append] at hkeep
  refine ⟨s₆, _, ?_, hs₆, hkeep.1, ?_⟩
  · have hcode : JtagTool.idcode E s₁ = .ok idcode s₃ := by
      rw [JtagTool.idcode, Prog.bind_ok h₂, Prog.bind_ok h₃, BitSequence.toInt_eq, value_bits_of_lt hid]
      rfl
    rw [sessionStart, Prog.bind_ok h₁, Prog.bind_ok hcode, Prog.bind_ok h₄, Prog.bind_ok h₅, Prog.bind_ok h₆]
    rfl
  · rw [T.shiftsIr.eq_of_showsRegister hkeep hc (hl.trans hkeep.2.symm), hzero hir, JtagTool.zeros_eq]

end TapTarget

end PyOcdRiscv.Jtag
