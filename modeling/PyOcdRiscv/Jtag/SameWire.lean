import PyOcdRiscv.Lib.Runs
import PyOcdRiscv.Jtag.Blaster
import PyOcdRiscv.Jtag.Sim

/-!
# The two controllers on one wire

The same calls on the simulator's controller and on the USB-Blaster's, from their
fresh state and against the same target. What both do is what `Wire.next` says
(`Lawful.calls_eq`), so the edges are the same in every run. The answers are the same
but for one: a `write_tms` that is asked to read with no bit kept back clocks its first
edge on both, but `Blaster` does so with `writebit` and returns the 0 that `tdo` starts
as. `sameOnWire_iff` is the exact condition.
-/

namespace PyOcdRiscv.Jtag

open Lib

/-- A call on a controller. -/
inductive CtrlCall where
  /-- `write_tms(seq, should_read)`. -/
  | writeTms (seq : BitSequence) (shouldRead : Bool)
  /-- `write(seq, use_last)`. -/
  | write (seq : BitSequence) (useLast : Bool)
  /-- `writeread(seq, use_last)`. -/
  | writeread (seq : BitSequence) (useLast : Bool)
  /-- `read(n)`. -/
  | read (n : ℕ)
  /-- `reset()`. -/
  | reset
  deriving DecidableEq

/-- Fewer than 512 bits are shifted, and there is a last bit if one is to be kept back. -/
def CtrlCall.Ok : CtrlCall → Prop
  | .write seq useLast | .writeread seq useLast => ScanOk seq useLast
  | .read n => n < 512
  | .writeTms _ _ | .reset => True

namespace Controller

variable {σ : Type} (C : Controller σ)

/-- A call, and what it returns; `none` is `None`. -/
def call : CtrlCall → EStateM Fault σ (Option BitSequence)
  | .writeTms seq shouldRead => do return some (← C.writeTms seq shouldRead)
  | .write seq useLast => do
    C.write seq useLast
    return none
  | .writeread seq useLast => do return some (← C.writeread seq useLast)
  | .read n => do return some (← C.read n)
  | .reset => do
    C.reset
    return none

/-- Calls one after the other, and what they return. -/
def calls : List CtrlCall → EStateM Fault σ (List (Option BitSequence))
  | [] => pure []
  | c :: cs => do
    let r ← C.call c
    let rs ← calls cs
    return r :: rs

end Controller

/-! ### What is on the wire -/

/-- The wire after a call. -/
def Wire.next (w : Wire) : CtrlCall → Wire
  | .writeTms seq _ => w.afterTms seq
  | .write seq useLast | .writeread seq useLast => w.afterScan seq useLast
  | .read n => w.afterScan (List.replicate n false) false
  | .reset => w.afterTms (List.replicate 5 true)

/-- What a call returns, for a target that shows `tdo`. -/
def Wire.answer (tdo unkept : History → Bool) (w : Wire) : CtrlCall → Option BitSequence
  | .writeTms seq shouldRead =>
    some [shouldRead && decide (seq ≠ []) && if w.last.isSome then tdo w.history else unkept w.history]
  | .writeread seq useLast => some (asRead (w.shifted tdo (Wire.now seq useLast)))
  | .read n => some (asRead (w.shifted tdo (List.replicate n false)))
  | .write _ _ | .reset => none

/-- A call, on the wire. -/
def Wire.step (tdo unkept : History → Bool) (c : CtrlCall) (w : Wire) : Option BitSequence × Wire :=
  (w.answer tdo unkept c, w.next c)

namespace Controller.Lawful

variable {σ : Type} {C : Controller σ} {tdo : History → Bool} (L : C.Lawful tdo)

theorem call_eq {c : CtrlCall} (hc : c.Ok) {s : σ} (hs : L.Rest s) : ∃ s',
    C.call c s = .ok ((L.wire s).answer tdo L.unkept c) s' ∧ L.Rest s' ∧ L.wire s' = (L.wire s).next c := by
  cases c with
  | writeTms seq shouldRead =>
    obtain ⟨s', h, hr, hw⟩ := L.writeTms seq shouldRead s hs
    exact ⟨s', by rw [call, Prog.bind_ok h]; rfl, hr, hw⟩
  | write seq useLast =>
    obtain ⟨s', h, hr, hw⟩ := L.write seq useLast s hc hs
    exact ⟨s', by rw [call, Prog.bind_ok h]; rfl, hr, hw⟩
  | writeread seq useLast =>
    obtain ⟨s', h, hr, hw⟩ := L.writeread seq useLast s hc hs
    exact ⟨s', by rw [call, Prog.bind_ok h]; rfl, hr, hw⟩
  | read n =>
    obtain ⟨s', h, hr, hw⟩ := L.read n s hc hs
    exact ⟨s', by rw [call, Prog.bind_ok h]; rfl, hr, hw⟩
  | reset =>
    obtain ⟨s', h, hr, hw⟩ := L.reset s hs
    exact ⟨s', by rw [call, Prog.bind_ok h]; rfl, hr, hw⟩

/-- **A run of a lawful controller** is a run on the wire. -/
theorem calls_eq {cs : List CtrlCall} (hcs : ∀ c ∈ cs, c.Ok) {s : σ} (hs : L.Rest s) : ∃ s',
    C.calls cs s = .ok (trace (Wire.step tdo L.unkept) (fun _ r => r.1) cs (L.wire s)) s' ∧
      L.wire s' = cs.foldl Wire.next (L.wire s) := by
  induction cs generalizing s with
  | nil => exact ⟨s, rfl, rfl⟩
  | cons c cs ih =>
    obtain ⟨s₁, h₁, hr₁, hw₁⟩ := L.call_eq (hcs c List.mem_cons_self) hs
    obtain ⟨s₂, h₂, hw₂⟩ := ih (fun c' hc' => hcs c' (List.mem_cons_of_mem c hc')) hr₁
    refine ⟨s₂, ?_, by rw [hw₂, hw₁, List.foldl_cons]⟩
    rw [calls, Prog.bind_ok h₁, Prog.bind_ok h₂, hw₁]
    rfl

end Controller.Lawful

/-! ### The same calls on both -/

/-- The fresh controllers: no bit is kept back, and no edge has been seen. -/
def JtagSimController.fresh : Wire := ⟨none, []⟩

/-- A cable that waits for a command, with TCK and TMS low. -/
def Blaster.fresh : BlasterState := ⟨⟨false, false, [], [], 0, false⟩, none⟩

/-- Made on both controllers, the calls succeed, the target sees the same edges, and each
call returns the same. -/
def SameOnWire (tdo : History → Bool) (cs : List CtrlCall) : Prop :=
  ∃ rs w s, (JtagSimController.controller tdo).calls cs JtagSimController.fresh = .ok rs w ∧
    (Blaster.controller tdo).calls cs Blaster.fresh = .ok rs s ∧ w.history = s.cable.history

/-- A `write_tms` that is asked to read and that clocks an edge finds a bit kept back, or
TDO low. -/
def ReadKept (tdo : History → Bool) (w : Wire) : CtrlCall → Prop
  | .writeTms seq shouldRead =>
    shouldRead = true → seq ≠ [] → w.last ≠ none ∨ tdo w.history = false
  | _ => True

/-- The answers differ where a read is made with no bit kept back and TDO high. -/
theorem answer_eq_iff (tdo : History → Bool) (w : Wire) (c : CtrlCall) :
    w.answer tdo tdo c = w.answer tdo (fun _ => false) c ↔ ReadKept tdo w c := by
  cases c with
  | writeTms seq shouldRead =>
    rw [Wire.answer, Wire.answer, ReadKept]
    cases w.last <;> cases shouldRead <;> simp [imp_iff_not_or]
  | write seq useLast => exact iff_of_true rfl trivial
  | writeread seq useLast => exact iff_of_true rfl trivial
  | read n => exact iff_of_true rfl trivial
  | reset => exact iff_of_true rfl trivial

theorem answers_eq_iff (tdo : History → Bool) (cs : List CtrlCall) (w : Wire) :
    trace (Wire.step tdo tdo) (fun _ r => r.1) cs w =
        trace (Wire.step tdo fun _ => false) (fun _ r => r.1) cs w ↔
      Along (ReadKept tdo) Wire.next cs w := by
  induction cs generalizing w with
  | nil => exact iff_of_true rfl trivial
  | cons c cs ih =>
    rw [trace, trace, Along, List.cons_eq_cons]
    exact and_congr (answer_eq_iff tdo w c) (ih (w.next c))

variable (tdo : History → Bool) {cs : List CtrlCall}

/-- What the two runs are: the same edges, and the answers that go with `unkept`. -/
theorem both_calls (hcs : ∀ c ∈ cs, c.Ok) : ∃ w s,
    (JtagSimController.controller tdo).calls cs JtagSimController.fresh =
        .ok (trace (Wire.step tdo tdo) (fun _ r => r.1) cs ⟨none, []⟩) w ∧
      (Blaster.controller tdo).calls cs Blaster.fresh =
        .ok (trace (Wire.step tdo fun _ => false) (fun _ r => r.1) cs ⟨none, []⟩) s ∧
      w.history = s.cable.history := by
  obtain ⟨w, hw, hw'⟩ := (JtagSimController.lawful tdo).calls_eq hcs (s := JtagSimController.fresh) trivial
  obtain ⟨s, hs, hs'⟩ := (Blaster.lawful tdo).calls_eq hcs (s := Blaster.fresh) ⟨rfl, rfl⟩
  have hsame : w = Blaster.wire s := hw'.trans hs'.symm
  exact ⟨w, s, hw, hs, congrArg Wire.history hsame⟩

/-- The edges are the same in every run. -/
theorem same_edges (hcs : ∀ c ∈ cs, c.Ok) : ∃ rs₁ rs₂ w s,
    (JtagSimController.controller tdo).calls cs JtagSimController.fresh = .ok rs₁ w ∧
      (Blaster.controller tdo).calls cs Blaster.fresh = .ok rs₂ s ∧ w.history = s.cable.history := by
  obtain ⟨w, s, hw, hs, hsame⟩ := both_calls tdo hcs
  exact ⟨_, _, w, s, hw, hs, hsame⟩

/-- **When the controllers agree**: exactly if every `write_tms` that is asked to read finds
a bit kept back, or TDO low. -/
theorem sameOnWire_iff (hcs : ∀ c ∈ cs, c.Ok) :
    SameOnWire tdo cs ↔ Along (ReadKept tdo) Wire.next cs ⟨none, []⟩ := by
  obtain ⟨w, s, hw, hs, hsame⟩ := both_calls tdo hcs
  rw [← answers_eq_iff]
  constructor
  · rintro ⟨rs, w', s', hw', hs', -⟩
    rw [hw] at hw'
    rw [hs] at hs'
    injection hw' with h₁
    injection hs' with h₂
    rw [h₁, h₂]
  · intro h
    rw [← h] at hs
    exact ⟨_, w, s, hw, hs, hsame⟩

/-- A scan whose last bit is kept back, the move that reads it out, and a reset. -/
theorem sameOnWire_scan : SameOnWire (fun _ => true)
    [.writeread [true, false] true, .writeTms [true, true] true, .read 3, .reset] := by
  refine (sameOnWire_iff _ ?_).mpr ?_
  · intro c hc
    simp only [List.mem_cons, List.not_mem_nil, or_false] at hc
    rcases hc with rfl | rfl | rfl | rfl
    · exact ⟨by decide, fun _ => by decide⟩
    · trivial
    · exact (by decide : 3 < 512)
    · trivial
  · refine ⟨trivial, fun _ _ => Or.inl ?_, trivial, trivial, trivial⟩
    exact (by decide : (some false : Option Bool) ≠ none)

/-- **They do not always**: `write_tms('1', should_read=True)` on fresh controllers, with
TDO high. -/
theorem move_reads_differently : ¬ ∀ (tdo : History → Bool) (cs : List CtrlCall),
    (∀ c ∈ cs, c.Ok) → SameOnWire tdo cs := by
  intro h
  obtain ⟨rs, w, s, hsim, hblaster, -⟩ := h (fun _ => true) [.writeTms [true] true] (by simp [CtrlCall.Ok])
  have h₁ : rs = [some [true]] := by
    injection hsim with hr
    exact hr.symm
  have h₂ : rs = [some [false]] := by
    injection hblaster with hr
    exact hr.symm
  rw [h₁] at h₂
  exact absurd h₂ (by decide)

end PyOcdRiscv.Jtag
