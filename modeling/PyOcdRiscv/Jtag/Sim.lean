import PyOcdRiscv.Jtag.Controller
import Mathlib.Tactic.Ring

/-!
# The simulator's controller

`JtagSimController` of `sim.py`, bit by bit. Its socket is taken as a clock line:
`readwritebit` is one edge, and its answer the level on TDO before it, which is what
the protocol between the two byte streams comes to (`Sim.Stream`).
-/

namespace PyOcdRiscv.Jtag

open Lib

namespace JtagSimController

/-- The monad of its methods. -/
abbrev M := EStateM Fault Wire

variable (tdo : History → Bool)

/-- `readwritebit`, which is also `writebit`. -/
def readwritebit (tms tdi : Bool) : M ℕ := fun w =>
  .ok (tdo w.history).toNat (w.put [⟨tms, tdi⟩])

/-- The loop of `shiftinoutval`, from index `i` on. -/
def shiftLoop : ℕ → ℕ → ℕ → ℕ → M ℕ
  | 0, _, _, outval => pure outval
  | n + 1, i, inval, outval => do
    let bit := inval % 2 == 1
    let tdo' ← readwritebit tdo false bit
    shiftLoop n (i + 1) (inval >>> 1) (outval + tdo' <<< i)

/-- `shiftinoutval`. -/
def shiftinoutval (length inval : ℕ) : M ℕ := shiftLoop tdo length 0 inval 0

/-- The loop of `write_tms`. `if self._last` is false for a bit that is `False` as it is
for no bit. -/
def tmsLoop : BitSequence → Bool → ℕ → M ℕ
  | [], _, tdo' => pure tdo'
  | val :: tms, shouldRead, tdo' => do
    let w ← get
    let read ← readwritebit tdo val (w.last.getD false)
    let tdo' := if shouldRead then read else tdo'
    modify fun w => { w with last := none }
    tmsLoop tms false tdo'

/-- `write_tms`. -/
def writeTms (tms : BitSequence) (shouldRead : Bool) : M BitSequence := do
  let tdo' ← tmsLoop tdo tms shouldRead 0
  return BitSequence.ofInt tdo' true 0

/-- `reset`. -/
def reset : M Unit := do
  let _ ← writeTms tdo (List.replicate 5 true) false

/-- `read`. -/
def read (length : ℕ) : M BitSequence := do
  let val ← shiftinoutval tdo length 0
  return BitSequence.ofInt val false length

/-- `if use_last: (out, self._last) = (out[:-1], bool(out[-1]))`. Of an empty sequence there
is no `out[-1]`. -/
def keepLast (out : BitSequence) (useLast : Bool) : M BitSequence :=
  if useLast then
    match out.getLast? with
    | none => throw .indexError
    | some b => do
      modify fun w => { w with last := some b }
      return out.dropLast
  else return out

/-- `write`. -/
def write (out : BitSequence) (useLast : Bool) : M Unit := do
  let out ← keepLast out useLast
  let _ ← shiftinoutval tdo out.length out.toInt

/-- `writeread`. -/
def writeread (out : BitSequence) (useLast : Bool) : M BitSequence := do
  let out ← keepLast out useLast
  let val ← shiftinoutval tdo out.length out.toInt
  return BitSequence.ofInt val false out.length

/-- The controller, connected to a target. -/
def controller : Controller Wire := ⟨writeTms tdo, read tdo, write tdo, writeread tdo, reset tdo⟩

/-! ### What the methods do -/

/-- The loop of `shiftinoutval` clocks the bits of `inval`, and adds up what it reads. -/
theorem shiftLoop_eq (n i inval outval : ℕ) (w : Wire) :
    shiftLoop tdo n i inval outval w =
      .ok (outval + value (w.shifted tdo (bits n inval)) <<< i) (w.put (dataEdges (bits n inval))) := by
  induction n generalizing i inval outval w with
  | zero => simp [shiftLoop, Wire.shifted, pure, EStateM.pure]
  | succ n ih =>
    have hstep : shiftLoop tdo (n + 1) i inval outval w =
        shiftLoop tdo n (i + 1) (inval >>> 1) (outval + (tdo w.history).toNat <<< i)
          (w.put [⟨false, inval % 2 == 1⟩]) := rfl
    rw [hstep, ih, Nat.shiftRight_one]
    simp only [bits, Wire.shifted, dataEdges_cons, sample_cons, value_cons, Wire.history_put, Wire.put_put,
      List.singleton_append, Nat.shiftLeft_eq, Nat.pow_succ]
    congr 1
    ring

theorem shiftinoutval_eq (l : BitSequence) (w : Wire) :
    shiftinoutval tdo l.length (value l) w = .ok (value (w.shifted tdo l)) (w.put (dataEdges l)) := by
  rw [shiftinoutval, shiftLoop_eq, bits_value, Nat.shiftLeft_zero, Nat.zero_add]

/-- Once the bit kept back is gone, TMS moves with TDI low and nothing is read. -/
theorem tmsLoop_none (tms : BitSequence) (tdo' : ℕ) (h : History) :
    tmsLoop tdo tms false tdo' ⟨none, h⟩ =
      .ok tdo' ⟨none, h ++ tms.map fun t => ⟨t, false⟩⟩ := by
  induction tms generalizing h with
  | nil => simp [tmsLoop, pure, EStateM.pure]
  | cons t tms ih =>
    have hstep : tmsLoop tdo (t :: tms) false tdo' ⟨none, h⟩ =
        tmsLoop tdo tms false tdo' ⟨none, h ++ [⟨t, false⟩]⟩ := rfl
    rw [hstep, ih, List.append_assoc]
    rfl

theorem writeTms_eq (tms : BitSequence) (shouldRead : Bool) (w : Wire) :
    writeTms tdo tms shouldRead w =
      .ok [shouldRead && decide (tms ≠ []) && tdo w.history] (w.afterTms tms) := by
  have hloop : tmsLoop tdo tms shouldRead 0 w =
      .ok (shouldRead && decide (tms ≠ []) && tdo w.history).toNat (w.afterTms tms) := by
    cases tms with
    | nil => simp [tmsLoop, Wire.afterTms, pure, EStateM.pure]
    | cons t tms =>
      have hstep : tmsLoop tdo (t :: tms) shouldRead 0 w =
          tmsLoop tdo tms false (if shouldRead then (tdo w.history).toNat else 0)
            ⟨none, w.history ++ [⟨t, w.last.getD false⟩]⟩ := rfl
      have htdi : w.last.getD false = w.tdi := by
        obtain ⟨last, h⟩ := w
        rcases last with _ | _ | _ <;> rfl
      rw [hstep, tmsLoop_none, htdi, List.append_assoc]
      cases shouldRead <;> simp [Wire.afterTms, moveEdges]
  rw [writeTms, Prog.bind_ok hloop, BitSequence.ofInt_bit]
  rfl

theorem keepLast_eq {out : BitSequence} {useLast : Bool} (h : useLast = true → out ≠ []) (w : Wire) :
    keepLast out useLast w =
      .ok (Wire.now out useLast) { w with last := if useLast then out.getLast? else w.last } := by
  cases useLast with
  | true =>
    rw [keepLast, if_pos rfl, List.getLast?_eq_some_getLast (h rfl)]
    rfl
  | false => rfl

theorem read_eq (n : ℕ) (w : Wire) :
    read tdo n w = .ok (asRead (w.shifted tdo (List.replicate n false)))
      (w.afterScan (List.replicate n false) false) := by
  have hshift := shiftinoutval_eq tdo (List.replicate n false) w
  rw [List.length_replicate, value_replicate_false] at hshift
  rw [read, Prog.bind_ok hshift, asRead]
  simp [Wire.shifted, pure, EStateM.pure, Wire.afterScan, Wire.put, Wire.now]

theorem write_eq {out : BitSequence} {useLast : Bool} (h : useLast = true → out ≠ []) (w : Wire) :
    write tdo out useLast w = .ok () (w.afterScan out useLast) := by
  have hshift := shiftinoutval_eq tdo (Wire.now out useLast)
    { w with last := if useLast then out.getLast? else w.last }
  rw [write, Prog.bind_ok (keepLast_eq h w), BitSequence.toInt_eq, Prog.bind_ok hshift]
  rfl

theorem writeread_eq {out : BitSequence} {useLast : Bool} (h : useLast = true → out ≠ []) (w : Wire) :
    writeread tdo out useLast w =
      .ok (asRead (w.shifted tdo (Wire.now out useLast))) (w.afterScan out useLast) := by
  have hshift := shiftinoutval_eq tdo (Wire.now out useLast)
    { w with last := if useLast then out.getLast? else w.last }
  rw [writeread, Prog.bind_ok (keepLast_eq h w), BitSequence.toInt_eq, Prog.bind_ok hshift, asRead]
  simp [Wire.shifted, pure, EStateM.pure, Wire.afterScan, Wire.put]

/-- **The controller is lawful.** -/
def lawful : (controller tdo).Lawful tdo where
  wire w := w
  Rest _ := True
  unkept := tdo
  writeTms tms shouldRead w _ := by
    refine ⟨_, ?_, trivial, rfl⟩
    rw [ite_self]
    exact writeTms_eq tdo tms shouldRead w
  read n w _ _ := ⟨_, read_eq tdo n w, trivial, rfl⟩
  write _ _ w h _ := ⟨_, write_eq tdo h.2 w, trivial, rfl⟩
  writeread _ _ w h _ := ⟨_, writeread_eq tdo h.2 w, trivial, rfl⟩
  reset w _ := by
    refine ⟨_, ?_, trivial, rfl⟩
    change reset tdo w = _
    rw [reset, Prog.bind_ok (writeTms_eq tdo _ _ w)]
    rfl

/-- It can make scans of any length. -/
theorem carries (out : BitSequence) : (lawful tdo).Carries out where
  read w _ := ⟨_, read_eq tdo out.length w, trivial, rfl⟩
  write _ w h _ := ⟨_, write_eq tdo h w, trivial, rfl⟩
  writeread _ w h _ := ⟨_, writeread_eq tdo h w, trivial, rfl⟩

end JtagSimController

end PyOcdRiscv.Jtag
