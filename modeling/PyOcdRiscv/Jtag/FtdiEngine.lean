import PyOcdRiscv.Jtag.Clocked
import PyOcdRiscv.Jtag.Exchange
import PyOcdRiscv.Jtag.FtdiJtag
import PyOcdRiscv.Jtag.JtagTool
import PyOcdRiscv.Jtag.MpsseDevice

/-!
# The engine of the mode `f`

`JtagEngine` of `pyftdi/jtag.py`, which `dbgjtag.py` takes for an FTDI device in place of its own
`JtagOCDEngine`. It has the methods that drivers use in common with that (`JtagEngineCall`), but
for `readwrite_dr` and `write_vir`.

On the wire there are two differences. The move that ends a scan keeps the last bit on TDI at
both of its edges, where the other controllers hold it at the first; and a move of eight edges is
refused, of which there are three (`changeState_refuses`). The second edge finds the port in an exit
state, where TDI does not matter, and so a program that makes no such move cannot tell the two
engines apart, nor can the target (`agrees`).
-/

namespace PyOcdRiscv.Jtag

open Lib

open JtagStateMachine (events)

/-- A call on a `JtagEngine`. -/
inductive JtagEngineCall where
  /-- `change_state(statename)`. -/
  | changeState (statename : TapState)
  /-- `write_ir(instruction)`. -/
  | writeIr (instruction : BitSequence)
  /-- `write_dr(data)`. -/
  | writeDr (data : BitSequence)
  /-- `read_dr(length)`. -/
  | readDr (length : ℕ)
  /-- `shift_register(length)`. -/
  | shiftRegister (out : BitSequence)
  /-- `write_tms(out)`. -/
  | writeTms (out : BitSequence)
  /-- `reset()`. -/
  | reset
  deriving DecidableEq, Repr

/-- The interface of the engine. -/
abbrev JtagEngine : Interface where
  Op := JtagEngineCall
  Res
    | .readDr _ | .shiftRegister _ => BitSequence
    | _ => Unit

namespace JtagEngineCall

/-- The same call on a `JtagOCDEngine`. -/
def onOcd : JtagEngineCall → EngineCall
  | changeState statename => .changeState statename
  | writeIr instruction => .writeIr instruction
  | writeDr data => .writeDr data
  | readDr length => .readDr length
  | shiftRegister out => .shiftRegister out
  | writeTms out => .writeTms out false
  | reset => .reset

/-- What it returns, without what `write_tms` returns there. -/
def result : (o : JtagEngineCall) → Engine.Res o.onOcd → JtagEngine.Res o
  | changeState _, _ | writeIr _, _ | writeDr _, _ | writeTms _, _ | reset, _ => ()
  | readDr _, data | shiftRegister _, data => data

end JtagEngineCall

/-- The same program on a `JtagOCDEngine`. -/
def JtagEngine.onOcd {α : Type} : Prog JtagEngine α → Prog Engine α
  | .done a => .done a
  | .call o k => .call o.onOcd fun r => onOcd (k (o.result r))

namespace JtagEngine

variable {υ : Type}

/-- The monad of its methods. -/
abbrev M (υ : Type) := EStateM FtdiFault (EngineState (FtdiJtagState υ))

/-- A call on `self._ctrl`. -/
def onCtrl {α : Type} (x : FtdiJtag.M υ α) : M υ α := fun s =>
  match x s.ctrl with
  | .ok a c => .ok a { s with ctrl := c }
  | .error e c => .error e { s with ctrl := c }

/-- `self._sm.handle_events(events)`. -/
def handleEvents (events : BitSequence) : M υ Unit :=
  modify fun s => { s with sm := JtagStateMachine.handleEvents s.sm events }

variable (D : UsbDev υ) (C : FtdiConfig)

/-- `change_state`. -/
def changeState (statename : TapState) : M υ Unit := do
  let s ← get
  match JtagStateMachine.getEvents (JtagStateMachine.findPath statename s.sm) with
  | .error e => throw (.jtag e)
  | .ok events => do
    onCtrl (FtdiJtag.writeTms D C events)
    handleEvents events

/-- `reset`. -/
def reset : M υ Unit := do
  onCtrl (FtdiJtag.reset D C)
  modify fun s => { s with sm := .testLogicReset }

/-- `write_ir`. -/
def writeIr (instruction : BitSequence) : M υ Unit := do
  changeState D C .shiftIr
  onCtrl (FtdiJtag.write D C instruction true)
  changeState D C .updateIr

/-- `write_dr`. -/
def writeDr (data : BitSequence) : M υ Unit := do
  changeState D C .shiftDr
  onCtrl (FtdiJtag.write D C data true)
  changeState D C .updateDr

/-- `read_dr`. -/
def readDr (length : ℕ) : M υ BitSequence := do
  changeState D C .shiftDr
  let data ← onCtrl (FtdiJtag.read D C length)
  changeState D C .updateDr
  return data

/-- `shift_register`. -/
def shiftRegister (out : BitSequence) : M υ BitSequence := do
  let s ← get
  if JtagStateMachine.isOf .shift s.sm = false then throw (.jtag .invalidState)
  if JtagStateMachine.isOf .capture s.sm then
    onCtrl (FtdiJtag.writeTms D C [false])
    handleEvents [false]
  onCtrl (FtdiJtag.shiftRegister D C out false)

/-- The methods. -/
def handler : (o : JtagEngineCall) → M υ (JtagEngine.Res o)
  | .changeState statename => changeState D C statename
  | .writeIr instruction => writeIr D C instruction
  | .writeDr data => writeDr D C data
  | .readDr length => readDr D C length
  | .shiftRegister out => shiftRegister D C out
  | .writeTms out => onCtrl (FtdiJtag.writeTms D C out)
  | .reset => reset D C

/-- A new engine. -/
def fresh (u : υ) : EngineState (FtdiJtagState υ) := ⟨.testLogicReset, ⟨⟨u, [], 0⟩, none, []⟩⟩

end JtagEngine

/-! ### What a call comes to -/

namespace JtagEngineCall

/-- The edges of a call that finds the port in state `t`: those of the other engine, but for
TDI at the last edge of a scan that writes. -/
def edges (t : TapState) : JtagEngineCall → List Edge
  | writeIr l => moveEdges false (events t .shiftIr) ++ (bitEdges l ++ [⟨true, l.getLast?.getD false⟩])
  | writeDr l => moveEdges false (events t .shiftDr) ++ (bitEdges l ++ [⟨true, l.getLast?.getD false⟩])
  | o => o.onOcd.edges t

/-- The calls that do what they are for on both engines: moves of fewer than eight edges, and
reads of a bit at least that do not go on with a scan. -/
def Fits (t : TapState) (o : JtagEngineCall) : Prop := o.onOcd.Fits t ∧
  match o with
  | changeState statename => (events t statename).length < 8
  | readDr length => 0 < length ∧ t ≠ .shiftDr
  | shiftRegister out => out ≠ []
  | writeTms out => out.length < 8
  | writeIr _ | writeDr _ | reset => True

end JtagEngineCall

/-- The paths of eight edges. -/
theorem length_events_iff : ∀ s t, 8 ≤ (events s t).length ↔
    t = .exit2Ir ∧ s ∈ [TapState.captureDr, .shiftDr, .pauseDr] := by decide +kernel

/-- The paths to the shift states are short enough. -/
theorem length_events_lt (s : TapState) : (events s .shiftIr).length < 8 ∧ (events s .shiftDr).length < 8 := by
  constructor <;> by_contra hlong
  · exact absurd ((length_events_iff _ _).mp (Nat.le_of_not_lt hlong)).1 (by decide)
  · exact absurd ((length_events_iff _ _).mp (Nat.le_of_not_lt hlong)).1 (by decide)

/-- The last edge into a shift state has TMS low. -/
theorem getLast?_events (s : TapState) {t : TapState} (ht : t.Shifts) : (events s t).getLast?.getD false = false := by
  have hled := JtagStateMachine.handleEvents_events s t
  rcases List.eq_nil_or_concat (events s t) with hnil | ⟨l, b, hl⟩
  · rw [hnil]
    rfl
  · rw [hl, List.concat_eq_append] at hled ⊢
    rw [JtagStateMachine.handleEvents, List.foldl_concat, JtagStateMachine.getx_eq] at hled
    cases b with
    | false => simp
    | true =>
      rw [← hled] at ht
      exact absurd ht ((by decide : ∀ s : TapState, ¬ (s.next true).Shifts) _)

theorem moveEdges_false (tms : BitSequence) : moveEdges false tms = tms.map fun t => ⟨t, false⟩ := by
  cases tms <;> rfl

namespace JtagEngine

variable {υ : Type} {D : UsbDev υ} {C : FtdiConfig} {tdo : History → Bool} {K : Mpsse D C.maxPacketSize tdo}

/-- Where an engine is between calls: nothing is stacked, no bit is kept back, and in a shift
state TMS is low. -/
structure At (K : Mpsse D C.maxPacketSize tdo) (s : EngineState (FtdiJtagState υ)) (t : TapState) (p : Pins) : Prop where
  sm : s.sm = t
  ctrl : FtdiJtag.At K s.ctrl none p
  flushed : s.ctrl.writeBuff = []
  low : t.Shifts → p.tms = false

theorem onCtrl_ok {α : Type} {x : FtdiJtag.M υ α} {s : EngineState (FtdiJtagState υ)} {a : α} {c : FtdiJtagState υ}
    (h : x s.ctrl = .ok a c) : onCtrl x s = .ok a { s with ctrl := c } := by
  simp only [onCtrl, h]

/-- A new engine, in front of a device that has not been sent anything. -/
theorem fresh_at {u : υ} (hu : K.sent u = []) (t : TapState) : At K { fresh u with sm := t } t .start := by
  obtain ⟨-, hout⟩ := K.executes u [] (by simp) hu
  have hnone : K.delivered u = [] := (List.append_eq_nil_iff.mp hout).1
  exact ⟨rfl, ⟨⟨[], ⟨by simp, ⟨[], [], rfl, hu, rfl⟩, Nat.le_refl _, hnone⟩, rfl⟩, rfl⟩, rfl, fun _ => rfl⟩

theorem get_ok (s : EngineState (FtdiJtagState υ)) : (get : M υ (EngineState (FtdiJtagState υ))) s = .ok s s := rfl

/-- A move, whether a bit is kept back or not. -/
theorem changeState_of (hC : FtdiJtag.Fits C) {s : EngineState (FtdiJtagState υ)} {last : Option Bool} {p : Pins}
    (h : FtdiJtag.At K s.ctrl last p) {t : TapState} (hlen : (events s.sm t).length < 8) :
    ∃ s', changeState D C t s = .ok () s' ∧ s'.sm = t ∧
      FtdiJtag.At K s'.ctrl (if events s.sm t = [] then last else none)
        (p.clock ((events s.sm t).map fun e => ⟨e, last.getD false⟩)) ∧
      (events s.sm t ≠ [] ∨ s.ctrl.writeBuff = [] → s'.ctrl.writeBuff = []) := by
  obtain ⟨c, hc, hat, hbuff⟩ := FtdiJtag.writeTms_at hC h _ hlen
  refine ⟨⟨t, c⟩, ?_, rfl, hat, hbuff⟩
  rw [changeState, Prog.bind_ok (get_ok s), JtagStateMachine.getEvents_findPath]
  dsimp only
  rw [Prog.bind_ok (onCtrl_ok hc)]
  have hled : (⟨JtagStateMachine.handleEvents s.sm (events s.sm t), c⟩ : EngineState (FtdiJtagState υ)) = ⟨t, c⟩ := by
    rw [JtagStateMachine.handleEvents_events]
  exact congrArg (EStateM.Result.ok ()) hled

theorem changeState_at (hC : FtdiJtag.Fits C) {s : EngineState (FtdiJtagState υ)} {t t' : TapState} {p : Pins}
    (h : At K s t p) (hlen : (events t t').length < 8) :
    ∃ s', changeState D C t' s = .ok () s' ∧ At K s' t' (p.clock (moveEdges false (events t t'))) := by
  obtain ⟨rfl, hctrl, hflushed, hlow⟩ := h
  obtain ⟨s', h', hsm, hat, hbuff⟩ := changeState_of hC hctrl hlen
  rw [Option.getD_none, ← moveEdges_false, ite_self] at hat
  refine ⟨s', h', hsm, hat, hbuff (Or.inr hflushed), fun hshift => ?_⟩
  have hlast := getLast?_events s.sm hshift
  rw [moveEdges_false, Pins.clock, List.getLast?_map]
  cases hevents : (events s.sm t').getLast? with
  | none =>
    have hnil := List.getLast?_eq_none_iff.mp hevents
    have hled := JtagStateMachine.handleEvents_events s.sm t'
    rw [hnil] at hled
    exact hlow (by rw [show s.sm = t' from hled]; exact hshift)
  | some b =>
    rw [hevents] at hlast
    exact hlast

/-- A move of eight edges is refused, and nothing is done. -/
theorem changeState_refused {s : EngineState (FtdiJtagState υ)} {t : TapState} (hlen : 8 ≤ (events s.sm t).length) :
    changeState D C t s = .error .invalidTmsLength s := by
  have hwrite : FtdiJtag.writeTms D C (events s.sm t) s.ctrl = .error .invalidTmsLength s.ctrl := by
    rw [FtdiJtag.writeTms, if_neg (by omega), if_pos (by omega)]
    rfl
  rw [changeState, Prog.bind_ok (get_ok s), JtagStateMachine.getEvents_findPath]
  simp only [Bind.bind, EStateM.bind, onCtrl, hwrite]

/-- The moves that are refused. -/
def Refused (t t' : TapState) : Prop := t' = .exit2Ir ∧ t ∈ [TapState.captureDr, .shiftDr, .pauseDr]

instance (t t' : TapState) : Decidable (Refused t t') := inferInstanceAs (Decidable (_ ∧ _))

/-- **What `change_state` does** between calls, whatever the target shows: it moves the port along
the path, but for the three moves to Exit2-IR that would take eight edges; these it refuses, and
nothing is done. -/
theorem changeState_refuses (hC : FtdiJtag.Fits C) {s : EngineState (FtdiJtagState υ)} {t : TapState} {p : Pins}
    (h : At K s t p) (t' : TapState) :
    if Refused t t' then changeState D C t' s = .error .invalidTmsLength s
    else ∃ s', changeState D C t' s = .ok () s' ∧ At K s' t' (p.clock (moveEdges false (events t t'))) := by
  split_ifs with hrefused
  · refine changeState_refused ?_
    rw [h.sm]
    exact (length_events_iff t t').mpr hrefused
  · exact changeState_at hC h (Nat.lt_of_not_le fun hlong => hrefused ((length_events_iff t t').mp hlong))

/-- From Shift-DR to Exit2-IR. -/
theorem changeState_refuses_exit2Ir :
    changeState (MpsseDevice.usb (fun _ => true) (fun _ => 0) 64) ⟨64, 64, 64⟩ .exit2Ir
        { fresh MpsseDevice.fresh with sm := .shiftDr } =
      .error .invalidTmsLength { fresh MpsseDevice.fresh with sm := .shiftDr } := by
  have h := changeState_refuses (C := ⟨64, 64, 64⟩) (K := MpsseDevice.mpsse (fun _ => true) (fun _ => 0) (by decide))
    ⟨by decide, by decide⟩ (fresh_at (u := MpsseDevice.fresh) rfl .shiftDr) .exit2Ir
  rwa [if_pos (by decide)] at h

/-- **A scan that writes**, of either column. -/
theorem scan_at (hC : FtdiJtag.Fits C) {s : EngineState (FtdiJtagState υ)} {t t' u : TapState} {p : Pins}
    (h : At K s t p) (ht' : t'.Shifts) (hu : ¬ u.Shifts) (hlen : (events t t').length < 8)
    (htu : events t' u = [true, true]) {l : BitSequence} (hl : l ≠ [] ∧ l.length < 512) :
    ∃ s', (do changeState D C t'; onCtrl (FtdiJtag.write D C l true); changeState D C u) s = .ok () s' ∧
      At K s' u (p.clock (moveEdges false (events t t') ++ (bitEdges l ++ [⟨true, l.getLast?.getD false⟩]))) := by
  obtain ⟨s₁, h₁, hs₁⟩ := changeState_at hC h hlen
  obtain ⟨c, hc, hat⟩ := FtdiJtag.write_at hC hs₁.ctrl l true (fun _ => hl.1) (by omega)
  rw [if_pos rfl, hs₁.low ht'] at hat
  have hlow : (⟨s₁.sm, c⟩ : EngineState (FtdiJtagState υ)).sm = t' := hs₁.sm
  obtain ⟨s₂, h₂, hsm, hat₂, hbuff⟩ := changeState_of hC (s := ⟨s₁.sm, c⟩) hat (t := u) (by rw [hlow, htu]; decide)
  rw [hlow, htu] at hat₂ hbuff
  rw [if_neg (by decide), FtdiJtag.clock_clock, FtdiJtag.clock_clock] at hat₂
  refine ⟨s₂, ?_, hsm, ?_, hbuff (Or.inl (by decide)), fun hshift => absurd hshift hu⟩
  · rw [Prog.bind_ok h₁, Prog.bind_ok (onCtrl_ok hc)]
    exact h₂
  · rw [bitEdges, List.append_assoc]
    exact hat₂

theorem writeIr_at (hC : FtdiJtag.Fits C) {s : EngineState (FtdiJtagState υ)} {t : TapState} {p : Pins}
    (h : At K s t p) {l : BitSequence} (hl : l ≠ [] ∧ l.length < 512) : ∃ s', writeIr D C l s = .ok () s' ∧
      At K s' .updateIr (p.clock (JtagEngineCall.edges t (.writeIr l))) :=
  scan_at hC h (Or.inr rfl) (by decide) (length_events_lt t).1 JtagOCDEngine.events_update.1 hl

theorem writeDr_at (hC : FtdiJtag.Fits C) {s : EngineState (FtdiJtagState υ)} {t : TapState} {p : Pins}
    (h : At K s t p) {l : BitSequence} (hl : l ≠ [] ∧ l.length < 512) : ∃ s', writeDr D C l s = .ok () s' ∧
      At K s' .updateDr (p.clock (JtagEngineCall.edges t (.writeDr l))) :=
  scan_at hC h (Or.inl rfl) (by decide) (length_events_lt t).2 JtagOCDEngine.events_update.2 hl

/-- **A scan that reads**. It does not write TDI, which is low because of the move to it. -/
theorem readDr_at (hC : FtdiJtag.Fits C) {s : EngineState (FtdiJtagState υ)} {t : TapState} {p : Pins}
    (h : At K s t p) (ht : t ≠ .shiftDr) {n : ℕ} (hpos : 0 < n) (hn : n < 512) : ∃ s',
      readDr D C n s = .ok (EngineCall.answer tdo p.history t (.readDr n)) s' ∧
        At K s' .updateDr (p.clock (JtagEngineCall.edges t (.readDr n))) := by
  obtain ⟨s₁, h₁, hs₁⟩ := changeState_at hC h (length_events_lt t).2
  have hmoved : events t .shiftDr ≠ [] := by
    intro hnil
    have hled := JtagStateMachine.handleEvents_events t .shiftDr
    rw [hnil] at hled
    exact ht hled
  have htdi : (p.clock (moveEdges false (events t .shiftDr))).tdi = false := by
    obtain ⟨b, hb⟩ := Option.ne_none_iff_exists'.mp (mt List.getLast?_eq_none_iff.mp hmoved)
    rw [moveEdges_false, Pins.clock, List.getLast?_map, hb]
    rfl
  have hzeros : (List.replicate n ⟨false, false⟩ : List Edge) = dataEdges (List.replicate n false) :=
    List.map_replicate.symm
  obtain ⟨c, hc, hat⟩ := FtdiJtag.read_at hC hs₁.ctrl (n := n) (show n / 8 ≤ 512 by omega)
  rw [hs₁.low (Or.inl rfl), htdi, hzeros] at hc hat
  have hlow : (⟨s₁.sm, c⟩ : EngineState (FtdiJtagState υ)).sm = .shiftDr := hs₁.sm
  obtain ⟨s₂, h₂, hsm, hat₂, hbuff⟩ := changeState_of hC (s := ⟨s₁.sm, c⟩) hat (t := .updateDr)
    (by rw [hlow, JtagOCDEngine.events_update.2]; decide)
  rw [hlow, JtagOCDEngine.events_update.2] at hat₂ hbuff
  rw [if_neg (by decide), FtdiJtag.clock_clock, FtdiJtag.clock_clock] at hat₂
  refine ⟨s₂, ?_, hsm, ?_, hbuff (Or.inl (by decide)), fun hshift => absurd hshift (by decide)⟩
  · rw [readDr, Prog.bind_ok h₁, Prog.bind_ok (onCtrl_ok hc), Prog.bind_ok h₂]
    have hne : sample tdo (p.history ++ moveEdges false (events t .shiftDr)) (dataEdges (List.replicate n false)) ≠ [] :=
      List.ne_nil_of_length_pos (by simpa using hpos)
    rw [EngineCall.answer, asRead_eq hne]
    rfl
  · rw [JtagEngineCall.edges, JtagEngineCall.onOcd, EngineCall.edges, scanFrom, scanEdges, bitEdges_zeros,
      List.append_assoc (dataEdges _)]
    · exact hat₂
    · exact fun _ h => by cases h
    · exact fun _ h => by cases h

/-- The scan of `shift_register`, with the port in a shift state. -/
theorem shift_at (hC : FtdiJtag.Fits C) {c : FtdiJtagState υ} {p : Pins} (h : FtdiJtag.At K c none p)
    (hlow : p.tms = false) {out : BitSequence} (hne : out ≠ []) (hlen : out.length < 512) : ∃ c',
      FtdiJtag.shiftRegister D C out false c = .ok (sample tdo p.history (dataEdges out)) c' ∧
        FtdiJtag.At K c' none (p.clock (dataEdges out)) ∧ c'.writeBuff = [] ∧
        (p.clock (dataEdges out)).tms = false := by
  obtain ⟨c', hc', hat', hflushed'⟩ := FtdiJtag.shiftRegister_at hC h hne (by omega)
  have htms := FtdiJtag.tms_clock p out
  have hedges : (out.map fun b => (⟨p.tms, b⟩ : Edge)) = dataEdges out := by rw [hlow, dataEdges]
  rw [hedges] at hc' hat' htms
  exact ⟨c', hc', hat', hflushed', htms.trans hlow⟩

/-- **`shift_register`**, from a capture or a shift state. -/
theorem shiftRegister_at (hC : FtdiJtag.Fits C) {s : EngineState (FtdiJtagState υ)} {t : TapState} {p : Pins}
    (h : At K s t p) {out : BitSequence} (hfit : EngineCall.Fits t (.shiftRegister out)) (hne : out ≠ []) : ∃ s',
      shiftRegister D C out s = .ok (EngineCall.answer tdo p.history t (.shiftRegister out)) s' ∧
        At K s' (EngineCall.leaves t (.shiftRegister out)) (p.clock (EngineCall.edges t (.shiftRegister out))) := by
  obtain ⟨rfl, hctrl, hflushed, hlow⟩ := h
  obtain ⟨hmem, hlen⟩ := hfit
  have hshift := JtagOCDEngine.isOf_shift hmem
  have hasRead (h : History) : asRead (sample tdo h (dataEdges out)) = sample tdo h (dataEdges out) :=
    asRead_eq (List.ne_nil_of_length_pos (by simpa using List.length_pos_of_ne_nil hne))
  by_cases hcap : JtagStateMachine.isOf .capture s.sm = true
  · obtain ⟨c, hc, hat, -⟩ := FtdiJtag.writeTms_at hC hctrl [false] (by decide)
    obtain ⟨c', hc', hat', hflushed', htms⟩ := shift_at hC hat rfl hne hlen
    rw [FtdiJtag.clock_clock] at hat' htms
    refine ⟨⟨JtagStateMachine.handleEvents s.sm [false], c'⟩, ?_, ?_, ?_, hflushed', fun _ => ?_⟩
    · have hanswer : EngineCall.answer tdo p.history s.sm (.shiftRegister out) =
          sample tdo (p.history ++ [⟨false, false⟩]) (dataEdges out) := by
        rw [EngineCall.answer, if_pos hcap, hasRead]
      rw [hanswer, shiftRegister, Prog.bind_ok (get_ok s), hshift]
      simp only [Bool.true_eq_false, if_false, hcap, if_true]
      have hevents : handleEvents [false] ⟨s.sm, c⟩ = .ok () ⟨JtagStateMachine.handleEvents s.sm [false], c⟩ := rfl
      rw [Prog.bind_ok (onCtrl_ok hc), Prog.bind_ok hevents]
      exact onCtrl_ok hc'
    · rw [EngineCall.leaves, if_pos hcap, ← JtagStateMachine.getx_eq]
      rfl
    · rw [EngineCall.edges, if_pos hcap]
      exact hat'
    · rw [EngineCall.edges, if_pos hcap]
      exact htms
  · have hlow' : p.tms = false := by
      have hall : ∀ t ∈ [TapState.captureDr, .shiftDr, .captureIr, .shiftIr],
          ¬ JtagStateMachine.isOf .capture t = true → t.Shifts := by decide
      exact hlow (hall s.sm hmem hcap)
    obtain ⟨c', hc', hat', hflushed', htms⟩ := shift_at hC hctrl hlow' hne hlen
    refine ⟨⟨s.sm, c'⟩, ?_, ?_, ?_, hflushed', fun _ => ?_⟩
    · have hanswer : EngineCall.answer tdo p.history s.sm (.shiftRegister out) =
          sample tdo p.history (dataEdges out) := by
        rw [EngineCall.answer, if_neg hcap, List.append_nil, hasRead]
      rw [hanswer, shiftRegister, Prog.bind_ok (get_ok s), hshift]
      simp only [Bool.true_eq_false, if_false, hcap, Bool.false_eq_true]
      exact onCtrl_ok hc'
    · rw [EngineCall.leaves, if_neg hcap]
    · rw [EngineCall.edges, if_neg hcap]
      exact hat'
    · rw [EngineCall.edges, if_neg hcap]
      exact htms

/-- TMS values, with which the port ends in no shift state. -/
theorem writeTms_at (hC : FtdiJtag.Fits C) {s : EngineState (FtdiJtagState υ)} {t : TapState} {p : Pins}
    (h : At K s t p) (tms : BitSequence) (hlen : tms.length < 8) : ∃ c,
      onCtrl (FtdiJtag.writeTms D C tms) s = .ok () ⟨t, c⟩ ∧
        FtdiJtag.At K c none (p.clock (moveEdges false tms)) ∧ c.writeBuff = [] := by
  obtain ⟨rfl, hctrl, hflushed, -⟩ := h
  obtain ⟨c, hc, hat, hbuff⟩ := FtdiJtag.writeTms_at hC hctrl tms hlen
  rw [Option.getD_none, ← moveEdges_false, ite_self] at hat
  exact ⟨c, onCtrl_ok hc, hat, hbuff (Or.inr hflushed)⟩

/-- **What a call does**: it clocks its edges, and returns what the other engine does. -/
theorem handler_at (hC : FtdiJtag.Fits C) {s : EngineState (FtdiJtagState υ)} {t : TapState} {p : Pins}
    (h : At K s t p) {o : JtagEngineCall} (ho : o.Fits t) : ∃ s',
      handler D C o s = .ok (o.result (o.onOcd.answer tdo p.history t)) s' ∧
        At K s' (o.onOcd.leaves t) (p.clock (o.edges t)) := by
  cases o with
  | changeState t' => exact changeState_at hC h ho.2
  | writeIr l => exact writeIr_at hC h ho.1
  | writeDr l => exact writeDr_at hC h ho.1
  | readDr n => exact readDr_at hC h ho.2.2 ho.2.1 ho.1
  | shiftRegister out => exact shiftRegister_at hC h ho.1 ho.2
  | writeTms tms =>
    obtain ⟨c, hc, hat, hbuff⟩ := writeTms_at hC h tms ho.2
    have hidle : ¬ t.Shifts := by
      rw [ho.1.1]
      decide
    exact ⟨⟨t, c⟩, hc, rfl, hat, hbuff, fun hshift => absurd hshift hidle⟩
  | reset =>
    obtain ⟨c, hc, hat, hbuff⟩ := writeTms_at hC h (List.replicate 5 true) (by decide)
    have hreset : ¬ TapState.testLogicReset.Shifts := by decide
    refine ⟨⟨.testLogicReset, c⟩, ?_, rfl, hat, hbuff, fun hshift => absurd hshift hreset⟩
    rw [handler, reset, FtdiJtag.reset, Prog.bind_ok hc]
    rfl

/-! ### With the tool -/

/-- The methods the tool uses. -/
def tool (D : UsbDev υ) (C : FtdiConfig) : ToolEngine FtdiFault (EngineState (FtdiJtagState υ)) where
  invalidState := .jtag .invalidState
  reset := reset D C
  stateOf mode s := JtagStateMachine.isOf mode s.sm
  writeTms tms := onCtrl (FtdiJtag.writeTms D C tms)
  handleEvents events := handleEvents events
  changeState statename := changeState D C statename
  readDr length := readDr D C length
  write out useLast := onCtrl (FtdiJtag.write D C out useLast)
  shiftRegister out := shiftRegister D C out

/-- Where an engine is for the tool: something may be stacked. -/
structure ToolAt (K : Mpsse D C.maxPacketSize tdo) (s : EngineState (FtdiJtagState υ)) (t : TapState) (p : Pins) : Prop where
  sm : s.sm = t
  ctrl : FtdiJtag.At K s.ctrl none p
  low : t.Shifts → p.tms = false

/-- In a shift state `shift_register` makes no move. -/
theorem shiftRegister_shifts (hC : FtdiJtag.Fits C) {s : EngineState (FtdiJtagState υ)} {t : TapState} {p : Pins}
    (h : ToolAt K s t p) (ht : t.Shifts) {out : BitSequence} (hne : out ≠ []) (hlen : out.length < 512) : ∃ s',
      shiftRegister D C out s = .ok (sample tdo p.history (dataEdges out)) s' ∧
        ToolAt K s' t (p.clock (dataEdges out)) := by
  obtain ⟨rfl, hctrl, hlow⟩ := h
  obtain ⟨hshift, hcapture⟩ := JtagOCDEngine.isOf_of_shifts ht
  obtain ⟨c, hc, hat, -, htms⟩ := shift_at hC hctrl (hlow ht) hne hlen
  refine ⟨⟨s.sm, c⟩, ?_, rfl, hat, fun _ => htms⟩
  rw [shiftRegister, Prog.bind_ok (get_ok s), hshift, hcapture]
  exact onCtrl_ok hc

/-- **The tool can rely on this engine too.** -/
def lawfulTool (hC : FtdiJtag.Fits C) (K : Mpsse D C.maxPacketSize tdo) : (tool D C).Lawful tdo where
  At s t h := ∃ p, ToolAt K s t p ∧ p.history = h
  Clear s t h := ∃ p, At K s t p ∧ p.history = h
  at_of_clear := by
    rintro s t h ⟨p, hp, rfl⟩
    exact ⟨p, ⟨hp.sm, hp.ctrl, hp.low⟩, rfl⟩
  reset := by
    rintro s t h ⟨p, hp, rfl⟩
    obtain ⟨c, hc, hat, hbuff⟩ := FtdiJtag.writeTms_at hC hp.ctrl (List.replicate 5 true) (by decide)
    rw [Option.getD_none, ← moveEdges_false, ite_self] at hat
    have hidle : ¬ TapState.testLogicReset.Shifts := by decide
    refine ⟨⟨.testLogicReset, c⟩, false, ?_, _,
      ⟨rfl, hat, hbuff (Or.inl (by decide)), fun hshift => absurd hshift hidle⟩, rfl⟩
    change reset D C s = _
    rw [reset, FtdiJtag.reset, Prog.bind_ok (onCtrl_ok hc)]
    rfl
  changeState := by
    rintro s t h ⟨p, hp, rfl⟩ t' hlen
    obtain ⟨s', h', hs'⟩ := changeState_at hC hp hlen
    exact ⟨s', h', _, hs', rfl⟩
  readDr := by
    rintro s t h ⟨p, hp, rfl⟩ ht n hpos hn
    obtain ⟨s', h', hs'⟩ := readDr_at hC hp ht hpos hn
    exact ⟨s', h', _, hs', rfl⟩
  stateOf := by
    rintro s t h ⟨p, hp, rfl⟩ mode
    exact congrArg (JtagStateMachine.isOf mode) hp.sm
  leave := by
    rintro s t h ⟨p, hp, rfl⟩ -
    obtain ⟨c, hc, hat, -⟩ := FtdiJtag.writeTms_at hC hp.ctrl [false] (by decide)
    refine ⟨_, ⟨JtagStateMachine.handleEvents s.sm [false], c⟩, false, onCtrl_ok hc, rfl, _,
      ⟨?_, hat, fun _ => rfl⟩, rfl⟩
    rw [hp.sm]
    exact JtagStateMachine.getx_eq t false
  write := by
    rintro s t h ⟨p, hp, rfl⟩ ht out hne hlen
    obtain ⟨c, hc, hat⟩ := FtdiJtag.write_at hC hp.ctrl out false (by simp) (by omega)
    have hedges : ((Wire.now out false).map fun b => (⟨p.tms, b⟩ : Edge)) = dataEdges out := by rw [hp.low ht]; rfl
    have htms := FtdiJtag.tms_clock p out
    rw [hedges] at hat
    refine ⟨⟨s.sm, c⟩, onCtrl_ok hc, _, ⟨hp.sm, hat, fun _ => ?_⟩, rfl⟩
    rw [← hedges]
    exact htms.trans (hp.low ht)
  shiftRegister := by
    rintro s t h ⟨p, hp, rfl⟩ ht out hne hlen
    obtain ⟨s', h', hs'⟩ := shiftRegister_shifts hC hp ht hne hlen
    exact ⟨s', h', _, hs', rfl⟩

end JtagEngine

/-! ### The two engines on one target -/

section
variable {δ : Type} {M : Machine δ}

/-- What a call returns is decided by the state the target is in. -/
theorem EngineCall.answer_congr {d : δ} {h h' : History} (hrun : M.run d h = M.run d h') (t : TapState) (o : EngineCall) :
    o.answer (M.shows d) h t = o.answer (M.shows d) h' t := by
  have hsample (es₁ es₂ : List Edge) : sample (M.shows d) (h ++ es₁) es₂ = sample (M.shows d) (h' ++ es₁) es₂ := by
    rw [Machine.sample_shows, Machine.sample_shows, Machine.run_append, Machine.run_append, hrun]
  cases o with
  | readDr n => simp only [answer, hsample]
  | readwriteDr out => simp only [answer, hsample]
  | shiftRegister out => simp only [answer, hsample]
  | _ => rfl

/-- **The target cannot tell** from which engine the edges of a call come. -/
theorem JtagEngineCall.run_edges (T : M.Tap) {d : δ} {t : TapState} (hd : T.state d = t) (o : JtagEngineCall) :
    M.run d (o.edges t) = M.run d (o.onOcd.edges t) := by
  have hscan {t' : TapState} (ht' : t'.Shifts) (l : BitSequence) :
      M.run d (moveEdges false (events t t') ++ (bitEdges l ++ [⟨true, l.getLast?.getD false⟩])) =
        M.run d (scanFrom t t' l) := by
    have hshift : (T.state (M.run d (moveEdges false (events t t')))).Shifts := by
      rw [T.state_run, hd, after_moves]
      exact ht'
    rw [scanFrom, M.run_append d, M.run_append d, T.run_scan hshift]
  cases o with
  | writeIr l => exact hscan (Or.inr rfl) l
  | writeDr l => exact hscan (Or.inl rfl) l
  | _ => rfl

variable {υ σ : Type} {D : UsbDev υ} {C : FtdiConfig} {Ctrl : Controller σ} {d : δ}

/-- Both engines, between calls, in front of a target that was in `d` at the start. -/
def BothAt (T : M.Tap) (K : Mpsse D C.maxPacketSize (M.shows d)) (L : Ctrl.Lawful (M.shows d)) (t : TapState)
    (s : EngineState (FtdiJtagState υ)) (s' : EngineState σ) : Prop :=
  ∃ p h, JtagEngine.At K s t p ∧ JtagOCDEngine.At L s' t ⟨none, h⟩ ∧ M.run d p.history = M.run d h ∧
    T.state (M.run d h) = t

variable {T : M.Tap} {K : Mpsse D C.maxPacketSize (M.shows d)} {L : Ctrl.Lawful (M.shows d)}

/-- A call on both. -/
theorem BothAt.handler (hC : FtdiJtag.Fits C) {t : TapState} {s : EngineState (FtdiJtagState υ)} {s' : EngineState σ}
    (h : BothAt T K L t s s') {o : JtagEngineCall} (ho : o.Fits t) : ∃ r s₁ s₁',
      JtagEngine.handler D C o s = .ok (o.result r) s₁ ∧ JtagOCDEngine.handler Ctrl o.onOcd s' = .ok r s₁' ∧
        BothAt T K L (o.onOcd.leaves t) s₁ s₁' := by
  obtain ⟨p, w, hp, hw, hrun, hstate⟩ := h
  obtain ⟨s₁, h₁, hp₁⟩ := JtagEngine.handler_at hC hp ho
  obtain ⟨s₁', h₁', hw₁⟩ := JtagOCDEngine.handler_eq hw ho.1
  rw [EngineCall.answer_congr hrun] at h₁
  refine ⟨_, s₁, s₁', h₁, h₁', _, _, hp₁, hw₁, ?_, ?_⟩
  · change M.run d (p.history ++ o.edges t) = _
    rw [Machine.run_append, Machine.run_append, hrun, o.run_edges T hstate]
  · rw [Machine.run_append, T.state_run, hstate, EngineCall.after_edges ho.1]

theorem BothAt.exec (hC : FtdiJtag.Fits C) {α : Type} {q : Prog JtagEngine α} {t : TapState} {Q : α → TapState → Prop}
    {s : EngineState (FtdiJtagState υ)} {s' : EngineState σ} (h : BothAt T K L t s s')
    (hq : q.Follows (fun t (o : JtagEngineCall) => o.Fits t) (fun t (o : JtagEngineCall) => o.onOcd.leaves t) t Q) :
    ∃ a t₁ s₁ s₁', q.exec (JtagEngine.handler D C) s = .ok a s₁ ∧
      (JtagEngine.onOcd q).exec (JtagOCDEngine.handler Ctrl) s' = .ok a s₁' ∧ BothAt T K L t₁ s₁ s₁' ∧ Q a t₁ := by
  induction q generalizing t s s' with
  | done a => exact ⟨a, t, s, s', rfl, rfl, h, hq⟩
  | call o k ih =>
    obtain ⟨r, s₁, s₁', h₁, h₁', hboth⟩ := h.handler hC hq.1
    obtain ⟨a, t₂, s₂, s₂', h₂, h₂', hboth₂, hQ⟩ := ih (o.result r) hboth (hq.2 _)
    refine ⟨a, t₂, s₂, s₂', ?_, ?_, hboth₂, hQ⟩
    · rw [Prog.exec, Prog.bind_ok h₁, h₂]
    · rw [JtagEngine.onOcd, Prog.exec, Prog.bind_ok h₁', h₂']

/-- **The two engines agree**: a program made of the calls they have in common returns the same
on both, and leaves the target and the picture that the engine has of it the same, whatever
lawful controller there is in the other, and whatever the target is behind its port. -/
theorem JtagEngine.agrees (hC : FtdiJtag.Fits C) {α : Type} {q : Prog JtagEngine α} {Q : α → TapState → Prop}
    (T : M.Tap) (K : Mpsse D C.maxPacketSize (M.shows d)) (L : Ctrl.Lawful (M.shows d)) (hd : T.state d = .testLogicReset)
    {u : υ} (hu : K.sent u = []) {s' : EngineState σ} (hs' : JtagOCDEngine.At L s' .testLogicReset ⟨none, []⟩)
    (hq : q.Follows (fun t (o : JtagEngineCall) => o.Fits t) (fun t (o : JtagEngineCall) => o.onOcd.leaves t)
      .testLogicReset Q) :
    ∃ a t s₁ s₁', q.exec (JtagEngine.handler D C) (JtagEngine.fresh u) = .ok a s₁ ∧
      (JtagEngine.onOcd q).exec (JtagOCDEngine.handler Ctrl) s' = .ok a s₁' ∧ Q a t ∧ s₁.sm = t ∧ s₁'.sm = t ∧
        M.run d (K.history s₁.ctrl.ftdi.usbDev) = M.run d (L.wire s₁'.ctrl).history := by
  obtain ⟨a, t, s₁, s₁', h₁, h₁', ⟨p, h, hp, hw, hrun, -⟩, hQ⟩ :=
    BothAt.exec (T := T) hC ⟨_, _, JtagEngine.fresh_at hu .testLogicReset, hs', rfl, hd⟩ hq
  refine ⟨a, t, s₁, s₁', h₁, h₁', hQ, hp.sm, hw.sm, ?_⟩
  rw [hp.ctrl.history hp.flushed, hw.wire, hrun]

/-- A register of three bits is written and read. -/
theorem JtagEngine.agrees_register : ∃ a t s₁ s₁',
    (Prog.call .reset fun _ => .call (.writeDr [true, false, true]) fun _ => .call (.readDr 3) .done :
        Prog JtagEngine BitSequence).exec
      (JtagEngine.handler (MpsseDevice.usb ((dataRegister (id : ShiftReg 3 → ShiftReg 3)).machine.shows
        (.testLogicReset, ShiftReg.ofNat 3 0)) (fun _ => 0) 64) ⟨64, 64, 64⟩)
      (JtagEngine.fresh MpsseDevice.fresh) = .ok a s₁ ∧
    (JtagEngine.onOcd (.call .reset fun _ => .call (.writeDr [true, false, true]) fun _ => .call (.readDr 3) .done :
        Prog JtagEngine BitSequence)).exec
      (JtagOCDEngine.handler (JtagSimController.controller ((dataRegister (id : ShiftReg 3 → ShiftReg 3)).machine.shows
        (.testLogicReset, ShiftReg.ofNat 3 0)))) ⟨.testLogicReset, ⟨none, []⟩⟩ = .ok a s₁' ∧
    s₁.sm = t ∧ s₁'.sm = t := by
  obtain ⟨a, t, s₁, s₁', h₁, h₁', -, hsm, hsm', -⟩ := JtagEngine.agrees (C := ⟨64, 64, 64⟩) (Q := fun _ _ => True)
    ⟨by decide, by decide⟩ (dataRegister (id : ShiftReg 3 → ShiftReg 3)).tap
    (MpsseDevice.mpsse _ (fun _ => 0) (by decide)) (JtagSimController.lawful _) (d := (.testLogicReset, ShiftReg.ofNat 3 0))
    rfl (u := MpsseDevice.fresh) rfl (show JtagOCDEngine.At _ ⟨.testLogicReset, ⟨none, []⟩⟩ _ _ from ⟨trivial, rfl, rfl⟩)
    (q := .call .reset fun _ => .call (.writeDr [true, false, true]) fun _ => .call (.readDr 3) .done)
    ⟨⟨trivial, trivial⟩, fun _ => ⟨⟨⟨by simp, by decide⟩, trivial⟩, fun _ => ⟨⟨(by decide : 3 < 512), by decide, by decide⟩,
      fun _ => trivial⟩⟩⟩
  exact ⟨a, t, s₁, s₁', h₁, h₁', hsm, hsm'⟩

end

end PyOcdRiscv.Jtag
