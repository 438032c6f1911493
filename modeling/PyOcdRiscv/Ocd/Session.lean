import PyOcdRiscv.Jtag.Blaster
import PyOcdRiscv.Jtag.Clocked
import PyOcdRiscv.Jtag.Sim
import PyOcdRiscv.Ocd.Command
import PyOcdRiscv.Ocd.Dmi
import PyOcdRiscv.Ocd.Protocol

/-!
# Sessions on an engine

A client calls methods of the engine and of the four drivers, in any order. The drivers
write TMS cycles behind the state machine's back (`write_tms`), which is right because
they are cycles of Run-Test/Idle made in Run-Test/Idle. `Fitting` is the protocol that
says so, call by call; every method of every driver keeps to it.

`in_step` is what it is for: throughout a session that begins with `reset`, whatever
state the port was in, the state machine is in the port's state after each call, and
each bit of a scan is clocked in its shift state.
-/

namespace PyOcdRiscv.Ocd

open Lib Jtag

/-! ### Programs that fit -/

/-- A program whose calls fit where they are made, from state `s` of the state machine. -/
def Fitting {α : Type} (p : Prog Engine α) (s : TapState) (Q : α → TapState → Prop) : Prop :=
  Prog.Follows (fun s (o : EngineCall) => o.Fits s) (fun s (o : EngineCall) => o.leaves s) p s Q

namespace Fitting

variable {α β : Type} {s : TapState}

@[simp] theorem pure_iff {a : α} {Q : α → TapState → Prop} : Fitting (pure a) s Q ↔ Q a s := Iff.rfl

@[simp] theorem bind_iff {p : Prog Engine α} {f : α → Prog Engine β} {Q : β → TapState → Prop} :
    Fitting (p >>= f) s Q ↔ Fitting p s fun a s => Fitting (f a) s Q :=
  Prog.follows_bind p f s Q

@[simp] theorem changeState_iff {t : TapState} {Q : Unit → TapState → Prop} :
    Fitting (Engine.changeState t) s Q ↔ Q () t :=
  ⟨fun h => h.2 (), fun h => ⟨trivial, fun _ => h⟩⟩

@[simp] theorem goIdle_iff {Q : Unit → TapState → Prop} :
    Fitting Engine.goIdle s Q ↔ Q () .runTestIdle := changeState_iff

@[simp] theorem captureIr_iff {Q : Unit → TapState → Prop} :
    Fitting Engine.captureIr s Q ↔ Q () .captureIr := changeState_iff

@[simp] theorem writeIr_iff {l : BitSequence} {Q : Unit → TapState → Prop} :
    Fitting (Engine.writeIr l) s Q ↔ (l ≠ [] ∧ l.length < 512) ∧ Q () .updateIr :=
  and_congr_right fun _ => ⟨fun h => h (), fun h _ => h⟩

@[simp] theorem writeDr_iff {l : BitSequence} {Q : Unit → TapState → Prop} :
    Fitting (Engine.writeDr l) s Q ↔ (l ≠ [] ∧ l.length < 512) ∧ Q () .updateDr :=
  and_congr_right fun _ => ⟨fun h => h (), fun h _ => h⟩

@[simp] theorem readDr_iff {n : ℕ} {Q : BitSequence → TapState → Prop} :
    Fitting (Engine.readDr n) s Q ↔ n < 512 ∧ ∀ r, Q r .updateDr := Iff.rfl

@[simp] theorem readwriteDr_iff {l : BitSequence} {Q : ℕ → TapState → Prop} :
    Fitting (Engine.readwriteDr l) s Q ↔ (l ≠ [] ∧ l.length < 512) ∧ ∀ r, Q r .updateDr := Iff.rfl

@[simp] theorem writeVir_iff {l : BitSequence} {Q : Unit → TapState → Prop} :
    Fitting (Engine.writeVir l) s Q ↔ l.length < 512 ∧ Q () .updateIr :=
  and_congr_right fun _ => ⟨fun h => h (), fun h _ => h⟩

/-- A number written in a length has that many bits. -/
theorem ofInt_ok {n : ℕ} (hn : 0 < n) (hlt : n < 512) (v : ℕ) :
    BitSequence.ofInt v false n ≠ [] ∧ (BitSequence.ofInt v false n).length < 512 := by
  rw [BitSequence.ofInt_eq hn, length_bits]
  exact ⟨bits_ne_nil hn v, hlt⟩

/-- The number 0 is all zeros, of one bit at least. -/
theorem ofInt_zero (k : ℕ) : ∃ m, BitSequence.ofInt 0 false k = List.replicate m false := by
  by_cases hk : k = 0
  · exact ⟨1, by rw [hk]; rfl⟩
  · exact ⟨k, by rw [BitSequence.ofInt_eq (Nat.pos_of_ne_zero hk), bits_of_zero]⟩

/-- TMS cycles in Run-Test/Idle. -/
theorem writeTms_zeros (n : ℕ) :
    EngineCall.Fits .runTestIdle (.writeTms (List.replicate n false) false) :=
  ⟨rfl, rfl, by rw [List.length_replicate]⟩

theorem idleCycles (n k : ℕ) {Q : Unit → TapState → Prop} (hQ : Q () .runTestIdle) :
    Fitting (Engine.idleCycles n k) .runTestIdle Q := by
  obtain ⟨m, hm⟩ := ofInt_zero k
  induction n with
  | zero => exact hQ
  | succ n ih =>
    refine ⟨?_, fun _ => ih⟩
    rw [hm]
    exact writeTms_zeros m

end Fitting

/-! ### The drivers -/

/-- What the drivers of a session are made with: an instruction register that can be
scanned, the attribute `virtual` of the controller, and the core. -/
structure Setup where
  /-- `irlen`. -/
  irlen : ℕ
  /-- `engine._ctrl.virtual`, if the controller has the attribute. -/
  virtual : Option Bool
  /-- `corenr`, of a `SaxonOCD`. -/
  corenr : ℕ
  irlen_pos : 0 < irlen
  irlen_lt : irlen < 512

/-- A `MuraxOCD`, or the port of a `SaxonOCD`. -/
def Setup.port (u : Setup) : DebugPort := ⟨u.irlen, u.virtual.getD false⟩

/-- The attributes of the drivers that change. -/
structure Objects where
  /-- The `PulpOCD`. -/
  pulp : PulpOCD
  /-- Its `currentir`. -/
  pulpIr : Option ℕ
  /-- The `ReveOCD`. -/
  reve : ReveOCD
  /-- Its `currentir`. -/
  reveIr : Option ℕ

/-- The drivers as `__init__` leaves them. -/
def Objects.init : Objects := ⟨PulpOCD.init, none, ReveOCD.init, none⟩

/-- A call of the client. -/
inductive SessionOp where
  | engine (o : EngineCall)
  | murax (op : DebugOCD.Op)
  | saxon (op : DebugOCD.Op)
  | pulp (op : PulpOCD.Op)
  | reve (op : ReveOCD.Op)

/-- A call on the debug-bus drivers, written out. -/
def debugProg (call : (o : DebugCall) → Prog Engine (DebugBus.Res o)) (op : DebugOCD.Op) :
    Prog Engine (Option ℕ × Unit) :=
  Prog.lower (fun o _ => do return (← call o, ())) (DebugOCD.exec DebugOCD.init op) ()

/-- What a call of the client comes to on the engine, with the attributes it leaves. -/
def SessionOp.prog (u : Setup) (d : Objects) : SessionOp → Prog Engine Objects
  | .engine o => do
    let _ ← Prog.op (I := Engine) o
    return d
  | .murax op => do
    let _ ← debugProg (MuraxOCD.call u.port) op
    return d
  | .saxon op => do
    let _ ← debugProg (SaxonOCD.call (SaxonOCD.init u.port u.corenr)) op
    return d
  | .pulp op => do
    let r ← Prog.lower (PulpOCD.dmi u.irlen u.virtual).call (PulpOCD.exec d.pulp op) d.pulpIr
    return { d with pulp := r.1.2, pulpIr := r.2 }
  | .reve op => do
    let r ← Prog.lower (ReveOCD.dmi u.irlen u.virtual).call (ReveOCD.exec d.reve op) d.reveIr
    return { d with reve := r.1.2, reveIr := r.2 }

/-- The calls a client may make in state `s` of the state machine: all those of the
drivers, and of the engine those that fit and that are not TMS cycles of its own. -/
def SessionOp.Admitted (s : TapState) : SessionOp → Prop
  | .engine (.writeTms _ _) => False
  | .engine o => o.Fits s
  | _ => True

section
variable (u : Setup) (s : TapState)

theorem fitting_sendCommand (adr data : ℤ) (size write : ℕ) {Q : Unit → TapState → Prop}
    (hQ : ∀ s, Q () s) : Fitting (u.port.sendCommand adr data size write) s Q := by
  have hframe (virtual : Bool) : commandFrame virtual adr data size write ≠ [] ∧
      (commandFrame virtual adr data size write).length < 512 := by
    rw [commandFrame]
    split_ifs
    · exact Fitting.ofInt_ok (by decide) (by decide) _
    · exact Fitting.ofInt_ok (by decide) (by decide) _
  rw [DebugPort.sendCommand]
  split_ifs
  · exact Fitting.writeDr_iff.mpr ⟨hframe true, hQ _⟩
  · rw [Fitting.bind_iff, Fitting.writeIr_iff, Fitting.writeDr_iff]
    exact ⟨Fitting.ofInt_ok u.irlen_pos u.irlen_lt 2, hframe false, hQ _⟩

theorem fitting_readResponse {Q : ℕ → TapState → Prop} (hQ : ∀ r s, Q r s) :
    Fitting u.port.readResponse s Q := by
  rw [DebugPort.readResponse]
  split_ifs
  · rw [Fitting.bind_iff, Fitting.readwriteDr_iff]
    exact ⟨Fitting.ofInt_ok (by decide) (by decide) 1, fun r => hQ _ _⟩
  · rw [Fitting.bind_iff, Fitting.writeIr_iff, Fitting.bind_iff, Fitting.readDr_iff]
    exact ⟨Fitting.ofInt_ok u.irlen_pos u.irlen_lt 3, by decide, fun r => hQ _ _⟩

theorem fitting_resetdm {Q : Unit → TapState → Prop} (hQ : ∀ s, Q () s) :
    Fitting u.port.resetdm s Q := by
  rw [DebugPort.resetdm]
  split_ifs
  · simp only [Fitting.bind_iff, Fitting.goIdle_iff, Fitting.captureIr_iff, Fitting.writeVir_iff]
    exact ⟨by decide, hQ _⟩
  · exact hQ s

/-- A method of a debug-bus driver fits if what its calls are written as does. -/
theorem fitting_lower {call : (o : DebugCall) → Prog Engine (DebugBus.Res o)}
    (hcall : ∀ o s, Fitting (call o) s fun _ _ => True) {α : Type} (p : Prog DebugBus α) :
    Fitting (Prog.lower (fun o _ => do return (← call o, ())) p ()) s fun _ _ => True := by
  have hany : Prog.Follows (fun _ _ => True) (fun _ _ => ()) p () fun _ _ => True := by
    induction p with
    | done a => trivial
    | call o k ih => exact ⟨trivial, ih⟩
  refine (Prog.Follows.lower (R := fun _ _ _ => True) ?_ hany trivial).mono fun _ _ _ => trivial
  intro o t v s _ _
  rw [Prog.follows_bind]
  exact (hcall o s).mono fun r s' _ => trivial

theorem fitting_debugProg {call : (o : DebugCall) → Prog Engine (DebugBus.Res o)}
    (hcall : ∀ o s, Fitting (call o) s fun _ _ => True) (op : DebugOCD.Op) :
    Fitting (debugProg call op) s fun _ _ => True := fitting_lower s hcall _

theorem fitting_murax (o : DebugCall) : Fitting (MuraxOCD.call u.port o) s fun _ _ => True := by
  cases o with
  | writecmd adr data size write => exact fitting_sendCommand u s _ _ _ _ fun _ => trivial
  | readrsp adr =>
    rw [MuraxOCD.call, MuraxOCD.readrsp, Fitting.bind_iff]
    exact fitting_sendCommand u s _ _ _ _ fun s' => fitting_readResponse u s' fun _ _ => trivial
  | resetdm => exact fitting_resetdm u s fun _ => trivial

theorem fitting_saxon (o : DebugCall) :
    Fitting (SaxonOCD.call (SaxonOCD.init u.port u.corenr) o) s fun _ _ => True := by
  cases o with
  | writecmd adr data size write => exact fitting_sendCommand u s _ _ _ _ fun _ => trivial
  | readrsp adr =>
    rw [SaxonOCD.call, SaxonOCD.readrsp, Fitting.bind_iff]
    exact fitting_sendCommand u s _ _ _ _ fun s' => fitting_readResponse u s' fun _ _ => trivial
  | resetdm => exact fitting_resetdm u s fun _ => trivial

end

/-! ### Requests -/

namespace Dmi

/-- Registers that can be scanned. -/
structure Scannable (dmi : Dmi) : Prop where
  irlen_pos : 0 < dmi.irlen
  irlen_lt : dmi.irlen < 512
  width_pos : 0 < dmi.width
  width_lt : dmi.width < 512

variable {dmi : Dmi} (h : dmi.Scannable) {s : TapState}
include h

theorem Scannable.selectIr (ir : ℕ) (currentir : Option ℕ) {Q : Option ℕ → TapState → Prop}
    (hQ : ∀ s, Q (some ir) s) : Fitting (dmi.selectIr ir currentir) s Q := by
  have hok := Fitting.ofInt_ok h.irlen_pos h.irlen_lt ir
  rw [Dmi.selectIr]
  split_ifs with hne
  · rw [Fitting.bind_iff, Dmi.writeIr]
    split_ifs
    · exact Fitting.writeVir_iff.mpr ⟨hok.2, hQ _⟩
    · exact Fitting.writeIr_iff.mpr ⟨hok, hQ _⟩
  · rw [not_not] at hne
    rw [hne]
    exact hQ s

/-- **A call from the upper layer** that is in order fits: after a move to Run-Test/Idle
the state machine is there. -/
theorem Scannable.call {adrs : List ℤ} {t : Rest} {o : ApbCall} (ho : t.Allows adrs o)
    (ht : t.idle = true → s = .runTestIdle) (currentir : Option ℕ) :
    Fitting (dmi.call o currentir) s fun _ s' => (t.next o).idle = true → s' = .runTestIdle := by
  have hwidth (v : ℕ) := Fitting.ofInt_ok h.width_pos h.width_lt v
  cases o with
  | writeapb adr data =>
    simp only [Dmi.call, Dmi.writeapb, Fitting.bind_iff]
    refine h.selectIr 0x11 currentir fun s' => ?_
    rw [Fitting.writeDr_iff]
    refine ⟨hwidth _, ?_⟩
    cases dmi.writeIdle with
    | none => exact fun hf => absurd hf (by simp [Rest.next])
    | some nk =>
      dsimp only
      rw [Fitting.bind_iff, Fitting.goIdle_iff, Fitting.bind_iff]
      refine Fitting.idleCycles _ _ ?_
      exact fun _ => rfl
  | readapb adr =>
    simp only [Dmi.call, Dmi.readapb, Fitting.bind_iff]
    refine h.selectIr 0x11 currentir fun s' => ?_
    rw [Fitting.writeDr_iff, Fitting.goIdle_iff]
    refine ⟨hwidth _, Fitting.idleCycles _ _ ?_⟩
    rw [Fitting.readDr_iff]
    exact ⟨h.width_lt, fun r hf => absurd hf (by simp [Rest.next])⟩
  | selectIr ir =>
    simp only [Dmi.call, Fitting.bind_iff]
    exact h.selectIr ir currentir fun s' hf => absurd hf (by simp [Rest.next])
  | writeDr data =>
    simp only [Dmi.call, Fitting.bind_iff, Fitting.writeDr_iff]
    have hlen : data.length = 32 := ho.2
    refine ⟨⟨List.ne_nil_of_length_pos (by omega), by omega⟩, fun hf => absurd hf (by simp [Rest.next])⟩
  | goIdle =>
    simp only [Dmi.call, Fitting.bind_iff, Fitting.goIdle_iff]
    exact fun _ => rfl
  | writeTms out =>
    obtain ⟨hidle, k, rfl⟩ := ho
    obtain rfl := ht hidle
    exact ⟨Fitting.writeTms_zeros (k + 1), fun _ _ => rfl⟩

/-- A method of a driver, written out. -/
theorem Scannable.prog {α : Type} {adrs : List ℤ} {p : Prog Apb α}
    (hp : ∀ t, InOrder adrs p t fun _ _ => True) (currentir : Option ℕ) :
    Fitting (Prog.lower dmi.call p currentir) s fun _ _ => True := by
  refine (Prog.Follows.lower (R := fun t (_ : Option ℕ) s => t.idle = true → s = .runTestIdle) ?_
    (hp ⟨none, false⟩) (fun hf => absurd hf (by decide))).mono fun _ _ _ => trivial
  intro o t currentir s ht ho
  exact h.call ho ht currentir

end Dmi

/-- **Every call of a session fits.** -/
theorem SessionOp.fitting (u : Setup) (d : Objects) {s : TapState} {op : SessionOp}
    (hop : op.Admitted s) : Fitting (op.prog u d) s fun _ _ => True := by
  cases op with
  | engine o =>
    refine ⟨?_, fun _ => trivial⟩
    cases o with
    | writeTms out shouldRead => exact hop.elim
    | _ => exact hop
  | murax op =>
    rw [prog, Fitting.bind_iff]
    exact fitting_debugProg s (fun o s => fitting_murax u s o) op
  | saxon op =>
    rw [prog, Fitting.bind_iff]
    exact fitting_debugProg s (fun o s => fitting_saxon u s o) op
  | pulp op =>
    rw [prog, Fitting.bind_iff]
    exact Dmi.Scannable.prog ⟨u.irlen_pos, u.irlen_lt, (by decide : 0 < 41), (by decide : 41 < 512)⟩
      (PulpOCD.inOrder_exec d.pulp op) d.pulpIr
  | reve op =>
    rw [prog, Fitting.bind_iff]
    exact Dmi.Scannable.prog ⟨u.irlen_pos, u.irlen_lt, (by decide : 0 < 50), (by decide : 50 < 512)⟩
      (ReveOCD.inOrder_exec d.reve op) d.reveIr

/-! ### Sessions -/

section
variable {σ : Type} (C : Controller σ) (history : σ → History) (t₀ : TapState)

/-- The state machine is in the state of a port that was in `t₀` before the first edge. -/
def Tracks (s : EngineState σ) : Prop := s.sm = t₀.after (history s.ctrl)

/-- A call that leaves the state machine in the port's state, and clocks each bit of its
scans in their shift states. -/
def CallInStep (o : EngineCall) (s s' : EngineState σ) : Prop :=
  (∃ es, history s'.ctrl = history s.ctrl ++ es ∧
    Clocked (t₀.after (history s.ctrl)) es (o.scans (t₀.after (history s.ctrl)))) ∧
  Tracks history t₀ s'

/-- A session: as long as the client's calls are admitted they succeed, each call they
make on the engine is in step, and so is the engine after them. -/
def InStep (u : Setup) : List SessionOp → Objects → EngineState σ → Prop
  | [], _, _ => True
  | op :: ops, d, s => op.Admitted s.sm →
    Prog.Steps (JtagOCDEngine.handler C) (CallInStep history t₀) (op.prog u d) s
      fun d' s' => Tracks history t₀ s' ∧ InStep u ops d' s'

/-- A session that begins with `engine.reset()` on a new engine. -/
def InStepFromReset (u : Setup) (c : σ) (ops : List SessionOp) : Prop :=
  ∃ s, JtagOCDEngine.reset C ⟨.testLogicReset, c⟩ = .ok () s ∧ Tracks history t₀ s ∧
    InStep C history t₀ u ops Objects.init s

variable {C history} {tdo : History → Bool} {L : C.Lawful tdo}

/-- A call that fits is in step, from an engine that is. -/
theorem call_inStep (hL : ∀ c, history c = (L.wire c).history) {h : History} {s : EngineState σ}
    (hs : JtagOCDEngine.At L s (t₀.after h) ⟨none, h⟩) {o : EngineCall} (ho : o.Fits (t₀.after h)) :
    ∃ r s', JtagOCDEngine.handler C o s = .ok r s' ∧ CallInStep history t₀ o s s' ∧
      ∃ h', JtagOCDEngine.At L s' (t₀.after h') ⟨none, h'⟩ ∧ t₀.after h' = o.leaves (t₀.after h) := by
  obtain ⟨s', hrun, hs'⟩ := JtagOCDEngine.handler_eq hs ho
  have hafter : t₀.after (h ++ o.edges (t₀.after h)) = o.leaves (t₀.after h) := by
    rw [TapState.after_append, EngineCall.after_edges ho]
  have hh : history s.ctrl = h := by rw [hL, hs.wire]
  have hh' : history s'.ctrl = h ++ o.edges (t₀.after h) := by rw [hL, hs'.wire]
  refine ⟨_, s', hrun, ⟨⟨o.edges (t₀.after h), ?_, ?_⟩, ?_⟩, _, ?_, hafter⟩
  · rw [hh', hh]
  · rw [hh]
    exact EngineCall.clocked_edges ho
  · rw [Tracks, hh', hafter]
    exact hs'.sm
  · rw [hafter]
    exact hs'

/-- A program that fits is in step, call by call. -/
theorem Fitting.steps (hL : ∀ c, history c = (L.wire c).history) {α : Type} {p : Prog Engine α}
    {h : History} {s : EngineState σ} (hp : Fitting p (t₀.after h) fun _ _ => True)
    (hs : JtagOCDEngine.At L s (t₀.after h) ⟨none, h⟩) :
    Prog.Steps (JtagOCDEngine.handler C) (CallInStep history t₀) p s fun _ s' =>
      ∃ h', JtagOCDEngine.At L s' (t₀.after h') ⟨none, h'⟩ := by
  refine (Prog.Follows.steps
    (R := fun t s => ∃ h, t = t₀.after h ∧ JtagOCDEngine.At L s (t₀.after h) ⟨none, h⟩) ?_ hp
    ⟨h, rfl, hs⟩).mono ?_
  · rintro o t s ⟨h, rfl, hs⟩ ho
    obtain ⟨r, s', hrun, hstep, h', hs', hleaves⟩ := call_inStep t₀ hL hs ho
    exact ⟨r, s', hrun, hstep, h', hleaves.symm, hs'⟩
  · rintro a s' ⟨t, ⟨h', -, hs'⟩, -⟩
    exact ⟨h', hs'⟩

theorem inStep_of_at (hL : ∀ c, history c = (L.wire c).history) (u : Setup) (ops : List SessionOp)
    (d : Objects) {h : History} {s : EngineState σ}
    (hs : JtagOCDEngine.At L s (t₀.after h) ⟨none, h⟩) : InStep C history t₀ u ops d s := by
  induction ops generalizing d h s with
  | nil => trivial
  | cons op ops ih =>
    intro hop
    rw [hs.sm] at hop
    refine (Fitting.steps t₀ hL (SessionOp.fitting u d hop) hs).mono ?_
    rintro d' s' ⟨h', hs'⟩
    refine ⟨?_, ih d' hs'⟩
    rw [Tracks, hL, hs'.wire]
    exact hs'.sm

theorem inStep_of_lawful (hL : ∀ c, history c = (L.wire c).history) (u : Setup) {c : σ} (hc : L.Rest c)
    (ops : List SessionOp) : InStepFromReset C history t₀ u c ops := by
  obtain ⟨s, hrun, hs⟩ := JtagOCDEngine.reset_eq (L := L) (s := ⟨.testLogicReset, c⟩) ⟨hc, rfl, rfl⟩
  have hreset (h : History) (b : Bool) :
      t₀.after (h ++ moveEdges b (List.replicate 5 true)) = .testLogicReset := by
    rw [TapState.after_append]
    exact TapState.after_reset _ _ rfl
  rw [← hreset (L.wire c).history (L.wire c).tdi] at hs
  refine ⟨s, hrun, ?_, inStep_of_at t₀ hL u ops Objects.init hs⟩
  rw [Tracks, hL, hs.wire]
  exact hs.sm

end

/-- **The engine is in step with the port**: on either controller, for every target,
whatever state its port is in at the start, and throughout every session. -/
theorem in_step (u : Setup) (tdo : History → Bool) (t₀ : TapState) (ops : List SessionOp) :
    InStepFromReset (JtagSimController.controller tdo) Wire.history t₀ u ⟨none, []⟩ ops ∧
      InStepFromReset (Blaster.controller tdo) (fun s => s.cable.history) t₀ u
        ⟨⟨false, false, [], [], 0, false⟩, none⟩ ops :=
  ⟨inStep_of_lawful (L := JtagSimController.lawful tdo) t₀ (fun _ => rfl) u trivial ops,
    inStep_of_lawful (L := Blaster.lawful tdo) t₀ (fun _ => rfl) u ⟨rfl, rfl⟩ ops⟩

end PyOcdRiscv.Ocd
