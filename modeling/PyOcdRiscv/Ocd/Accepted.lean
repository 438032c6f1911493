import PyOcdRiscv.Ocd.Requests
import PyOcdRiscv.Target.ReveTap

/-!
# When a request is taken

The TAP of the Reve target takes a request at the edge that leaves Update-DR. `writeapb` of
`PulpOCD` goes to Run-Test/Idle after its scan; that of `ReveOCD` does not, and leaves the
port in Update-DR. So its last write waits for an edge, and when the session ends there is
none. `resetdm` ends with a move and the reads with a scan that is no request: after these
nothing waits (`Tied`).

That is so on a controller without an attribute `virtual`. With one, whatever its value, the
sequence for the hub leaves 0 in the instruction register of this TAP, and no request is
taken (`Deaf`). `allAccepted_iff` says for both when every write is accepted.
-/

namespace PyOcdRiscv.Ocd

open Lib Jtag Target

open JtagStateMachine (events)

/-! ### Programs by their edges -/

section
variable {δ : Type} (P : Port δ)

/-- A program of calls that fit, with what their edges do to a device behind the port. -/
def OnEdges {α : Type} (p : Prog Engine α) (s : TapState × δ) (Q : α → TapState × δ → Prop) : Prop :=
  Prog.Follows (fun s (o : EngineCall) => o.Fits s.1) (fun s (o : EngineCall) => P.machine.run s (o.edges s.1)) p s Q

variable {P}

theorem OnEdges.bind {α β : Type} {p : Prog Engine α} {f : α → Prog Engine β} {s : TapState × δ}
    {R : α → TapState × δ → Prop} {Q : β → TapState × δ → Prop} (hp : OnEdges P p s R)
    (hf : ∀ a s, R a s → OnEdges P (f a) s Q) : OnEdges P (p >>= f) s Q := by
  rw [OnEdges, Prog.follows_bind]
  exact Prog.Follows.mono hp hf

/-- A call. -/
theorem OnEdges.op {o : EngineCall} {s s' : TapState × δ} {Q : Engine.Res o → TapState × δ → Prop}
    (ho : o.Fits s.1) (hrun : P.machine.run s (o.edges s.1) = s') (hQ : ∀ r, Q r s') :
    OnEdges P (Prog.op (I := Engine) o) s Q := by
  refine ⟨ho, fun r => ?_⟩
  subst hrun
  exact hQ r

variable {σ : Type} {C : Controller σ} {tdo : History → Bool} {L : C.Lawful tdo}

/-- **On the engine**, whatever TDO shows: the program succeeds, and the engine is in step. -/
theorem OnEdges.exec {α : Type} {p : Prog Engine α} {s : TapState × δ} {Q : α → TapState × δ → Prop}
    (hp : OnEdges P p s Q) {e : EngineState σ} {x : TapState × δ} {h : History}
    (he : JtagOCDEngine.At L e s.1 ⟨none, h⟩) (hx : P.machine.run x h = s) :
    ∃ a e' h', Prog.exec (JtagOCDEngine.handler C) p e = .ok a e' ∧ (L.wire e'.ctrl).history = h' ∧
      Q a (P.machine.run x h') := by
  have hstep : ∀ (o : EngineCall) (s : TapState × δ) (e : EngineState σ),
      (∃ h, JtagOCDEngine.At L e s.1 ⟨none, h⟩ ∧ P.machine.run x h = s) → o.Fits s.1 →
        ∃ r e', JtagOCDEngine.handler C o e = .ok r e' ∧ True ∧
          ∃ h, JtagOCDEngine.At L e' (P.machine.run s (o.edges s.1)).1 ⟨none, h⟩ ∧
            P.machine.run x h = P.machine.run s (o.edges s.1) := by
    rintro o s e ⟨h, he, hx⟩ ho
    obtain ⟨e', hrun, he'⟩ := JtagOCDEngine.handler_eq he ho
    refine ⟨_, e', hrun, trivial, h ++ o.edges s.1, ?_, by rw [Machine.run_append, hx]⟩
    rw [Port.run_fst, EngineCall.after_edges ho]
    exact he'
  obtain ⟨a, e', hrun, s', ⟨h', he', hx'⟩, hQ⟩ :=
    (Prog.Follows.steps (P := fun _ _ _ => True) hstep hp ⟨h, he, hx⟩).exec
  refine ⟨a, e', h', hrun, congrArg Wire.history he'.wire, ?_⟩
  rw [hx']
  exact hQ

end

namespace Reve

variable (response : List Request → ShiftReg 50)

/-! ### Scans -/

/-- Where a session may find the port: anywhere but on the way from Capture-DR to Update-DR,
and not with a request waiting. -/
def Starts (s : TapState × ReveTap) : Prop :=
  s.1 ∉ [TapState.captureDr, .shiftDr, .exit1Dr, .pauseDr, .exit2Dr] ∧ (s.1 = .updateDr → ¬ s.2.Takes)

/-- Edges that enter a state. -/
def enters (t : TapState) : TapState → List Edge → Bool
  | _, [] => false
  | s, e :: es => decide (s.next e.tms = t) || enters t (s.next e.tms) es

/-- What is accepted changes only where Update-DR is entered. -/
theorem accepted_run {s : TapState} {es : List Edge} (h : enters .updateDr s es = false) (d : ReveTap) :
    ((ReveTap.port response).machine.run (s, d) es).2.accepted = d.accepted := by
  induction es generalizing s d with
  | nil => rfl
  | cons e es ih =>
    rw [enters, Bool.or_eq_false_iff, decide_eq_false_iff_not] at h
    obtain ⟨hne, hrest⟩ := h
    have hact : ((ReveTap.port response).act d e.tdi s).accepted = d.accepted := by
      cases s <;> rfl
    have henter (d : ReveTap) (t : TapState) (ht : t ≠ .updateDr) :
        ((ReveTap.port response).enter d t).accepted = d.accepted := by
      cases t with
      | updateDr => exact absurd rfl ht
      | _ => rfl
    rw [Machine.run_cons]
    exact (ih hrest _).trans ((henter _ _ hne).trans hact)

/-- The way to Shift-IR enters Update-DR only from the states in between. -/
theorem toShiftIr_enters : ∀ s : TapState,
    s ∉ [TapState.captureDr, .shiftDr, .exit1Dr, .pauseDr, .exit2Dr] →
      enters .updateDr s (moveEdges false (events s .shiftIr)) = false := by decide +kernel

/-- **A scan of the instruction register**, from wherever a session may begin: the last five bits are
the instruction. -/
theorem run_writeIr {s : TapState × ReveTap}
    (hs : s.1 ∉ [TapState.captureDr, .shiftDr, .exit1Dr, .pauseDr, .exit2Dr]) (l : BitSequence) {ir : BitSequence}
    (hir : ir.length = 5) : ∃ d,
      (ReveTap.port response).machine.run s (EngineCall.edges s.1 (.writeIr (l ++ ir))) = (.updateIr, d) ∧
        d.ir = value ir ∧ d.accepted = s.2.accepted := by
  obtain ⟨t, d⟩ := s
  have hne : l ++ ir ≠ [] := by
    intro hnil
    rw [(List.append_eq_nil_iff.mp hnil).2] at hir
    exact absurd hir (by decide)
  obtain ⟨d₁, hmove⟩ : ∃ d₁, (ReveTap.port response).machine.run (t, d) (moveEdges false (events t .shiftIr)) =
      (.shiftIr, d₁) := ⟨_, Prod.ext (by rw [Port.run_fst, after_moves]) rfl⟩
  have hacc := accepted_run response (toShiftIr_enters t hs) d
  rw [hmove] at hacc
  have hscan : (ReveTap.port response).machine.run (t, d) (EngineCall.edges t (.writeIr (l ++ ir))) =
      (.updateIr, (ReveTap.port response).updateIr ((ReveTap.port response).shiftsIr d₁ (l ++ ir))) := by
    rw [EngineCall.edges, scanFrom, Machine.run_append, hmove, Port.run_scanIr _ _ hne]
  refine ⟨_, hscan, ?_, ?_⟩
  · exact congrArg value (ReveTap.take_shiftsIr response d₁ l hir)
  · exact (ReveTap.accepted_shiftsIr response d₁ (l ++ ir)).trans hacc

/-- **The sequence for the hub** clears the instruction register: it is of 5 bits, and the upper 5 of
the 10 that are shifted are zero. -/
theorem run_writeVir {s : TapState × ReveTap}
    (hs : s.1 ∉ [TapState.captureDr, .shiftDr, .exit1Dr, .pauseDr, .exit2Dr]) (val : BitSequence) : ∃ d,
      (ReveTap.port response).machine.run s (EngineCall.edges s.1 (.writeVir val)) = (.updateIr, d) ∧
        d.ir = 0 ∧ d.accepted = s.2.accepted := by
  have hvir : BitSequence.ofInt VIR false 10 = bits 5 VIR ++ bits 5 0 := by decide
  have hvdr : BitSequence.ofInt VDR false 10 = bits 5 VDR ++ bits 5 0 := by decide
  obtain ⟨d₁, hrun₁, hir₁, hacc₁⟩ := run_writeIr response hs (bits 5 VIR) (length_bits 5 0)
  have hne : virWord val ≠ [] := by simp [virWord_eq]
  obtain ⟨hir₂, hacc₂⟩ := ReveTap.scanDr_other response (d := d₁) (by rw [hir₁]; decide) (virWord val)
  obtain ⟨d₃, hrun₃, hir₃, hacc₃⟩ := run_writeIr response
    (s := (.updateDr, (ReveTap.port response).scanDr d₁ (virWord val)))
    (show TapState.updateDr ∉ _ by decide) (bits 5 VDR) (length_bits 5 0)
  refine ⟨d₃, ?_, hir₃, hacc₃.trans (hacc₂.trans hacc₁)⟩
  rw [EngineCall.edges, Machine.run_append, Machine.run_append, hvir, hvdr]
  rw [EngineCall.edges] at hrun₁ hrun₃
  rw [hrun₁, run_scanFromDr _ resting_updateIr _ hne, hrun₃]

/-! ### Calls -/

/-- What the calls so far have established: the instruction that was selected last,
whether a write waits in Update-DR, and whether one has been asked for at all. -/
structure Pending where
  /-- `self.currentir`. -/
  currentir : Option ℕ
  /-- A write waits. -/
  waiting : Bool
  /-- There has been a write. -/
  wrote : Bool

namespace Pending

/-- What the methods call. -/
def Allows (u : Pending) : ApbCall → Prop
  | .writeapb adr _ | .readapb adr => 0 ≤ adr ∧ adr < 128
  | .selectIr ir => ir = 0x10
  | .writeDr data => u.currentir = some 0x10 ∧ data ≠ [] ∧ data.length < 512
  | .goIdle => u.currentir ≠ none
  | .writeTms _ => False

/-- What the calls establish. -/
def next (u : Pending) : ApbCall → Pending
  | .writeapb _ _ => ⟨some 0x11, true, true⟩
  | .readapb _ => ⟨some 0x11, false, u.wrote⟩
  | .selectIr ir => ⟨some ir, u.waiting && decide (u.currentir = some ir), u.wrote⟩
  | .writeDr _ | .goIdle => { u with waiting := false }
  | .writeTms _ => u

end Pending

/-- The port and the TAP are where the calls so far have left them; what waits is counted
among what is accepted. -/
structure Tied (u : Pending) (currentir : Option ℕ) (asked : List Request) (s : TapState × ReveTap) : Prop where
  ir : u.currentir = currentir
  fresh : currentir = none → s.1 ∉ [TapState.captureDr, .shiftDr, .exit1Dr, .pauseDr, .exit2Dr]
  selected : ∀ ir, currentir = some ir → Resting s.1 ∧ s.2.ir = ir
  asked : s.2.accepted = asked
  waits : u.waiting = true → s.1 = .updateDr ∧ s.2.ir = 0x11 ∧ field 0 2 s.2.sr.bits = 2
  settled : u.waiting = false → s.1 = .updateDr → ¬ s.2.Takes

section
variable {response} {u : Pending} {currentir : Option ℕ} {asked : List Request} {s : TapState × ReveTap}

/-- A selection: a scan of the instruction register, unless it is skipped. -/
theorem onEdges_selectIr {ir : ℕ} (hir : ir < 2 ^ 5) (h : Tied u currentir asked s) :
    OnEdges (ReveTap.port response) ((ReveOCD.dmi 5 none).selectIr ir currentir) s fun c s' =>
      c = some ir ∧ Tied ⟨some ir, u.waiting && decide (u.currentir = some ir), u.wrote⟩ c asked s' := by
  rw [Dmi.selectIr]
  by_cases hskip : currentir = some ir
  · rw [if_neg (by simp [hskip])]
    refine ⟨hskip, ⟨hskip.symm, h.fresh, h.selected, h.asked, ?_, ?_⟩⟩
    · intro hw
      exact h.waits (Bool.and_eq_true_iff.mp hw).1
    · intro hw
      rw [h.ir, decide_eq_true hskip, Bool.and_true] at hw
      exact h.settled hw
  · rw [if_pos hskip]
    have hlen : (BitSequence.ofInt ir false 5).length = 5 := by
      rw [BitSequence.ofInt_eq (by decide), length_bits]
    have hval : value (BitSequence.ofInt ir false 5) = ir := by
      rw [BitSequence.ofInt_eq (by decide), value_bits_of_lt hir]
    have hstart : s.1 ∉ [TapState.captureDr, .shiftDr, .exit1Dr, .pauseDr, .exit2Dr] := by
      cases hc : currentir with
      | none => exact h.fresh hc
      | some ir' => rcases (h.selected ir' hc).1.cases with hs | hs | hs | hs <;> rw [hs] <;> decide
    obtain ⟨d, hrun, hd, hacc⟩ := run_writeIr response hstart [] hlen
    have hfit : EngineCall.Fits s.1 (.writeIr (BitSequence.ofInt ir false 5)) :=
      Fitting.ofInt_ok (by decide) (by decide) ir
    refine OnEdges.bind (OnEdges.op hfit hrun (Q := fun _ s' => s' = (.updateIr, d)) fun _ => rfl) ?_
    rintro _ _ rfl
    refine ⟨rfl, rfl, fun hnone => absurd hnone (by simp), ?_, hacc.trans h.asked, ?_, fun _ hs => absurd hs (by simp)⟩
    · rintro ir' ⟨⟩
      exact ⟨resting_updateIr, hd.trans hval⟩
    · intro hw
      rw [h.ir, decide_eq_false hskip, Bool.and_false] at hw
      exact absurd hw (by simp)

variable (response) in
/-- **A request**: it is in the register when the port has come to Update-DR, and waits. -/
theorem run_request (h : Tied u (some 0x11) asked s) {l : BitSequence} (hl : l ≠ []) {req : Request}
    (hreq : ∀ r : ShiftReg 50, Request.ofReg (r.shiftAll l) = req) (hop : req.op = 1 ∨ req.op = 2) :
    ∃ d, (ReveTap.port response).machine.run s (EngineCall.edges s.1 (.writeDr l)) = (.updateDr, d) ∧
      d.ir = 0x11 ∧ d.accepted = asked ++ [req] ∧ field 0 2 d.sr.bits = req.op := by
  obtain ⟨hrest, hir⟩ := h.selected 0x11 rfl
  have hsr (r : ShiftReg 50) : field 0 2 (r.shiftAll l).bits = req.op := congrArg Request.op (hreq r)
  have htakes : ReveTap.Takes ⟨(response s.2.accepted).shiftAll l, 0x11, s.2.accepted⟩ := by
    refine ⟨rfl, ?_⟩
    dsimp only
    rw [hsr]
    exact hop
  refine ⟨_, run_scanFromDr _ hrest s.2 hl, ?_⟩
  rw [ReveTap.scanDr_dmi response hir l]
  dsimp only
  rw [if_pos htakes, hreq, h.asked]
  exact ⟨rfl, rfl, hsr _⟩

theorem length_request {l : BitSequence} {v : ℕ} (hl : l = BitSequence.ofInt v false 50) :
    l ≠ [] ∧ l.length < 512 := by
  rw [hl]
  exact Fitting.ofInt_ok (by decide) (by decide) v

/-- `writeapb` leaves its request waiting. -/
theorem onEdges_writeapb (h : Tied u currentir asked s) {adr : ℤ} (hadr : 0 ≤ adr ∧ adr < 128) (data : ℤ) :
    OnEdges (ReveTap.port response) ((ReveOCD.dmi 5 none).writeapb adr data currentir) s fun c s' =>
      Tied ⟨some 0x11, true, true⟩ c (asked ++ ApbCall.request (.writeapb adr data)) s' := by
  refine OnEdges.bind (onEdges_selectIr (by decide) h) ?_
  rintro _ s' ⟨rfl, hs'⟩
  have hfit := length_request (l := writeRequest 50 adr data) rfl
  obtain ⟨d, hrun, hir, hacc, hop⟩ := run_request response hs' hfit.1
    (fun r => ofReg_writeRequest (by decide) hadr data r) (Or.inr rfl)
  refine OnEdges.bind (OnEdges.op hfit hrun (Q := fun _ s' => s' = (.updateDr, d)) fun _ => rfl) ?_
  rintro _ _ rfl
  refine ⟨rfl, fun hnone => absurd hnone (by simp), ?_, hacc, fun _ => ⟨rfl, hir, hop⟩, fun hf => absurd hf (by simp)⟩
  rintro ir ⟨⟩
  exact ⟨resting_updateDr, hir⟩

/-- Cycles of Run-Test/Idle. -/
theorem onEdges_idleCycles (d : ReveTap) (n k : ℕ) :
    OnEdges (ReveTap.port response) (Engine.idleCycles n k) (.runTestIdle, d) fun _ s' => s' = (.runTestIdle, d) := by
  obtain ⟨m, hm⟩ := Fitting.ofInt_zero k
  induction n with
  | zero => rfl
  | succ n ih =>
    refine OnEdges.bind (R := fun _ s' => s' = (.runTestIdle, d)) ?_ ?_
    · rw [hm]
      exact OnEdges.op (Fitting.writeTms_zeros m) (run_idle _ d m) fun _ => rfl
    · rintro _ _ rfl
      exact ih

/-- A move to Run-Test/Idle, from where the port rests. -/
theorem onEdges_goIdle (hs : Resting s.1) :
    OnEdges (ReveTap.port response) Engine.goIdle s fun _ s' => s' = (.runTestIdle, s.2) :=
  OnEdges.op trivial (run_toIdle _ hs s.2) fun _ => rfl

variable (response) in
/-- **A read-back is no request**: one zero more than the register is long is left in it. -/
theorem run_readBack {d : ReveTap} (hd : d.ir = 0x11) : ∃ d', (ReveTap.port response).machine.run (.runTestIdle, d)
      (EngineCall.edges .runTestIdle (.readDr 50)) = (.updateDr, d') ∧
    d'.ir = 0x11 ∧ d'.accepted = d.accepted ∧ ¬ d'.Takes := by
  obtain ⟨l, hl⟩ : ∃ l, l = List.replicate (50 + 1) false := ⟨_, rfl⟩
  have hne : l ≠ [] := by
    rw [hl]
    exact List.cons_ne_nil _ _
  have hop : (Request.ofReg ((response d.accepted).shiftAll l)).op = 0 := by
    rw [hl]
    exact op_readBack (response d.accepted)
  rw [Request.ofReg] at hop
  have hnot : ¬ ReveTap.Takes ⟨(response d.accepted).shiftAll l, 0x11, d.accepted⟩ := by
    rintro ⟨-, h | h⟩ <;> exact absurd (hop.symm.trans h) (by decide)
  have hrun := run_scanFromDr (ReveTap.port response) resting_runTestIdle d hne
  rw [ReveTap.scanDr_dmi response hd] at hrun
  dsimp only at hrun
  rw [if_neg hnot] at hrun
  refine ⟨⟨(response d.accepted).shiftAll l, 0x11, d.accepted⟩, ?_, rfl, rfl, hnot⟩
  rw [← hrun, hl]
  rfl

/-- `readapb` leaves nothing waiting. -/
theorem onEdges_readapb (h : Tied u currentir asked s) {adr : ℤ} (hadr : 0 ≤ adr ∧ adr < 128) :
    OnEdges (ReveTap.port response) ((ReveOCD.dmi 5 none).readapb adr currentir) s fun r s' =>
      Tied ⟨some 0x11, false, u.wrote⟩ r.2 (asked ++ ApbCall.request (.readapb adr)) s' := by
  refine OnEdges.bind (onEdges_selectIr (by decide) h) ?_
  rintro _ s' ⟨rfl, hs'⟩
  have hfit := length_request (l := readRequest 50 adr) rfl
  obtain ⟨d, hrun, hir, hacc, -⟩ := run_request response hs' hfit.1
    (fun r => ofReg_readRequest (by decide) hadr r) (Or.inl rfl)
  refine OnEdges.bind (OnEdges.op hfit hrun (Q := fun _ s' => s' = (.updateDr, d)) fun _ => rfl) ?_
  rintro _ _ rfl
  refine OnEdges.bind (onEdges_goIdle (s := (.updateDr, d)) resting_updateDr) ?_
  rintro _ _ rfl
  refine OnEdges.bind (onEdges_idleCycles d 8 7) ?_
  rintro _ _ rfl
  obtain ⟨d', hrun', hir', hacc', hnot⟩ := run_readBack response hir
  have hlen : EngineCall.Fits .runTestIdle (.readDr 50) := (by decide : 50 < 512)
  refine OnEdges.bind (OnEdges.op hlen hrun' (Q := fun _ s' => s' = (.updateDr, d')) fun _ => rfl) ?_
  rintro val _ rfl
  refine ⟨rfl, fun hnone => absurd hnone (by simp), ?_, hacc'.trans hacc, fun hf => absurd hf (by simp), fun _ _ => hnot⟩
  rintro ir ⟨⟩
  exact ⟨resting_updateDr, hir'⟩

/-- **A call** does what `Pending` says, and asks what it is for. -/
theorem onEdges_call (h : Tied u currentir asked s) {o : ApbCall} (ho : u.Allows o) :
    OnEdges (ReveTap.port response) ((ReveOCD.dmi 5 none).call o currentir) s fun r s' =>
      Tied (u.next o) r.2 (asked ++ o.request) s' := by
  cases o with
  | writeapb adr data =>
    refine OnEdges.bind (onEdges_writeapb h ho data) ?_
    rintro c s' hs'
    exact hs'
  | readapb adr => exact onEdges_readapb h ho
  | selectIr ir =>
    obtain rfl : ir = 0x10 := ho
    refine OnEdges.bind (onEdges_selectIr (by decide) h) ?_
    rintro c s' ⟨-, hs'⟩
    change Tied _ _ (asked ++ []) _
    rw [List.append_nil]
    exact hs'
  | writeDr data =>
    obtain ⟨hcur, hfit⟩ := ho
    rw [h.ir] at hcur
    subst hcur
    obtain ⟨hrest, hir⟩ := h.selected 0x10 rfl
    obtain ⟨hir', hacc⟩ := ReveTap.scanDr_other response (d := s.2) (by rw [hir]; decide) data
    refine OnEdges.bind (OnEdges.op (o := .writeDr data) hfit (run_scanFromDr _ hrest s.2 hfit.1)
      (Q := fun _ s' => s' = (.updateDr, (ReveTap.port response).scanDr s.2 data)) fun _ => rfl) ?_
    rintro _ _ rfl
    change Tied _ _ (asked ++ []) _
    rw [List.append_nil]
    refine ⟨h.ir, fun hnone => absurd hnone (by simp), ?_, hacc.trans h.asked,
      fun hf => absurd hf (by simp [Pending.next]), ?_⟩
    · rintro ir ⟨⟩
      exact ⟨resting_updateDr, hir'.trans hir⟩
    · rintro - - ⟨h11, -⟩
      rw [hir', hir] at h11
      exact absurd h11 (by decide)
  | goIdle =>
    obtain ⟨ir, hir⟩ := Option.ne_none_iff_exists'.mp ho
    rw [h.ir] at hir
    obtain ⟨hrest, hsel⟩ := h.selected ir hir
    refine OnEdges.bind (onEdges_goIdle hrest) ?_
    rintro _ _ rfl
    change Tied _ _ (asked ++ []) _
    rw [List.append_nil]
    refine ⟨h.ir, fun hnone => absurd (hir.symm.trans hnone) (by simp), ?_, h.asked,
      fun hf => absurd hf (by simp [Pending.next]),
      fun _ hf => absurd hf (by simp)⟩
    intro ir' hir'
    rw [hir] at hir'
    obtain rfl := Option.some.inj hir'
    exact ⟨resting_runTestIdle, hsel⟩
  | writeTms out => exact ho.elim

/-- The requests that calls were for. -/
def askedBy (made : List Made) : List Request := made.flatMap fun m => m.call.request

theorem onEdges_logged {made : List Made} (h : Tied u currentir (askedBy made) s) {o : ApbCall} (ho : u.Allows o) :
    OnEdges (ReveTap.port response) ((ReveOCD.dmi 5 none).logged o (currentir, made)) s fun r s' =>
      Tied (u.next o) r.2.1 (askedBy r.2.2) s' := by
  refine OnEdges.bind (Prog.Follows.traced (onEdges_call h ho)) ?_
  rintro r s' hs'
  change Tied (u.next o) r.1.2 (askedBy (made ++ [⟨o, r.1.1, r.2⟩])) s'
  rw [askedBy, List.flatMap_append, List.flatMap_singleton]
  exact hs'

end

/-! ### With an attribute `virtual` -/

/-- The writes among requests. -/
def writes (reqs : List Request) : List Request := reqs.filter fun r => r.op = 2

/-- The instruction is 0, whatever the driver takes it for, and nothing is accepted. -/
structure Deaf (u : Pending) (currentir : Option ℕ) (made : List Made) (s : TapState × ReveTap) : Prop where
  ir : u.currentir = currentir
  fresh : currentir = none → s.1 ∉ [TapState.captureDr, .shiftDr, .exit1Dr, .pauseDr, .exit2Dr]
  cleared : ∀ ir, currentir = some ir → Resting s.1 ∧ s.2.ir = 0
  accepted : s.2.accepted = []
  wrote : u.wrote = false ↔ writes (askedBy made) = []

section
variable {response} {u : Pending} {currentir : Option ℕ} {made : List Made} {s : TapState × ReveTap}

/-- A scan with the instruction cleared. -/
theorem onEdges_deaf {o : EngineCall} {l : BitSequence} (hs : Resting s.1 ∧ s.2.ir = 0) (ho : o.Fits s.1) (hl : l ≠ [])
    (hedges : o.edges s.1 = scanFrom s.1 .shiftDr l) : OnEdges (ReveTap.port response) (Prog.op (I := Engine) o) s
      fun _ s' => s'.1 = .updateDr ∧ s'.2.ir = 0 ∧ s'.2.accepted = s.2.accepted := by
  obtain ⟨hir, hacc⟩ := ReveTap.scanDr_other response (d := s.2) (by rw [hs.2]; decide) l
  have hrun : (ReveTap.port response).machine.run s (o.edges s.1) =
      (.updateDr, (ReveTap.port response).scanDr s.2 l) := by
    rw [hedges]
    exact run_scanFromDr _ hs.1 s.2 hl
  exact OnEdges.op ho hrun fun _ => ⟨rfl, hir.trans hs.2, hacc⟩

/-- A selection. -/
theorem Deaf.selectIr (h : Deaf u currentir made s) (virtual : Bool) (ir : ℕ) :
    OnEdges (ReveTap.port response) ((ReveOCD.dmi 5 (some virtual)).selectIr ir currentir) s fun c s' =>
      c = some ir ∧ Resting s'.1 ∧ s'.2.ir = 0 ∧ s'.2.accepted = [] := by
  rw [Dmi.selectIr]
  by_cases hskip : currentir = some ir
  · rw [if_neg (by simp [hskip])]
    obtain ⟨hrest, hir⟩ := h.cleared ir hskip
    exact ⟨hskip, hrest, hir, h.accepted⟩
  · rw [if_pos hskip]
    have hstart : s.1 ∉ [TapState.captureDr, .shiftDr, .exit1Dr, .pauseDr, .exit2Dr] := by
      cases hc : currentir with
      | none => exact h.fresh hc
      | some ir' => rcases (h.cleared ir' hc).1.cases with hs | hs | hs | hs <;> rw [hs] <;> decide
    obtain ⟨d, hrun, hd, hacc⟩ := run_writeVir response hstart (BitSequence.ofInt ir false 5)
    have hfit : EngineCall.Fits s.1 (.writeVir (BitSequence.ofInt ir false 5)) :=
      (Fitting.ofInt_ok (by decide) (by decide) ir).2
    refine OnEdges.bind (OnEdges.op hfit hrun (Q := fun _ s' => s' = (.updateIr, d)) fun _ => rfl) ?_
    rintro _ _ rfl
    exact ⟨rfl, resting_updateIr, hd, hacc.trans h.accepted⟩

/-- **A call** finds the TAP deaf, and leaves it so. -/
theorem Deaf.call (h : Deaf u currentir made s) (virtual : Bool) {o : ApbCall} (ho : u.Allows o) :
    OnEdges (ReveTap.port response) ((ReveOCD.dmi 5 (some virtual)).call o currentir) s fun r s' =>
      (u.next o).currentir = r.2 ∧ (∃ ir, r.2 = some ir) ∧ Resting s'.1 ∧ s'.2.ir = 0 ∧ s'.2.accepted = [] := by
  cases o with
  | writeapb adr data =>
    refine OnEdges.bind (OnEdges.bind (h.selectIr virtual 0x11) ?_) fun c s' hs' => hs'
    rintro _ s' ⟨rfl, hrest, hir, hacc⟩
    have hfit := length_request (l := writeRequest 50 adr data) rfl
    refine OnEdges.bind (onEdges_deaf (o := .writeDr (writeRequest 50 adr data)) ⟨hrest, hir⟩ hfit hfit.1 rfl) ?_
    rintro _ s'' ⟨hs'', hir', hacc'⟩
    exact ⟨rfl, ⟨0x11, rfl⟩, hs'' ▸ resting_updateDr, hir', hacc'.trans hacc⟩
  | readapb adr =>
    refine OnEdges.bind (h.selectIr virtual 0x11) ?_
    rintro _ s' ⟨rfl, hrest, hir, hacc⟩
    have hfit := length_request (l := readRequest 50 adr) rfl
    refine OnEdges.bind (onEdges_deaf (o := .writeDr (readRequest 50 adr)) ⟨hrest, hir⟩ hfit hfit.1 rfl) ?_
    rintro _ s'' ⟨hs'', hir', hacc'⟩
    refine OnEdges.bind (onEdges_goIdle (hs'' ▸ resting_updateDr)) ?_
    rintro _ _ rfl
    refine OnEdges.bind (onEdges_idleCycles s''.2 8 7) ?_
    rintro _ _ rfl
    have hlen : EngineCall.Fits .runTestIdle (.readDr 50) := (by decide : 50 < 512)
    refine OnEdges.bind (onEdges_deaf (o := .readDr 50) (s := (.runTestIdle, s''.2)) ⟨resting_runTestIdle, hir'⟩ hlen
      (List.cons_ne_nil _ _) rfl) ?_
    rintro _ t ⟨ht, hir'', hacc''⟩
    exact ⟨rfl, ⟨0x11, rfl⟩, ht ▸ resting_updateDr, hir'', hacc''.trans (hacc'.trans hacc)⟩
  | selectIr ir =>
    refine OnEdges.bind (h.selectIr virtual ir) ?_
    rintro c s' ⟨rfl, hs'⟩
    exact ⟨rfl, ⟨ir, rfl⟩, hs'⟩
  | writeDr data =>
    obtain ⟨hcur, hfit⟩ := ho
    rw [h.ir] at hcur
    refine OnEdges.bind (onEdges_deaf (o := .writeDr data) (h.cleared _ hcur) hfit hfit.1 rfl) ?_
    rintro _ s' ⟨hs', hir, hacc⟩
    exact ⟨h.ir, ⟨_, hcur⟩, hs' ▸ resting_updateDr, hir, hacc.trans h.accepted⟩
  | goIdle =>
    obtain ⟨ir, hcur⟩ := Option.ne_none_iff_exists'.mp ho
    rw [h.ir] at hcur
    obtain ⟨hrest, hir⟩ := h.cleared ir hcur
    refine OnEdges.bind (onEdges_goIdle hrest) ?_
    rintro _ _ rfl
    exact ⟨h.ir, ⟨_, hcur⟩, resting_runTestIdle, hir, h.accepted⟩
  | writeTms out => exact ho.elim

/-- Whether there has been a write, with one more call. -/
theorem wrote_next {o : ApbCall} {a : Apb.Res o} {calls : List EngineCall} (ho : u.Allows o)
    (h : u.wrote = false ↔ writes (askedBy made) = []) :
    (u.next o).wrote = false ↔ writes (askedBy (made ++ [⟨o, a, calls⟩])) = [] := by
  rw [askedBy, List.flatMap_append, List.flatMap_singleton, writes, List.filter_append, List.append_eq_nil_iff]
  rw [writes, askedBy] at h
  cases o with
  | writeapb adr data => exact iff_of_false (by simp [Pending.next]) (by simp [ApbCall.request])
  | writeTms out => exact ho.elim
  | _ =>
    rw [← h]
    simp [Pending.next, ApbCall.request]

theorem Deaf.logged (h : Deaf u currentir made s) (virtual : Bool) {o : ApbCall} (ho : u.Allows o) :
    OnEdges (ReveTap.port response) ((ReveOCD.dmi 5 (some virtual)).logged o (currentir, made)) s fun r s' =>
      Deaf (u.next o) r.2.1 r.2.2 s' := by
  refine OnEdges.bind (Prog.Follows.traced (h.call virtual ho)) ?_
  rintro r s' ⟨hcur, ⟨ir, hir⟩, hrest, hzero, hacc⟩
  exact ⟨hcur, fun hnone => absurd (hir.symm.trans hnone) (by simp), fun _ _ => ⟨hrest, hzero⟩, hacc,
    wrote_next ho h.wrote⟩

end

/-! ### Methods -/

/-- The methods after which nothing waits: `resetdm` ends with a move, and the others with a
read. -/
def settles : ReveOCD.Op → Bool
  | .resetdm | .readreg _ | .readmem _ | .readapb _ => true
  | .halt | .resume | .writereg _ _ | .setreg2 _ _ | .setpc _ | .writemem _ _ | .writeapb _ _ => false

/-- The methods that ask for a write. -/
def asksWrite : ReveOCD.Op → Bool
  | .resetdm | .readapb _ => false
  | .halt | .resume | .readreg _ | .writereg _ _ | .setreg2 _ _ | .setpc _ | .readmem _ | .writemem _ _
  | .writeapb _ _ => true

/-- A program of allowed calls. -/
def Keeps {α : Type} (p : Prog Apb α) (u : Pending) (Q : α → Pending → Prop) : Prop :=
  Prog.Follows Pending.Allows Pending.next p u Q

namespace Keeps

variable {α β : Type} {u : Pending}

@[simp] theorem pure_iff {a : α} {Q : α → Pending → Prop} : Keeps (pure a) u Q ↔ Q a u := Iff.rfl

@[simp] theorem bind_iff {p : Prog Apb α} {f : α → Prog Apb β} {Q : β → Pending → Prop} :
    Keeps (p >>= f) u Q ↔ Keeps p u fun a u => Keeps (f a) u Q := Prog.follows_bind p f u Q

@[simp] theorem writeapb_iff {adr data : ℤ} {Q : Unit → Pending → Prop} :
    Keeps (Apb.writeapb adr data) u Q ↔ (0 ≤ adr ∧ adr < 128) ∧ Q () ⟨some 0x11, true, true⟩ :=
  and_congr_right fun _ => ⟨fun h => h (), fun h _ => h⟩

@[simp] theorem readapb_iff {adr : ℤ} {Q : ℕ → Pending → Prop} :
    Keeps (Apb.readapb adr) u Q ↔ (0 ≤ adr ∧ adr < 128) ∧ ∀ val, Q val ⟨some 0x11, false, u.wrote⟩ := Iff.rfl

@[simp] theorem selectIr_iff {ir : ℕ} {Q : Unit → Pending → Prop} :
    Keeps (Apb.selectIr ir) u Q ↔ ir = 0x10 ∧ Q () ⟨some ir, u.waiting && decide (u.currentir = some ir), u.wrote⟩ :=
  and_congr_right fun _ => ⟨fun h => h (), fun h _ => h⟩

@[simp] theorem writeDr_iff {data : BitSequence} {Q : Unit → Pending → Prop} :
    Keeps (Apb.writeDr data) u Q ↔
      (u.currentir = some 0x10 ∧ data ≠ [] ∧ data.length < 512) ∧ Q () { u with waiting := false } :=
  and_congr_right fun _ => ⟨fun h => h (), fun h _ => h⟩

@[simp] theorem goIdle_iff {Q : Unit → Pending → Prop} :
    Keeps Apb.goIdle u Q ↔ u.currentir ≠ none ∧ Q () { u with waiting := false } :=
  and_congr_right fun _ => ⟨fun h => h (), fun h _ => h⟩

theorem pushins (ins : ℕ) {Q : Unit → Pending → Prop} (hQ : Q () ⟨some 0x11, true, true⟩) :
    Keeps (ReveOCD.pushins ins) u Q := by
  simp [ReveOCD.pushins, ReveOCD.PROGBUFFERREG, ReveOCD.ABSTRACTCMDREG, hQ]

theorem pushConst (regdst : ℕ) (val : ℤ) {Q : Unit → Pending → Prop} (hQ : Q () ⟨some 0x11, true, true⟩) :
    Keeps (ReveOCD.pushConst regdst val) u Q := by
  rw [ReveOCD.pushConst]
  split_ifs
  · exact pushins _ hQ
  · rw [bind_iff]
    exact pushins _ (pushins _ hQ)

theorem readreg (regnr : ℤ) {Q : ℕ → Pending → Prop} (hQ : ∀ val, Q val ⟨some 0x11, false, true⟩) :
    Keeps (ReveOCD.readreg regnr) u Q := by
  simpa [ReveOCD.readreg, ReveOCD.ABSTRACTDATAREG, ReveOCD.ABSTRACTCMDREG] using hQ

/-- **What a method leaves waiting**, and whether it asks for a write. -/
theorem exec (self : ReveOCD) {op : ReveOCD.Op} (hop : op.InRange) (u : Pending) :
    Keeps (ReveOCD.exec self op) u fun _ u' => u'.waiting = (!settles op) ∧ u'.wrote = (u.wrote || asksWrite op) := by
  have hwrote {w : Bool} : true = (w || true) := (Bool.or_true w).symm
  cases op with
  | resetdm =>
    have hframe : bits 32 (3 <<< 16) ≠ [] := bits_ne_nil (by decide) _
    simpa [ReveOCD.exec, ReveOCD.resetdm, settles, asksWrite] using hframe
  | halt => simp [ReveOCD.exec, ReveOCD.halt, ReveOCD.DMCONTROLREG, settles, asksWrite]
  | resume => simp [ReveOCD.exec, ReveOCD.resume, ReveOCD.DMCONTROLREG, settles, asksWrite]
  | readreg regnr =>
    rw [ReveOCD.exec, bind_iff]
    exact readreg regnr fun _ => ⟨rfl, hwrote⟩
  | writereg regnr val =>
    simp [ReveOCD.exec, ReveOCD.writereg, ReveOCD.ABSTRACTDATAREG, ReveOCD.ABSTRACTCMDREG, settles, asksWrite]
  | setreg2 regnr val =>
    rw [ReveOCD.exec, bind_iff]
    exact pushConst _ _ ⟨rfl, hwrote⟩
  | setpc val =>
    simp [ReveOCD.exec, ReveOCD.setpc, ReveOCD.writereg, ReveOCD.pushins, ReveOCD.ABSTRACTDATAREG, ReveOCD.ABSTRACTCMDREG,
      ReveOCD.PROGBUFFERREG, settles, asksWrite]
  | readmem adr =>
    rw [ReveOCD.exec, ReveOCD.readmem, bind_iff, bind_iff]
    refine pushConst _ _ ?_
    rw [bind_iff]
    refine pushins _ ?_
    rw [bind_iff, goIdle_iff]
    exact ⟨by simp, readreg 1 fun _ => ⟨rfl, hwrote⟩⟩
  | writemem adr val =>
    rw [ReveOCD.exec, ReveOCD.writemem, bind_iff, bind_iff]
    refine pushConst _ _ ?_
    have hfull (u : Pending) : Keeps (do ReveOCD.pushConst 2 adr; ReveOCD.pushins (swWord 0)) u
        fun _ u' => u'.waiting = true ∧ u'.wrote = true := by
      rw [bind_iff]
      exact pushConst _ _ (pushins _ ⟨rfl, rfl⟩)
    have hdone (u' : Pending) (h : u'.waiting = true ∧ u'.wrote = true) :
        u'.waiting = (!settles (.writemem adr val)) ∧ u'.wrote = (u.wrote || asksWrite (.writemem adr val)) :=
      ⟨h.1, h.2.trans hwrote⟩
    cases self.lastwradr with
    | none => exact Prog.Follows.mono (hfull _) fun _ u' hu' => hdone u' hu'
    | some lastwradr =>
      dsimp only
      split_ifs
      · exact pushins _ (hdone _ ⟨rfl, rfl⟩)
      · exact Prog.Follows.mono (hfull _) fun _ u' hu' => hdone u' hu'
  | writeapb adr data =>
    rw [ReveOCD.exec, bind_iff, writeapb_iff]
    exact ⟨hop, rfl, hwrote⟩
  | readapb adr =>
    rw [ReveOCD.exec, bind_iff, readapb_iff]
    exact ⟨hop, fun _ => ⟨rfl, (Bool.or_false _).symm⟩⟩

end Keeps

/-- What a session leaves waiting is what its last method does, and it asks for a write if one of its
methods does. -/
theorem keeps_session {ops : List ReveOCD.Op} (hops : ∀ op ∈ ops, op.InRange) (self : ReveOCD) (u : Pending) :
    Keeps (session ReveOCD.exec ops self) u fun _ u' =>
      u'.waiting = ops.getLast?.elim u.waiting (fun op => !settles op) ∧ u'.wrote = (u.wrote || ops.any asksWrite) := by
  induction ops generalizing self u with
  | nil => exact ⟨rfl, (Bool.or_false _).symm⟩
  | cons op ops ih =>
    rw [session, Keeps.bind_iff]
    refine Prog.Follows.mono (Keeps.exec self (hops op List.mem_cons_self) u) fun r u' hu' => ?_
    refine Prog.Follows.mono (ih (fun op' hop' => hops op' (List.mem_cons_of_mem op hop')) r.2 u') fun _ u'' hu'' => ?_
    constructor
    · rw [hu''.1, hu'.1, List.getLast?_cons]
      cases ops.getLast? <;> rfl
    · rw [hu''.2, hu'.2, List.any_cons, Bool.or_assoc]

/-! ### Sessions -/

section
variable {σ : Type} {C : Controller σ} {x : TapState × ReveTap}

/-- The calls of a session of a `ReveOCD`, on an engine with the controller `C`, whose attribute
`virtual` is this one. -/
def runSession (C : Controller σ) (virtual : Option Bool) (ops : List ReveOCD.Op) (e : EngineState σ) :
    EStateM.Result Fault (EngineState σ) (ReveOCD × Option ℕ × List Made) :=
  Prog.exec (JtagOCDEngine.handler C)
    (Prog.lower (ReveOCD.dmi 5 virtual).logged (session ReveOCD.exec ops ReveOCD.init) (none, [])) e

/-- The session succeeds on an engine in front of the TAP, and when its last method returns the TAP
has accepted every write that the methods have asked for, in order. -/
def AllAccepted (L : C.Lawful ((ReveTap.machine response).shows x)) (virtual : Option Bool) (e : EngineState σ)
    (ops : List ReveOCD.Op) : Prop :=
  ∃ r e', runSession C virtual ops e = .ok r e' ∧
    writes ((ReveTap.machine response).run x (L.wire e'.ctrl).history).2.accepted = writes (askedBy r.2.2)

/-- What waits, and what is accepted. -/
theorem accepted_of_tied {u : Pending} {currentir : Option ℕ} {asked : List Request} {s : TapState × ReveTap}
    (h : Tied u currentir asked ((ReveTap.port response).flush s)) :
    writes s.2.accepted = writes asked ↔ u.waiting = false := by
  have hasked := h.asked
  rw [ReveTap.accepted_flush] at hasked
  obtain ⟨t, d⟩ := s
  cases hw : u.waiting with
  | true =>
    obtain ⟨ht, hir, hop⟩ := h.waits hw
    obtain rfl : t = .updateDr := ht
    have htakes : d.Takes := ⟨hir, Or.inr hop⟩
    have hwrite : (Request.ofReg d.sr).op = 2 := hop
    rw [if_pos ⟨rfl, htakes⟩] at hasked
    refine iff_of_false ?_ (by simp)
    rw [← hasked, writes, writes, List.filter_append]
    simp [hwrite]
  | false =>
    have hnone : ¬ (t = .updateDr ∧ d.Takes) := by
      rintro ⟨rfl, ht⟩
      exact h.settled hw rfl ht
    rw [if_neg hnone, List.append_nil] at hasked
    rw [hasked]
    exact iff_of_true rfl rfl

/-- And if nothing is. -/
theorem accepted_of_deaf {u : Pending} {currentir : Option ℕ} {made : List Made} {s : TapState × ReveTap}
    (h : Deaf u currentir made ((ReveTap.port response).flush s)) :
    writes s.2.accepted = writes (askedBy made) ↔ u.wrote = false := by
  have hacc := h.accepted
  rw [ReveTap.accepted_flush] at hacc
  rw [(List.append_eq_nil_iff.mp hacc).1, h.wrote]
  exact eq_comm

/-- A program that a relation on the TAP follows, over a session. -/
theorem runSession_follows (L : C.Lawful ((ReveTap.machine response).shows x)) {e : EngineState σ}
    (he : JtagOCDEngine.At L e x.1 ⟨none, []⟩) {virtual : Option Bool}
    {R : Pending → Option ℕ × List Made → TapState × ReveTap → Prop}
    (hcall : ∀ (o : ApbCall) u t s, R u t s → u.Allows o →
      OnEdges (ReveTap.port response) ((ReveOCD.dmi 5 virtual).logged o t) s fun r s' => R (u.next o) r.2 s')
    (hx : R ⟨none, false, false⟩ (none, []) ((ReveTap.port response).flush x)) {ops : List ReveOCD.Op}
    (hops : ∀ op ∈ ops, op.InRange) : ∃ r e' u, runSession C virtual ops e = .ok r e' ∧
      R u r.2 ((ReveTap.port response).flush ((ReveTap.machine response).run x (L.wire e'.ctrl).history)) ∧
      u.waiting = ops.getLast?.elim false (fun op => !settles op) ∧ u.wrote = ops.any asksWrite := by
  have hfollows := Prog.Follows.lower (R := R) hcall (keeps_session hops ReveOCD.init ⟨none, false, false⟩)
    (s := (none, [])) hx
  have hat : JtagOCDEngine.At L e ((ReveTap.port response).flush x).1 ⟨none, []⟩ := he
  obtain ⟨r, e', h', hrun, rfl, u, hu, hwaiting, hwrote⟩ := OnEdges.exec hfollows hat rfl
  have hflush : (ReveTap.port response).flush ((ReveTap.machine response).run x (L.wire e'.ctrl).history) =
      (ReveTap.port response).machine.run ((ReveTap.port response).flush x) (L.wire e'.ctrl).history :=
    (Port.run_flush (ReveTap.port response) (fun d => d.sr.out) x (L.wire e'.ctrl).history).symm
  refine ⟨r, e', u, hrun, ?_, hwaiting, by simpa using hwrote⟩
  rw [hflush]
  exact hu

/-- The TAP at the start of a session, with what is waiting counted in. -/
theorem accepted_flush_start (hx : Starts x) (hacc : x.2.accepted = []) :
    ((ReveTap.port response).flush x).2.accepted = [] := by
  rw [ReveTap.accepted_flush, if_neg fun h => hx.2 h.1 h.2, hacc]
  rfl

/-- **A session without an attribute `virtual`** succeeds, and leaves waiting what its last method does. -/
theorem runSession_tied (L : C.Lawful ((ReveTap.machine response).shows x)) {e : EngineState σ}
    (he : JtagOCDEngine.At L e x.1 ⟨none, []⟩) (hx : Starts x) (hacc : x.2.accepted = [])
    {ops : List ReveOCD.Op} (hops : ∀ op ∈ ops, op.InRange) : ∃ r e' u, runSession C none ops e = .ok r e' ∧
      Tied u r.2.1 (askedBy r.2.2)
        ((ReveTap.port response).flush ((ReveTap.machine response).run x (L.wire e'.ctrl).history)) ∧
      u.waiting = ops.getLast?.elim false (fun op => !settles op) ∧ u.wrote = ops.any asksWrite := by
  have htied : Tied ⟨none, false, false⟩ none (askedBy []) ((ReveTap.port response).flush x) := by
    refine ⟨rfl, fun _ => hx.1, fun ir h => absurd h (by simp), accepted_flush_start response hx hacc,
      fun h => absurd h (by simp), ?_⟩
    rintro - ht h
    obtain ⟨t, d⟩ := x
    obtain rfl : t = .updateDr := ht
    exact hx.2 rfl h
  exact runSession_follows response L he
    (R := fun u (t : Option ℕ × List Made) s => Tied u t.1 (askedBy t.2) s)
    (fun _ _ _ _ hs ho => onEdges_logged hs ho) htied hops

/-- **With one** it succeeds, and nothing is accepted. -/
theorem runSession_deaf (L : C.Lawful ((ReveTap.machine response).shows x)) {e : EngineState σ}
    (he : JtagOCDEngine.At L e x.1 ⟨none, []⟩) (hx : Starts x) (hacc : x.2.accepted = []) (virtual : Bool)
    {ops : List ReveOCD.Op} (hops : ∀ op ∈ ops, op.InRange) : ∃ r e' u, runSession C (some virtual) ops e = .ok r e' ∧
      Deaf u r.2.1 r.2.2
        ((ReveTap.port response).flush ((ReveTap.machine response).run x (L.wire e'.ctrl).history)) ∧
      u.waiting = ops.getLast?.elim false (fun op => !settles op) ∧ u.wrote = ops.any asksWrite := by
  have hdeaf : Deaf ⟨none, false, false⟩ none [] ((ReveTap.port response).flush x) :=
    ⟨rfl, fun _ => hx.1, fun ir h => absurd h (by simp), accepted_flush_start response hx hacc, iff_of_true rfl rfl⟩
  exact runSession_follows response L he (R := fun u (t : Option ℕ × List Made) s => Deaf u t.1 t.2 s)
    (fun _ _ _ _ hs ho => hs.logged virtual ho) hdeaf hops

theorem allAccepted_of_ok {L : C.Lawful ((ReveTap.machine response).shows x)} {virtual : Option Bool}
    {e e' : EngineState σ} {ops : List ReveOCD.Op} {r : ReveOCD × Option ℕ × List Made}
    (hrun : runSession C virtual ops e = .ok r e') : AllAccepted response L virtual e ops ↔
      writes ((ReveTap.machine response).run x (L.wire e'.ctrl).history).2.accepted = writes (askedBy r.2.2) := by
  constructor
  · rintro ⟨r', e'', hrun', h⟩
    rw [hrun] at hrun'
    injection hrun' with hr he
    rw [hr, he]
    exact h
  · intro h
    exact ⟨r, e', hrun, h⟩

/-- **When the TAP has accepted every write**: exactly if the controller has no attribute `virtual` and
the session is empty or ends with a method after which nothing waits, or if no method asks for one. -/
theorem allAccepted_iff (L : C.Lawful ((ReveTap.machine response).shows x)) {e : EngineState σ}
    (he : JtagOCDEngine.At L e x.1 ⟨none, []⟩) (hx : Starts x) (hacc : x.2.accepted = []) (virtual : Option Bool)
    {ops : List ReveOCD.Op} (hops : ∀ op ∈ ops, op.InRange) :
    AllAccepted response L virtual e ops ↔
      (virtual = none ∧ ∀ op ∈ ops.getLast?, settles op = true) ∨ ∀ op ∈ ops, asksWrite op = false := by
  have hquiet : ops.any asksWrite = false ↔ ∀ op ∈ ops, asksWrite op = false := by simp
  cases virtual with
  | none =>
    obtain ⟨r, e', u, hrun, htied, hwaiting, -⟩ := runSession_tied response L he hx hacc hops
    -- a method that asks for no write leaves none waiting
    have hsettles (op : ReveOCD.Op) (hop : asksWrite op = false) : settles op = true := by
      cases op <;> first | rfl | cases hop
    have hor : ((∀ op ∈ ops.getLast?, settles op = true) ∨ ∀ op ∈ ops, asksWrite op = false) ↔
        ∀ op ∈ ops.getLast?, settles op = true := by
      refine or_iff_left_of_imp fun h op hop => hsettles op (h op (List.mem_of_getLast? hop))
    rw [allAccepted_of_ok response hrun, accepted_of_tied response htied, hwaiting, eq_self, true_and, hor]
    cases ops.getLast? with
    | none => simp
    | some op => simp
  | some virtual =>
    obtain ⟨r, e', u, hrun, hdeaf, -, hwrote⟩ := runSession_deaf response L he hx hacc virtual hops
    rw [allAccepted_of_ok response hrun, accepted_of_deaf response hdeaf, hwrote, hquiet]
    simp

end

/-- A TAP out of reset. -/
def fresh : TapState × ReveTap := (.testLogicReset, ⟨.ofNat 50 0, 0, []⟩)

/-- On a controller without `virtual`, after `halt` and a read, all is accepted; on the simulator's,
whose `virtual` is `False`, only where there is nothing to accept. -/
theorem allAccepted_read :
    let L := JtagSimController.lawful ((ReveTap.machine fun _ => .ofNat 50 0).shows fresh)
    AllAccepted (fun _ => .ofNat 50 0) L none ⟨.testLogicReset, ⟨none, []⟩⟩
        [.resetdm, .halt, .writereg 5 (-1), .readreg 5] ∧
      AllAccepted (fun _ => .ofNat 50 0) L (some false) ⟨.testLogicReset, ⟨none, []⟩⟩ [.resetdm, .readapb 17] ∧
      ¬ AllAccepted (fun _ => .ofNat 50 0) L (some false) ⟨.testLogicReset, ⟨none, []⟩⟩ [.readreg 5] := by
  intro L
  have hstart : Starts fresh := ⟨by decide, by decide⟩
  refine ⟨(allAccepted_iff _ L ⟨trivial, rfl, rfl⟩ hstart rfl none ?_).mpr (Or.inl ⟨rfl, by simp [settles]⟩),
    (allAccepted_iff _ L ⟨trivial, rfl, rfl⟩ hstart rfl (some false) ?_).mpr (Or.inr (by simp [asksWrite])),
    fun h => ?_⟩
  · intro op hop
    simp only [List.mem_cons, List.not_mem_nil, or_false] at hop
    rcases hop with rfl | rfl | rfl | rfl <;> trivial
  · intro op hop
    simp only [List.mem_cons, List.not_mem_nil, or_false] at hop
    rcases hop with rfl | rfl
    · trivial
    · exact (by decide : (0 : ℤ) ≤ 17 ∧ (17 : ℤ) < 128)
  · have hops : ∀ op ∈ [ReveOCD.Op.readreg 5], op.InRange := by
      intro op hop
      obtain rfl := List.mem_singleton.mp hop
      trivial
    have hcond := (allAccepted_iff _ L ⟨trivial, rfl, rfl⟩ hstart rfl (some false) hops).mp h
    simp [asksWrite] at hcond

/-- **After `halt` alone the request is still active**: the write that takes it back waits. On the simulator's
controller, whose `virtual` is `False`, neither write has been accepted. -/
theorem halt_not_accepted :
    let L := JtagSimController.lawful ((ReveTap.machine fun _ => .ofNat 50 0).shows fresh)
    JtagOCDEngine.At L ⟨.testLogicReset, ⟨none, []⟩⟩ fresh.1 ⟨none, []⟩ ∧ Starts fresh ∧ fresh.2.accepted = [] ∧
      ReveOCD.Op.halt.InRange ∧
      ¬ AllAccepted (fun _ => .ofNat 50 0) L (some false) ⟨.testLogicReset, ⟨none, []⟩⟩ [.halt] ∧
      ¬ AllAccepted (fun _ => .ofNat 50 0) L none ⟨.testLogicReset, ⟨none, []⟩⟩ [.halt] := by
  intro L
  have hops : ∀ op ∈ [ReveOCD.Op.halt], op.InRange := by
    intro op hop
    obtain rfl := List.mem_singleton.mp hop
    trivial
  have hat : JtagOCDEngine.At L ⟨.testLogicReset, ⟨none, []⟩⟩ fresh.1 ⟨none, []⟩ := ⟨trivial, rfl, rfl⟩
  have hstart : Starts fresh := ⟨by decide, by decide⟩
  refine ⟨hat, hstart, rfl, trivial, ?_, ?_⟩
  · obtain ⟨r, e', u, hrun, hdeaf, -, hwrote⟩ := runSession_deaf (fun _ => .ofNat 50 0) L hat hstart rfl false hops
    rw [allAccepted_of_ok _ hrun, accepted_of_deaf _ hdeaf, hwrote]
    decide
  · obtain ⟨r, e', u, hrun, htied, hwaiting, -⟩ := runSession_tied (fun _ => .ofNat 50 0) L hat hstart rfl hops
    rw [allAccepted_of_ok _ hrun, accepted_of_tied _ htied, hwaiting]
    decide

end Reve

end PyOcdRiscv.Ocd
