import PyOcdRiscv.Ocd.Session

/-!
# What a read returns

A target marks the words it answers with: a response of Murax or Saxon begins with a
valid and an error bit, and one of Pulp or Reve with the status of the request before.
No driver looks at these bits. Every read of a register or of memory returns normally, and
returns the data field of what TDO showed in its last scan (`read_returns_field`), so that
it is the answer to the read's own request only if the target had it ready at that
scan. `LastScan` is what a program that ends so comes to.
-/

namespace PyOcdRiscv.Ocd

open Lib Jtag

/-! ### The reads -/

/-- A call of the client, and the word it returns if it returns one. -/
def SessionOp.returns (u : Setup) (d : Objects) : SessionOp → Prog Engine (Option ℕ)
  | .engine o => do
    let _ ← Prog.op (I := Engine) o
    return none
  | .murax op => do
    let r ← debugProg (MuraxOCD.call u.port) op
    return r.1
  | .saxon op => do
    let r ← debugProg (SaxonOCD.call (SaxonOCD.init u.port u.corenr)) op
    return r.1
  | .pulp op => do
    let r ← Prog.lower (PulpOCD.dmi u.irlen u.virtual).call (PulpOCD.exec d.pulp op) d.pulpIr
    return r.1.1
  | .reve op => do
    let r ← Prog.lower (ReveOCD.dmi u.irlen u.virtual).call (ReveOCD.exec d.reve op) d.reveIr
    return r.1.1

/-- The reads of a register or of memory. -/
def SessionOp.Reads : SessionOp → Prop
  | .murax (.readreg _) | .murax (.readmem _) | .saxon (.readreg _) | .saxon (.readmem _)
  | .pulp (.readreg _) | .pulp (.readbus _) | .reve (.readreg _) | .reve (.readmem _) => True
  | _ => False

/-- The bits shifted in by the scan that a response comes out of. A `read_dr` shifts one more
than it returns. -/
def DebugPort.responseScan (port : DebugPort) : BitSequence :=
  if port.virtual then BitSequence.ofInt 1 false 36 else List.replicate 35 false

/-- How many bits come before the response: the hub's header. -/
def DebugPort.responseHeader (port : DebugPort) : ℕ := if port.virtual then 2 else 0

/-- The bits shifted in by the last scan of a read. -/
def SessionOp.scan (u : Setup) : SessionOp → BitSequence
  | .murax _ | .saxon _ => u.port.responseScan
  | .pulp _ => List.replicate (41 + 1) false
  | .reve _ => List.replicate (50 + 1) false
  | .engine _ => []

/-- **The response**, from its two status bits on, that a target shows in the last scan of a
read, if it had seen the edges `h` before it. -/
def SessionOp.response (u : Setup) (tdo : History → Bool) (h : History) (op : SessionOp) : List Bool :=
  match op with
  | .murax _ | .saxon _ => (sample tdo h (bitEdges (op.scan u))).drop u.port.responseHeader
  | _ => sample tdo h (bitEdges (op.scan u))

/-- The response says itself that its data is not valid: `valid` is 0 or `error` is 1, or
the status is not 0. -/
def SessionOp.Marked (op : SessionOp) (response : List Bool) : Prop :=
  match op with
  | .murax _ | .saxon _ => response[0]? = some false ∨ response[1]? = some true
  | _ => response[0]? = some true ∨ response[1]? = some true

/-! ### Programs that end with a scan -/

section

variable {σ : Type} {C : Controller σ} {tdo : History → Bool} (L : C.Lawful tdo) (t : TapState)

/-- The program, from state `s` of the state machine, does not fail; its last scan shifts the
bits `l` into the data register, and what it returns is made of what comes out as `Q`
says. -/
def LastScan {α : Type} (p : Prog Engine α) (s : TapState) (l : BitSequence) (Q : List Bool → α → Prop) :
    Prop :=
  ∀ h e, t.after h = s → JtagOCDEngine.At L e s ⟨none, h⟩ → ∃ a e' h',
    p.exec (JtagOCDEngine.handler C) e = .ok a e' ∧ h <+: h' ∧ t.after h' = .shiftDr ∧
      JtagOCDEngine.At L e' .updateDr ⟨none, h' ++ scanEdges l⟩ ∧ Q (sample tdo h' (bitEdges l)) a

namespace LastScan

variable {L t} {α β γ : Type} {s : TapState} {l : BitSequence} {Q : List Bool → α → Prop}

/-- What comes before is a program that fits. -/
theorem bind {p : Prog Engine β} {f : β → Prog Engine α}
    (hp : Fitting p s fun b s' => LastScan L t (f b) s' l Q) : LastScan L t (p >>= f) s l Q := by
  induction p generalizing s with
  | done b => exact hp
  | call o k ih =>
    intro h e hs he
    obtain ⟨e₁, hrun, he₁⟩ := JtagOCDEngine.handler_eq he hp.1
    have hafter : t.after (h ++ o.edges s) = o.leaves s := by
      rw [TapState.after_append, hs, EngineCall.after_edges hp.1]
    obtain ⟨a, e', h', hexec, hpre, hrest⟩ := ih _ (hp.2 _) _ e₁ hafter he₁
    refine ⟨a, e', h', ?_, (List.prefix_append _ _).trans hpre, hrest⟩
    rw [Prog.exec_bind] at hexec ⊢
    rw [Prog.exec, bind_assoc, Prog.bind_ok hrun, hexec]

/-- What comes after makes no calls. -/
theorem map {p : Prog Engine β} {g : β → α} {P : List Bool → β → Prop} (hp : LastScan L t p s l P)
    (hQ : ∀ r b, P r b → Q r (g b)) : LastScan L t (p >>= fun b => pure (g b)) s l Q := by
  intro h e hs he
  obtain ⟨b, e', h', hexec, hpre, hafter, he', hb⟩ := hp h e hs he
  refine ⟨g b, e', h', ?_, hpre, hafter, he', hQ _ _ hb⟩
  rw [Prog.exec_bind, Prog.bind_ok hexec]
  rfl

/-- The scan is preceded by a move to Shift-DR. -/
theorem after_shiftDr {h : History} (hs : t.after h = s) :
    t.after (h ++ moveEdges false (JtagStateMachine.events s .shiftDr)) = .shiftDr := by
  rw [TapState.after_append, hs, after_moves]

/-- `read_dr`. -/
theorem readDr {n : ℕ} (hn : 0 < n ∧ n < 512) : LastScan L t (Engine.readDr n) s (List.replicate (n + 1) false)
    fun r a => a = r.take n := by
  intro h e hs he
  obtain ⟨e', hrun, he'⟩ := JtagOCDEngine.readDr_eq he hn.2
  refine ⟨_, e', h ++ moveEdges false (JtagStateMachine.events s .shiftDr), ?_, List.prefix_append _ _,
    after_shiftDr hs, ?_, rfl⟩
  · rw [Engine.readDr, Prog.exec_op]
    refine hrun.trans (congrArg (fun a => EStateM.Result.ok a e') ?_)
    have hlen : (sample tdo (h ++ moveEdges false (JtagStateMachine.events s .shiftDr))
        (dataEdges (List.replicate n false))).length = n := by simp
    rw [EngineCall.answer, asRead_eq (List.ne_nil_of_length_pos (by omega)), bitEdges_zeros, sample_append,
      List.take_left' hlen]
  · rw [scanFrom, ← List.append_assoc] at he'
    exact he'

/-- `readwrite_dr`. -/
theorem readwriteDr (hl : l ≠ [] ∧ l.length < 512) : LastScan L t (Engine.readwriteDr l) s l
    fun r a => a = value r := by
  intro h e hs he
  obtain ⟨e', hrun, he'⟩ := JtagOCDEngine.readwriteDr_eq he hl
  refine ⟨_, e', h ++ moveEdges false (JtagStateMachine.events s .shiftDr), ?_, List.prefix_append _ _,
    after_shiftDr hs, ?_, rfl⟩
  · rw [Engine.readwriteDr, Prog.exec_op]
    exact hrun
  · rw [scanFrom, ← List.append_assoc] at he'
    exact he'

/-- A method of a debug-bus driver: any calls, and then the rest. -/
theorem debug {call : (o : DebugCall) → Prog Engine (DebugBus.Res o)}
    (hcall : ∀ o s, Fitting (call o) s fun _ _ => True) (p : Prog DebugBus β) {f : β → Prog DebugBus γ}
    {Q : List Bool → γ × Unit → Prop}
    (hf : ∀ b s, LastScan L t (Prog.lower (fun o _ => do return (← call o, ())) (f b) ()) s l Q) :
    LastScan L t (Prog.lower (fun o _ => do return (← call o, ())) (p >>= f) ()) s l Q := by
  rw [Prog.lower_bind]
  exact bind ((fitting_lower s hcall p).mono fun b s' _ => hf b.1 s')

/-- A method of a DMI driver: calls that are in order, and then the rest. -/
theorem apb_of {dmi : Dmi} (h : dmi.Scannable) {adrs : List ℤ} {p : Prog Apb β} {f : β → Prog Apb γ} {x : Rest}
    {currentir : Option ℕ} {Q : List Bool → γ × Option ℕ → Prop} (hs : x.idle = true → s = .runTestIdle)
    (hp : InOrder adrs p x fun b x' => ∀ currentir s', (x'.idle = true → s' = .runTestIdle) →
      LastScan L t (Prog.lower dmi.call (f b) currentir) s' l Q) :
    LastScan L t (Prog.lower dmi.call (p >>= f) currentir) s l Q := by
  rw [Prog.lower_bind]
  refine bind ((Prog.Follows.lower (R := fun (x : Rest) (_ : Option ℕ) s => x.idle = true → s = .runTestIdle)
    ?_ hp hs).mono ?_)
  · intro o x currentir s hx ho
    exact h.call ho hx currentir
  · rintro r s' ⟨x', hs', hf⟩
    exact hf r.2 s' hs'

/-- A call that is in order wherever it is made. -/
theorem apb {dmi : Dmi} (h : dmi.Scannable) (adrs : List ℤ) {p : Prog Apb β} {f : β → Prog Apb γ}
    {Q : List Bool → γ × Option ℕ → Prop} (hp : ∀ x, InOrder adrs p x fun _ _ => True)
    (hf : ∀ b currentir s, LastScan L t (Prog.lower dmi.call (f b) currentir) s l Q) (currentir : Option ℕ)
    (s : TapState) : LastScan L t (Prog.lower dmi.call (p >>= f) currentir) s l Q :=
  apb_of h (x := ⟨none, false⟩) (fun hf => absurd hf (by decide))
    ((hp _).mono fun b _ _ currentir s _ => hf b currentir s)

end LastScan

/-! ### The two ways to take a word out of a scan -/

variable {L t}

theorem land_shiftRight (r : List Bool) : land (value r >>> 2 : ℕ) 0xffffffff = field 2 32 r := by
  have hmask : land (value r >>> 2 : ℕ) 0xffffffff = ((value r >>> 2 : ℕ) % 2 ^ 32 : ℤ).toNat :=
    land_ones _ 32
  rw [field_eq, ← Nat.shiftRight_eq_div_pow, hmask]
  norm_cast

/-- What `read_dr` shifts beyond the response does not matter. -/
theorem field_take {n : ℕ} (hn : 34 ≤ n) (r : List Bool) : field 2 32 (r.take n) = field 2 32 r := by
  rw [field, field, List.drop_take, List.take_take, Nat.min_eq_left (by omega)]

theorem lastScan_readResponse (u : Setup) (s : TapState) :
    LastScan L t u.port.readResponse s u.port.responseScan
      fun r a => a = field 2 32 (r.drop u.port.responseHeader) := by
  unfold DebugPort.readResponse DebugPort.responseScan DebugPort.responseHeader
  split_ifs with hv
  · refine LastScan.map (LastScan.readwriteDr (Fitting.ofInt_ok (by decide) (by decide) 1)) ?_
    rintro r _ rfl
    rw [← land_shiftRight, Nat.shiftRight_eq_div_pow (value r), ← value_drop]
  · refine LastScan.bind ?_
    rw [Fitting.writeIr_iff]
    refine ⟨Fitting.ofInt_ok u.irlen_pos u.irlen_lt 3, LastScan.map (LastScan.readDr (by decide)) ?_⟩
    rintro r _ rfl
    rw [BitSequence.toInt_eq, land_shiftRight, field_take (le_refl 34), List.drop_zero]

theorem lastScan_readapb {dmi : Dmi} (h : dmi.Scannable) (hwidth : 34 ≤ dmi.width) (adr : ℤ)
    (currentir : Option ℕ) (s : TapState) :
    LastScan L t (dmi.readapb adr currentir) s (List.replicate (dmi.width + 1) false)
      fun r a => a.1 = field 2 32 r := by
  rw [Dmi.readapb]
  refine LastScan.bind (h.selectIr 0x11 currentir fun s' => LastScan.bind ?_)
  rw [Fitting.writeDr_iff]
  refine ⟨Fitting.ofInt_ok h.width_pos h.width_lt _, LastScan.bind ?_⟩
  rw [Fitting.goIdle_iff]
  refine LastScan.bind (Fitting.idleCycles _ _ ?_)
  refine LastScan.map (LastScan.readDr ⟨h.width_pos, h.width_lt⟩) ?_
  rintro r _ rfl
  dsimp only
  rw [BitSequence.toInt_eq, land_shiftRight, field_take hwidth]

/-! ### The drivers -/

theorem lastScan_debug {u : Setup} {call : (o : DebugCall) → Prog Engine (DebugBus.Res o)}
    (hcall : ∀ o s, Fitting (call o) s fun _ _ => True)
    (hrsp : ∀ adr s, LastScan L t (call (.readrsp adr)) s u.port.responseScan
      fun r a => a = field 2 32 (r.drop u.port.responseHeader))
    {op : DebugOCD.Op} (hop : (∃ r, op = .readreg r) ∨ ∃ a, op = .readmem a) (s : TapState) :
    LastScan L t (do let r ← debugProg call op; return r.1) s u.port.responseScan
      fun r a => a = some (field 2 32 (r.drop u.port.responseHeader)) := by
  have hread (adr : ℤ) (s : TapState) :
      LastScan L t (Prog.lower (fun o _ => do return (← call o, ()))
        (do let val ← DebugBus.readrsp adr; return some val) ()) s u.port.responseScan
        fun r a => a.1 = some (field 2 32 (r.drop u.port.responseHeader)) := by
    rw [Prog.lower_bind, DebugBus.readrsp, Prog.lower_op, Prog.assoc]
    refine LastScan.map (hrsp adr s) ?_
    rintro r _ rfl
    rfl
  refine LastScan.map (P := fun r a => a.1 = some (field 2 32 (r.drop u.port.responseHeader))) ?_
    fun _ _ h => h
  rcases hop with ⟨r, rfl⟩ | ⟨a, rfl⟩
  · simp only [debugProg, DebugOCD.exec, DebugOCD.readreg, Prog.assoc]
    exact LastScan.debug hcall _ fun _ s => hread 4 s
  · simp only [debugProg, DebugOCD.exec, DebugOCD.readmem, Prog.assoc]
    exact LastScan.debug hcall _ fun _ s => LastScan.debug hcall _ fun _ s => hread 4 s

/-- A `readapb` at the end of a call. -/
theorem lastScan_apb {dmi : Dmi} (h : dmi.Scannable) (hwidth : 34 ≤ dmi.width) {γ : Type} (g : γ) (adr : ℤ)
    (currentir : Option ℕ) (s : TapState) :
    LastScan L t (Prog.lower dmi.call (do let val ← Apb.readapb adr; return (some val, g)) currentir) s
      (List.replicate (dmi.width + 1) false) fun r a => a.1.1 = some (field 2 32 r) := by
  rw [Prog.lower_bind, Apb.readapb, Prog.lower_op]
  refine LastScan.map (lastScan_readapb h hwidth adr currentir s) ?_
  rintro r a ha
  exact congrArg some ha

theorem lastScan_pulp (u : Setup) (d : Objects) {op : PulpOCD.Op} (hop : (SessionOp.pulp op).Reads) (s : TapState) :
    LastScan L t ((SessionOp.pulp op).returns u d) s ((SessionOp.pulp op).scan u)
      fun r a => a = some (field 2 32 r) := by
  have hpulp : (PulpOCD.dmi u.irlen u.virtual).Scannable :=
    ⟨u.irlen_pos, u.irlen_lt, (by decide : 0 < 41), (by decide : 41 < 512)⟩
  -- both reads wait in Run-Test/Idle before their `readapb`
  have hwait (adr : ℤ) := LastScan.apb (L := L) (t := t) hpulp [] (γ := Option ℕ × PulpOCD)
    (p := do Apb.goIdle; Apb.idleCycles 9 7)
    (fun x => by
      rw [InOrder.bind_iff, InOrder.goIdle_iff]
      exact InOrder.idleCycles rfl 9 (by decide) trivial)
    fun _ => lastScan_apb hpulp (show 34 ≤ 41 by decide) d.pulp adr
  simp only [Prog.assoc] at hwait
  refine LastScan.map (P := fun r a => a.1.1 = some (field 2 32 r)) ?_ fun _ _ h => h
  cases op with
  | readreg r =>
    simp only [PulpOCD.exec, PulpOCD.readreg, Prog.assoc]
    exact LastScan.apb hpulp [PulpOCD.ABSTRACTCMDREG] (by simp) (fun _ => hwait _) _ s
  | readbus adr =>
    simp only [PulpOCD.exec, PulpOCD.readbus, Prog.assoc]
    refine LastScan.apb hpulp [PulpOCD.SYSTEMBUSCONTROLREG] (by simp) (fun _ => ?_) _ s
    exact LastScan.apb hpulp [PulpOCD.SYSTEMBUSADR0] (by simp) fun _ => hwait _
  | _ => exact hop.elim

theorem lastScan_reve (u : Setup) (d : Objects) {op : ReveOCD.Op} (hop : (SessionOp.reve op).Reads) (s : TapState) :
    LastScan L t ((SessionOp.reve op).returns u d) s ((SessionOp.reve op).scan u)
      fun r a => a = some (field 2 32 r) := by
  have hreve : (ReveOCD.dmi u.irlen u.virtual).Scannable :=
    ⟨u.irlen_pos, u.irlen_lt, (by decide : 0 < 50), (by decide : 50 < 512)⟩
  -- both end with `readreg`
  have hread (adr : ℤ) := LastScan.apb (L := L) (t := t) hreve [ReveOCD.ABSTRACTCMDREG]
    (γ := Option ℕ × ReveOCD) (p := do Apb.writeapb ReveOCD.ABSTRACTCMDREG adr; Apb.goIdle)
    (by simp) fun _ => lastScan_apb hreve (show 34 ≤ 50 by decide) d.reve ReveOCD.ABSTRACTDATAREG
  simp only [Prog.assoc] at hread
  refine LastScan.map (P := fun r a => a.1.1 = some (field 2 32 r)) ?_ fun _ _ h => h
  cases op with
  | readreg r =>
    simp only [ReveOCD.exec, ReveOCD.readreg, Prog.assoc]
    exact hread _ _ s
  | readmem adr =>
    simp only [ReveOCD.exec, ReveOCD.readmem, ReveOCD.pushins, ReveOCD.readreg, Prog.assoc]
    have hadrs : ReveOCD.PROGBUFFERREG ∈ [ReveOCD.PROGBUFFERREG, ReveOCD.ABSTRACTCMDREG] ∧
        ReveOCD.ABSTRACTCMDREG ∈ [ReveOCD.PROGBUFFERREG, ReveOCD.ABSTRACTCMDREG] := by simp
    refine LastScan.apb hreve _ (fun x => ReveOCD.inOrder_pushConst hadrs.1 hadrs.2 1 adr x trivial)
      (fun _ => ?_) _ s
    refine LastScan.apb hreve [ReveOCD.PROGBUFFERREG] (by simp) fun _ => ?_
    refine LastScan.apb hreve [ReveOCD.ABSTRACTCMDREG] (by simp) fun _ => ?_
    exact LastScan.apb hreve [] (by simp) fun _ => hread _
  | _ => exact hop.elim

/-- **A read ends with its scan**, whatever it is and whoever makes it. -/
theorem SessionOp.lastScan (u : Setup) (d : Objects) {op : SessionOp} (hop : op.Reads) (s : TapState) :
    LastScan L t (op.returns u d) s (op.scan u) fun r a =>
      a = some (field 2 32 (match op with
        | .murax _ | .saxon _ => r.drop u.port.responseHeader
        | _ => r)) := by
  cases op with
  | engine o => exact hop.elim
  | murax op =>
    refine lastScan_debug (fun o s => fitting_murax u s o) ?_ ?_ s
    · intro adr s
      rw [MuraxOCD.call, MuraxOCD.readrsp]
      exact LastScan.bind (fitting_sendCommand u s _ _ _ _ fun s' => lastScan_readResponse u s')
    · cases op <;> first | exact hop.elim | exact Or.inl ⟨_, rfl⟩ | exact Or.inr ⟨_, rfl⟩
  | saxon op =>
    refine lastScan_debug (fun o s => fitting_saxon u s o) ?_ ?_ s
    · intro adr s
      rw [SaxonOCD.call, SaxonOCD.readrsp]
      exact LastScan.bind (fitting_sendCommand u s _ _ _ _ fun s' => lastScan_readResponse u s')
    · cases op <;> first | exact hop.elim | exact Or.inl ⟨_, rfl⟩ | exact Or.inr ⟨_, rfl⟩
  | pulp op => exact lastScan_pulp u d hop s
  | reve op => exact lastScan_reve u d hop s

/-- **A read returns what it finds.** Each read of each driver, in any state that other calls
leave, does not fail, and returns the data field of the response that TDO shows in its last
scan, whatever the status bits before it are and whenever the target made it. -/
theorem read_returns_field (u : Setup) (d : Objects) {op : SessionOp} (hop : op.Reads) {h : History}
    {e : EngineState σ} (he : JtagOCDEngine.At L e (t.after h) ⟨none, h⟩) : ∃ e' h',
    (op.returns u d).exec (JtagOCDEngine.handler C) e =
        .ok (some (field 2 32 (op.response u tdo h'))) e' ∧
      h <+: h' ∧ t.after h' = .shiftDr ∧
      JtagOCDEngine.At L e' .updateDr ⟨none, h' ++ scanEdges (op.scan u)⟩ := by
  obtain ⟨a, e', h', hexec, hpre, hafter, he', rfl⟩ := SessionOp.lastScan u d hop _ h e rfl he
  refine ⟨e', h', ?_, hpre, hafter, he'⟩
  rw [hexec]
  cases op <;> rfl

/-- The drivers of a TAP whose instructions have 5 bits. -/
def Setup.tap : Setup := ⟨5, none, 0, by decide, by decide⟩

/-- A read of memory over the system bus. -/
theorem read_returns_field_bus : ∃ e' h',
    ((SessionOp.pulp (.readbus 0x100)).returns Setup.tap Objects.init).exec
        (JtagOCDEngine.handler (JtagSimController.controller fun h => h.length % 2 == 1))
        ⟨.runTestIdle, none, []⟩ =
        .ok (some (field 2 32 ((SessionOp.pulp (.readbus 0x100)).response Setup.tap
          (fun h => h.length % 2 == 1) h'))) e' ∧
      [] <+: h' ∧ TapState.after .runTestIdle h' = .shiftDr ∧
      JtagOCDEngine.At (JtagSimController.lawful fun h => h.length % 2 == 1) e' .updateDr
        ⟨none, h' ++ scanEdges (List.replicate 42 false)⟩ :=
  read_returns_field (L := JtagSimController.lawful fun h => h.length % 2 == 1) (t := .runTestIdle)
    Setup.tap Objects.init (show SessionOp.Reads (.pulp (.readbus 0x100)) from trivial) ⟨trivial, rfl, rfl⟩

variable (L t) in
/-- A read returns the data field of a response that says itself that it is not valid. -/
def ReturnsMarked (u : Setup) (d : Objects) (op : SessionOp) : Prop :=
  ∃ h e e' h', JtagOCDEngine.At L e (t.after h) ⟨none, h⟩ ∧
    (op.returns u d).exec (JtagOCDEngine.handler C) e =
      .ok (some (field 2 32 (op.response u tdo h'))) e' ∧
    JtagOCDEngine.At L e' .updateDr ⟨none, h' ++ scanEdges (op.scan u)⟩ ∧
    op.Marked (op.response u tdo h')

theorem sample_high (h : History) (es : List Edge) :
    sample (fun _ => true) h es = List.replicate es.length true := by
  induction es generalizing h with
  | nil => rfl
  | cons e es ih => rw [sample_cons, ih, List.length_cons, List.replicate_succ]

/-- Where TDO is high all the time, as it is with nothing connected to it, every response is
marked: the error bit is set, and the status is 3. -/
theorem marked_high (u : Setup) {op : SessionOp} (hop : op.Reads) (h : History) :
    op.Marked (op.response u (fun _ => true) h) := by
  have hlen : ∃ n, (bitEdges u.port.responseScan).length = u.port.responseHeader + (n + 2) := by
    unfold DebugPort.responseScan DebugPort.responseHeader
    split_ifs
    · exact ⟨32, by rw [BitSequence.ofInt_eq (by decide)]; simp [bitEdges]⟩
    · exact ⟨33, by simp [bitEdges]⟩
  obtain ⟨n, hn⟩ := hlen
  have hdebug : (List.drop u.port.responseHeader
      (sample (fun _ => true) h (bitEdges u.port.responseScan)))[1]? = some true := by
    rw [sample_high, hn, List.drop_replicate, Nat.add_sub_cancel_left]
    simp
  cases op with
  | engine o => exact hop.elim
  | murax op => exact Or.inr hdebug
  | saxon op => exact Or.inr hdebug
  | pulp op => exact Or.inl (by simp [SessionOp.response, SessionOp.scan, bitEdges])
  | reve op => exact Or.inl (by simp [SessionOp.response, SessionOp.scan, bitEdges])

end

theorem returnsMarked_high (u : Setup) (d : Objects) {op : SessionOp} (hop : op.Reads) :
    ReturnsMarked (JtagSimController.lawful fun _ => true) .runTestIdle u d op := by
  obtain ⟨a, e', h', hexec, -, -, he', rfl⟩ := SessionOp.lastScan
    (L := JtagSimController.lawful fun _ => true) (t := .runTestIdle) u d hop .runTestIdle []
    ⟨.runTestIdle, none, []⟩ rfl ⟨trivial, rfl, rfl⟩
  refine ⟨[], ⟨.runTestIdle, none, []⟩, e', h', ⟨trivial, rfl, rfl⟩, ?_, he', marked_high u hop h'⟩
  rw [hexec]
  cases op <;> rfl

/-- Each driver returns a word that its target marks as not valid. -/
theorem returns_not_valid :
    ReturnsMarked (JtagSimController.lawful fun _ => true) .runTestIdle Setup.tap Objects.init
        (.murax (.readmem 0)) ∧
      ReturnsMarked (JtagSimController.lawful fun _ => true) .runTestIdle Setup.tap Objects.init
        (.saxon (.readreg 5)) ∧
      ReturnsMarked (JtagSimController.lawful fun _ => true) .runTestIdle Setup.tap Objects.init
        (.pulp (.readbus 0)) ∧
      ReturnsMarked (JtagSimController.lawful fun _ => true) .runTestIdle Setup.tap Objects.init
        (.reve (.readreg 5)) :=
  ⟨returnsMarked_high _ _ trivial, returnsMarked_high _ _ trivial, returnsMarked_high _ _ trivial,
    returnsMarked_high _ _ trivial⟩

end PyOcdRiscv.Ocd
