import PyOcdRiscv.Jtag.SameWire
import PyOcdRiscv.Ocd.Command
import PyOcdRiscv.Target.JtagBridgeNoTap

/-!
# The two transports of Murax

The calls of `MuraxOCD` down to the debug bus, through the bridge with a TAP and through
the one behind the hub. A `Link` is what a transport is for: a command that is sent
reaches the bus, and a response scan reads the response to the last one, unless the bus
was late. What a session of calls comes to follows from that alone (`Link.session`), so it
is the same over both (`same_on_bus`).
-/

namespace PyOcdRiscv.Ocd

open Lib Jtag Target

open JtagStateMachine (events)

/-- A call on a `MuraxOCD`. -/
inductive MuraxCall where
  /-- `writecmd(adr, data, size, write)`. -/
  | writecmd (adr data : ℤ) (size : Fin 4) (write : Fin 2)
  /-- `readrsp(adr)`. -/
  | readrsp (adr : ℤ)
  deriving DecidableEq

namespace MuraxCall

/-- The command that a call is for. -/
def command : MuraxCall → Command
  | .writecmd adr data size write => ⟨(adr % 2 ^ 32).toNat, (data % 2 ^ 32).toNat, write, size⟩
  | .readrsp adr => ⟨(adr % 2 ^ 32).toNat, 0, 0, 2⟩

/-- A call, and the word it returns if it returns one. -/
def run (self : DebugPort) : MuraxCall → Prog Engine (Option ℕ)
  | .writecmd adr data size write => do
    MuraxOCD.writecmd self adr data size write
    return none
  | .readrsp adr => do
    let val ← MuraxOCD.readrsp self adr
    return some val

/-- Calls one after the other. -/
def session (self : DebugPort) : List MuraxCall → Prog Engine (List (Option ℕ))
  | [] => pure []
  | c :: cs => do
    let r ← c.run self
    let rs ← session self cs
    return r :: rs

/-- What calls return after the commands `all`: each `readrsp` the response to its own
command. -/
def answers (answer : List Command → Word) : List Command → List MuraxCall → List (Option ℕ)
  | _, [] => []
  | all, c :: cs =>
    (match c with
      | .writecmd _ _ _ _ => none
      | .readrsp _ => some (answer (all ++ [c.command])).toNat) ::
        answers answer (all ++ [c.command]) cs

end MuraxCall

/-! ### The frame and the word -/

/-- The data bits of a frame. -/
def frameData (adr data : ℤ) (size write : ℕ) : List Bool :=
  bits 32 (land adr 0xffffffff) ++ (bits 32 (land data 0xffffffff) ++ (bits 1 write ++ bits 2 size))

theorem length_frameData (adr data : ℤ) (size write : ℕ) : (frameData adr data size write).length = 67 := by
  simp [frameData]

/-- **The debugger finds the fields of a frame** where the code put them. -/
theorem ofData_frameData (adr data : ℤ) {size write : ℕ} (hsize : size < 4) (hwrite : write < 2) :
    Command.ofData (frameData adr data size write) =
      ⟨(adr % 2 ^ 32).toNat, (data % 2 ^ 32).toNat, write, size⟩ := by
  have ha : land adr 0xffffffff < 2 ^ 32 := land_ones_lt adr 32
  have hd : land data 0xffffffff < 2 ^ 32 := land_ones_lt data 32
  rw [← land_ones adr 32, ← land_ones data 32]
  ext1
  · change field 0 32 (frameData adr data size write) = _
    rw [field, List.drop_zero, frameData, List.take_left' (by simp)]
    exact value_bits_of_lt ha
  · change field 32 32 (frameData adr data size write) = _
    rw [field, frameData, List.drop_left' (by simp), List.take_left' (by simp)]
    exact value_bits_of_lt hd
  · change field 64 1 (frameData adr data size write) = _
    rw [field, frameData, ← List.append_assoc, List.drop_left' (by simp), List.take_left' (by simp)]
    exact value_bits_of_lt hwrite
  · change field 65 2 (frameData adr data size write) = _
    rw [field, frameData, ← List.append_assoc, ← List.append_assoc, List.drop_left' (by simp),
      List.take_of_length_le (by simp)]
    exact value_bits_of_lt hsize

/-- The word behind the two bits of a response. -/
theorem land_response (valid error : Bool) (w : Word) :
    land (value (valid :: error :: bits 32 w.toNat) >>> 2 : ℕ) 0xffffffff = w.toNat := by
  have hvalue : value (valid :: error :: bits 32 w.toNat) >>> 2 = w.toNat := by
    rw [Nat.shiftRight_eq_div_pow, ← value_drop]
    exact value_bits_of_lt w.isLt
  rw [hvalue]
  have hmask := land_ones w.toNat 32
  rw [Int.emod_eq_of_lt (by omega) (by exact_mod_cast w.isLt), Int.toNat_natCast] at hmask
  exact hmask

/-! ### What a transport is for -/

/-- A transport, as the calls see it: when it works, and what the two scans do. -/
structure Link {σ : Type} (C : Controller σ) (port : DebugPort) (answer : List Command → Word) where
  /-- Between two calls, when the commands so far are `all`. -/
  Linked : List Command → EngineState σ → Prop
  /-- The bus has not been late. -/
  InTime : EngineState σ → Prop
  send : ∀ {all e} (adr data : ℤ) (size : Fin 4) (write : Fin 2), Linked all e → ∃ e',
    (port.sendCommand adr data size write).exec (JtagOCDEngine.handler C) e = .ok () e' ∧
      Linked (all ++ [(MuraxCall.writecmd adr data size write).command]) e' ∧ (InTime e' → InTime e)
  respond : ∀ {all e}, Linked all e → all ≠ [] → ∃ val e',
    port.readResponse.exec (JtagOCDEngine.handler C) e = .ok val e' ∧ Linked all e' ∧
      (InTime e' → InTime e ∧ val = (answer all).toNat)

namespace Link

variable {σ : Type} {C : Controller σ} {port : DebugPort} {answer : List Command → Word}
  (K : Link C port answer)

/-- **A call** puts its command on the bus, and returns the response to it. -/
theorem run (c : MuraxCall) {all : List Command} {e : EngineState σ} (he : K.Linked all e) : ∃ r e',
    (c.run port).exec (JtagOCDEngine.handler C) e = .ok r e' ∧ K.Linked (all ++ [c.command]) e' ∧
      (K.InTime e' → K.InTime e ∧ [r] = MuraxCall.answers answer all [c]) := by
  cases c with
  | writecmd adr data size write =>
    obtain ⟨e', hrun, he', htime⟩ := K.send adr data size write he
    refine ⟨none, e', ?_, he', fun h => ⟨htime h, rfl⟩⟩
    rw [MuraxCall.run, MuraxOCD.writecmd, Prog.exec_bind, Prog.bind_ok hrun]
    rfl
  | readrsp adr =>
    obtain ⟨e₁, hrun₁, he₁, htime₁⟩ := K.send adr 0 2 0 he
    obtain ⟨val, e₂, hrun₂, he₂, htime₂⟩ := K.respond he₁ (by simp)
    refine ⟨some val, e₂, ?_, he₂, fun h => ⟨htime₁ (htime₂ h).1, ?_⟩⟩
    · rw [MuraxCall.run, MuraxOCD.readrsp, Prog.exec_bind, Prog.exec_bind]
      change (((port.sendCommand adr 0 (2 : Fin 4) (0 : Fin 2)).exec _ >>= _) >>= _) e = _
      rw [bind_assoc, Prog.bind_ok hrun₁, Prog.bind_ok hrun₂]
      rfl
    · rw [(htime₂ h).2]
      rfl

/-- **A session** puts the commands of its calls on the bus, in the order of the calls,
and each `readrsp` returns the response to its own. -/
theorem session (cs : List MuraxCall) {all : List Command} {e : EngineState σ} (he : K.Linked all e) :
    ∃ rs e', (MuraxCall.session port cs).exec (JtagOCDEngine.handler C) e = .ok rs e' ∧
      K.Linked (all ++ cs.map MuraxCall.command) e' ∧
      (K.InTime e' → K.InTime e ∧ rs = MuraxCall.answers answer all cs) := by
  induction cs generalizing all e with
  | nil => exact ⟨[], e, rfl, by simpa using he, fun h => ⟨h, rfl⟩⟩
  | cons c cs ih =>
    obtain ⟨r, e₁, hrun₁, he₁, hr⟩ := K.run c he
    obtain ⟨rs, e₂, hrun₂, he₂, hrs⟩ := ih he₁
    refine ⟨r :: rs, e₂, ?_, by simpa using he₂, fun h => ⟨(hr (hrs h).1).1, ?_⟩⟩
    · rw [MuraxCall.session, Prog.exec_bind, Prog.bind_ok hrun₁, Prog.exec_bind, Prog.bind_ok hrun₂]
      rfl
    · rw [(hrs h).2]
      exact congrArg (· ++ MuraxCall.answers answer (all ++ [c.command]) cs) (hr (hrs h).1).2

end Link

/-! ### The two transports -/

section
variable {σ : Type} {C : Controller σ} {answer : List Command → Word} {T : Timing}

/-- The data bits of a call, as a command. -/
theorem ofData_call (adr data : ℤ) (size : Fin 4) (write : Fin 2) :
    Command.ofData (frameData adr data size write) = (MuraxCall.writecmd adr data size write).command :=
  ofData_frameData adr data size.isLt write.isLt

/-- A frame can be scanned. -/
theorem scanOk_commandFrame (virtual : Bool) (adr data : ℤ) (size : ℕ) (write : Fin 2) :
    ScanOk (commandFrame virtual adr data size write) true := by
  rw [commandFrame_eq virtual adr data size write.isLt]
  cases virtual with
  | true => exact JtagOCDEngine.scanOk ⟨by simp [headerLength], by simp [headerLength]⟩
  | false => exact JtagOCDEngine.scanOk ⟨by simp [headerLength], by simp [headerLength]⟩

/-- **The physical transport**: instruction 2 and 75 bits, instruction 3 and 34 bits. -/
def physicalLink {x : JtagBridge × DebugSide} (L : C.Lawful ((JtagBridge.bridge.system answer T).shows x)) :
    Link C ⟨4, false⟩ answer where
  Linked all e := ∃ t h, JtagOCDEngine.At L e t ⟨none, h⟩ ∧
    JtagBridge.Ready answer t all ((JtagBridge.bridge.system answer T).run x h)
  InTime e := ((JtagBridge.bridge.system answer T).run x (L.wire e.ctrl).history).2.late = false
  send := by
    rintro all e adr data size write ⟨t, h, hat, hready⟩
    obtain ⟨e₁, h₁, hat₁⟩ := JtagOCDEngine.writeIr_eq hat (l := bits 4 2)
      (JtagOCDEngine.scanOk ⟨by decide, by decide⟩)
    obtain ⟨e₂, h₂, hat₂⟩ := JtagOCDEngine.writeDr_eq hat₁ (scanOk_commandFrame false adr data size write)
    have hframe : commandFrame false adr data size write =
        List.replicate 8 false ++ frameData adr data size write :=
      commandFrame_eq false adr data size write.isLt
    rw [List.append_assoc, hframe] at hat₂
    refine ⟨e₂, ?_, ⟨.updateDr, _, hat₂, ?_⟩, ?_⟩
    · rw [DebugPort.sendCommand, if_neg (by decide), Engine.writeIr, Engine.writeDr, Prog.exec_bind,
        Prog.exec_op, Prog.exec_op]
      exact (Prog.bind_ok h₁).trans h₂
    · rw [Machine.run_append, ← ofData_call]
      exact JtagBridge.ready_command hready (length_frameData adr data size write)
    · rw [hat.wire, hat₂.wire, Machine.run_append]
      exact Bridge.late_of_run
  respond := by
    rintro all e ⟨t, h, hat, hready⟩ hall
    obtain ⟨e₁, h₁, hat₁⟩ := JtagOCDEngine.writeIr_eq hat (l := bits 4 3)
      (JtagOCDEngine.scanOk ⟨by decide, by decide⟩)
    obtain ⟨e₂, h₂, hat₂⟩ := JtagOCDEngine.readDr_eq hat₁ (n := 34) (by decide)
    have hedges : h ++ scanFrom t .shiftIr (bits 4 3) ++
        scanFrom .updateIr .shiftDr (List.replicate 35 false) =
        h ++ (JtagBridge.responseMoves t ++ scanEdges (List.replicate 35 false)) := by
      simp only [scanFrom, JtagBridge.responseMoves, List.append_assoc]
    rw [hedges] at hat₂
    obtain ⟨hready₂, houts⟩ := JtagBridge.ready_response (T := T) hready hall
    refine ⟨land (BitSequence.toInt (EngineCall.answer ((JtagBridge.bridge.system answer T).shows x)
      (h ++ scanFrom t .shiftIr (bits 4 3)) .updateIr (.readDr 34)) >>> 2 : ℕ) 0xffffffff, e₂, ?_,
      ⟨.updateDr, _, hat₂, ?_⟩, ?_⟩
    · rw [DebugPort.readResponse, if_neg (by decide), Engine.writeIr, Engine.readDr, Prog.exec_bind,
        Prog.exec_bind, Prog.exec_op, Prog.exec_op]
      exact (Prog.bind_ok h₁).trans (Prog.bind_ok h₂)
    · rw [Machine.run_append]
      exact hready₂
    · rw [hat.wire, hat₂.wire, Machine.run_append]
      intro hlate
      refine ⟨Bridge.late_of_run hlate, ?_⟩
      rw [Machine.run_append] at hlate
      obtain ⟨valid, error, hbits⟩ := houts (Bridge.late_of_run hlate)
      have hmoves : h ++ scanFrom t .shiftIr (bits 4 3) ++ moveEdges false (events .updateIr .shiftDr) =
          h ++ JtagBridge.responseMoves t := List.append_assoc ..
      rw [EngineCall.answer, hmoves, Machine.sample_shows, Machine.run_append, hbits, asRead_eq (by simp),
        BitSequence.toInt_eq, land_response]

/-- **The virtual transport**: 77 bits with the header 00, 36 bits with the header 01. -/
def virtualLink (irlen : ℕ) {x : VirtualBridge × DebugSide}
    (L : C.Lawful ((VirtualBridge.bridge.system answer T).shows x)) : Link C ⟨irlen, true⟩ answer where
  Linked all e := ∃ t h, JtagOCDEngine.At L e t ⟨none, h⟩ ∧
    VirtualBridge.Ready answer t all ((VirtualBridge.bridge.system answer T).run x h)
  InTime e := ((VirtualBridge.bridge.system answer T).run x (L.wire e.ctrl).history).2.late = false
  send := by
    rintro all e adr data size write ⟨t, h, hat, hready⟩
    obtain ⟨e', h', hat'⟩ := JtagOCDEngine.writeDr_eq hat (scanOk_commandFrame true adr data size write)
    have hframe : commandFrame true adr data size write =
        [false, false] ++ (List.replicate 8 false ++ frameData adr data size write) :=
      commandFrame_eq true adr data size write.isLt
    rw [hframe] at hat'
    refine ⟨e', ?_, ⟨.updateDr, _, hat', ?_⟩, ?_⟩
    · rw [DebugPort.sendCommand, if_pos rfl, Engine.writeDr, Prog.exec_op]
      exact h'
    · rw [Machine.run_append, ← ofData_call]
      exact VirtualBridge.ready_command hready (length_frameData adr data size write)
    · rw [hat.wire, hat'.wire, Machine.run_append]
      exact Bridge.late_of_run
  respond := by
    rintro all e ⟨t, h, hat, hready⟩ hall
    obtain ⟨e', h', hat'⟩ := JtagOCDEngine.readwriteDr_eq hat
      (⟨by decide, by decide⟩ : bits 36 1 ≠ [] ∧ (bits 36 1).length < 512)
    obtain ⟨hready', houts⟩ := VirtualBridge.ready_response (T := T) hready hall
    refine ⟨land (EngineCall.answer ((VirtualBridge.bridge.system answer T).shows x) h t
      (.readwriteDr (bits 36 1)) >>> 2 >>> 2 : ℕ) 0xffffffff, e', ?_, ⟨.updateDr, _, hat', ?_⟩, ?_⟩
    · rw [DebugPort.readResponse, if_pos rfl, Engine.readwriteDr, Prog.exec_bind, Prog.exec_op]
      exact Prog.bind_ok h'
    · rw [Machine.run_append]
      exact hready'
    · rw [hat.wire, hat'.wire, Machine.run_append]
      intro hlate
      refine ⟨Bridge.late_of_run hlate, ?_⟩
      obtain ⟨stale, valid, error, hstale, hbits⟩ := houts hlate
      have hdrop : value (stale ++ valid :: error :: bits 32 (answer all).toNat) >>> 2 =
          value (valid :: error :: bits 32 (answer all).toNat) := by
        rw [Nat.shiftRight_eq_div_pow, ← value_drop, List.drop_left' hstale]
      rw [EngineCall.answer, Machine.sample_shows, Machine.run_append, hbits, hdrop, land_response]

end

/-! ### Both at once -/

/-- **The two transports agree.** Whatever the bus responds and whenever it does, and from
any state in which the bridges rest: unless it was late, the same calls present it with
the same commands, one for each call and in the order of the calls, and each `readrsp`
returns the response to its own command. -/
theorem same_on_bus {answer : List Command → Word} {T₁ T₂ : Timing} {σ₁ σ₂ : Type} {C₁ : Controller σ₁}
    {C₂ : Controller σ₂} {x₁ : JtagBridge × DebugSide} {x₂ : VirtualBridge × DebugSide}
    (L₁ : C₁.Lawful ((JtagBridge.bridge.system answer T₁).shows x₁))
    (L₂ : C₂.Lawful ((VirtualBridge.bridge.system answer T₂).shows x₂)) {t₁ t₂ : TapState}
    {e₁ : EngineState σ₁} {e₂ : EngineState σ₂} (he₁ : JtagOCDEngine.At L₁ e₁ t₁ ⟨none, []⟩)
    (he₂ : JtagOCDEngine.At L₂ e₂ t₂ ⟨none, []⟩) (hx₁ : JtagBridge.Ready answer t₁ [] x₁)
    (hx₂ : VirtualBridge.Ready answer t₂ [] x₂) (irlen : ℕ) (cs : List MuraxCall) :
    ∃ rs₁ e₁' rs₂ e₂',
      (MuraxCall.session ⟨4, false⟩ cs).exec (JtagOCDEngine.handler C₁) e₁ = .ok rs₁ e₁' ∧
      (MuraxCall.session ⟨irlen, true⟩ cs).exec (JtagOCDEngine.handler C₂) e₂ = .ok rs₂ e₂' ∧
      (let d₁ := ((JtagBridge.bridge.system answer T₁).run x₁ (L₁.wire e₁'.ctrl).history).2
       let d₂ := ((VirtualBridge.bridge.system answer T₂).run x₂ (L₂.wire e₂'.ctrl).history).2
       d₁.late = false → d₂.late = false →
        d₁.presented = cs.map MuraxCall.command ∧ d₂.presented = cs.map MuraxCall.command ∧
        rs₁ = MuraxCall.answers answer [] cs ∧ rs₂ = MuraxCall.answers answer [] cs) := by
  have hk₁ : (physicalLink L₁).Linked [] e₁ := ⟨t₁, [], he₁, hx₁⟩
  have hk₂ : (virtualLink irlen L₂).Linked [] e₂ := ⟨t₂, [], he₂, hx₂⟩
  obtain ⟨rs₁, e₁', hrun₁, ⟨t, h, hat, hready⟩, hrs₁⟩ := Link.session _ cs hk₁
  obtain ⟨rs₂, e₂', hrun₂, ⟨t', h', hat', hready'⟩, hrs₂⟩ := Link.session _ cs hk₂
  refine ⟨rs₁, e₁', rs₂, e₂', hrun₁, hrun₂, fun hlate₁ hlate₂ => ⟨?_, ?_, (hrs₁ hlate₁).2, (hrs₂ hlate₂).2⟩⟩
  · rw [hat.wire] at hlate₁ ⊢
    exact (hready.sound hlate₁).presented
  · rw [hat'.wire] at hlate₂ ⊢
    exact (hready'.sound hlate₂).presented

/-- A bus that responds with the data that was last written. -/
def lastWritten (cs : List Command) : Word :=
  BitVec.ofNat 32 (((cs.filter fun c => c.wr == 1).getLast?.map Command.data).getD 0)

/-- A word written and read back, over the simulator's controller and over the cable. -/
theorem same_on_bus_write : ∃ rs₁ w rs₂ s,
    let M₁ := JtagBridge.bridge.system lastWritten .eager
    let M₂ := VirtualBridge.bridge.system lastWritten .eager
    let cs : List MuraxCall := [.writecmd (-4) 0x1234 2 1, .readrsp (-4)]
    let C₁ := JtagSimController.controller (M₁.shows JtagBridge.fresh)
    let C₂ := Blaster.controller (M₂.shows VirtualBridge.fresh)
    let commands : List Command := [⟨0xfffffffc, 0x1234, 1, 2⟩, ⟨0xfffffffc, 0, 0, 2⟩]
    (MuraxCall.session ⟨4, false⟩ cs).exec (JtagOCDEngine.handler C₁)
        ⟨.testLogicReset, JtagSimController.fresh⟩ = .ok rs₁ w ∧
      (MuraxCall.session ⟨10, true⟩ cs).exec (JtagOCDEngine.handler C₂) ⟨.runTestIdle, Blaster.fresh⟩ =
        .ok rs₂ s ∧
      (M₁.run JtagBridge.fresh w.ctrl.history).2.presented = commands ∧
      (M₂.run VirtualBridge.fresh s.ctrl.cable.history).2.presented = commands ∧
      rs₁ = [none, some 0x1234] ∧ rs₂ = [none, some 0x1234] := by
  have he₁ : JtagOCDEngine.At
      (JtagSimController.lawful ((JtagBridge.bridge.system lastWritten .eager).shows JtagBridge.fresh))
      ⟨.testLogicReset, JtagSimController.fresh⟩ .testLogicReset ⟨none, []⟩ := ⟨trivial, rfl, rfl⟩
  have he₂ : JtagOCDEngine.At
      (Blaster.lawful ((VirtualBridge.bridge.system lastWritten .eager).shows VirtualBridge.fresh))
      ⟨.runTestIdle, Blaster.fresh⟩ .runTestIdle ⟨none, []⟩ := ⟨⟨rfl, rfl⟩, rfl, rfl⟩
  obtain ⟨rs₁, w, rs₂, s, hrun₁, hrun₂, h⟩ := same_on_bus _ _ he₁ he₂ (JtagBridge.ready_fresh _)
    (VirtualBridge.ready_fresh _) 10 [.writecmd (-4) 0x1234 2 1, .readrsp (-4)]
  obtain ⟨h₁, h₂, hr₁, hr₂⟩ := h (Bridge.prompt_run DebugSide.prompt_fresh _).late
    (Bridge.prompt_run DebugSide.prompt_fresh _).late
  exact ⟨rs₁, w, rs₂, s, hrun₁, hrun₂, h₁, h₂, hr₁, hr₂⟩

end PyOcdRiscv.Ocd
