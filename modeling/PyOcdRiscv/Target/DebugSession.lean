import PyOcdRiscv.Lib.Runs
import PyOcdRiscv.Target.DebugStage

/-!
# Debug sessions

A hart with its debug module over whole runs: it runs a program, is halted and debugged, and resumes, as
often as it likes. The debugger keeps an account of the registers (`Debuggee`): it learns them when the hart
is halted, and its requests change them at once. The hart takes its time over them, and yet nothing that
can be read says otherwise, and the hart resumes with the registers of the account (`session_faithful`).
-/

namespace PyOcdRiscv.Target

open Lib Debug
open DebugTarget (inPage)
open Context (Same)

/-- The hart is in debug mode, and will be what the debugger takes it for. -/
structure Debugged (s : DebugTarget) (d : Debuggee) : Prop where
  attached : Attached s.dm.regs
  progbuf : s.dm.regs.progbuf = d.progbuf
  resumes : s.dm.regs.dmcontrol.resumereq = true → d.resumes = true
  stage : Stage s.dm s.hart d

/-- The hart runs a program. -/
structure Running (s : DebugTarget) (d : Debuggee) : Prop where
  attached : Attached s.dm.regs
  progbuf : s.dm.regs.progbuf = d.progbuf
  data : s.dm.regs.data = d.data
  resumes : s.dm.regs.dmcontrol.resumereq = true → d.resumes = true
  state : s.dm.mem.state = .idle
  halted : s.dm.mem.halted = false
  cmdValid : s.dm.regs.cmdValid = false
  debug : s.hart.debug = false

/-- The account is right. -/
def Holds (x : DebugTarget × Debuggee) : Prop :=
  if x.1.hart.debug then Debugged x.1 x.2 else Running x.1 x.2

/-- The request, if there is one, is one that the debugger may make then. -/
def Allowed (x : DebugTarget × Debuggee) (o : DebugTarget.Edge × Option Request) : Prop :=
  ∀ q, o.2 = some q → Polite q ∧ Timely x.1.dm x.2 q

instance : DecidableRel Allowed := fun _ o =>
  inferInstanceAs (Decidable (∀ q ∈ o.2, _ ∧ _))

/-- An edge, and the debugger's account of it: when the hart is halted, its registers are what they are
then. -/
def follow (x : DebugTarget × Debuggee) (o : DebugTarget.Edge × Option Request) : DebugTarget × Debuggee :=
  let s := x.1.edge o.1 o.2
  let d := x.2.after x.1.dm.mem.cmdbusy o.2
  (s, if x.1.hart.debug = false ∧ s.hart.debug = true then
    { d with context := ⟨s.hart.core, s.hart.csrs⟩, resumes := s.dm.regs.dmcontrol.resumereq }
    else d)

/-- The hart runs on with the registers of the account, as DRET leaves them. -/
structure Resumed (x : DebugTarget × Debuggee) : Prop where
  core : x.1.hart.core = x.2.context.core.withMem x.1.hart.core.mem
  csrs : ∃ v₀ v₁, x.1.hart.csrs = x.2.context.csrs.dret.withScratch v₀ v₁
  pc : x.1.hart.pc = x.2.context.csrs.dpc
  asked : x.2.resumes = true

section

variable {s : DebugTarget} {d : Debuggee} {i : DebugTarget.Edge} {r : Option Request}

/-- What a hart in debug mode does at an edge. -/
theorem edge_moves (hdebug : s.hart.debug = true) (hin : inPage s.hart.access.addr) :
    Moves s.dm r (s.hart.withMem (s.port.edge i.bus r).mem) (s.edge i r).hart (s.access i.hart) := by
  obtain ⟨bus, m⟩ := i
  have hhart : (s.edge ⟨bus, m⟩ r).hart = s.hartEdge (s.port.edge bus r).mem r m := rfl
  rw [hhart]
  cases m with
  | wait => exact .wait
  | move =>
    have haccess : s.access .move = some (s.hart.withMem (s.port.edge bus r).mem).access := if_pos ⟨hdebug, hin⟩
    have hedge : s.hartEdge (s.port.edge bus r).mem r .move = (s.hart.withMem (s.port.edge bus r).mem).next haltAddress
        (s.dm.mem.rdataO (s.dm.memIn r) (s.hart.withMem (s.port.edge bus r).mem).access) := by
      simp only [DebugTarget.hartEdge, Hart.withMem_debug, hdebug, if_true, Hart.withMem_access]
      exact if_pos hin
    rw [haccess, hedge]
    exact .move hin
  | stop cause =>
    have hedge : s.hartEdge (s.port.edge bus r).mem r (.stop cause) = s.hart.withMem (s.port.edge bus r).mem := by
      simp only [DebugTarget.hartEdge, Hart.withMem_debug, hdebug, if_true]
    rw [hedge]
    exact .wait
  | run next csrs pc =>
    have hedge : s.hartEdge (s.port.edge bus r).mem r (.run next csrs pc) = s.hart.withMem (s.port.edge bus r).mem := by
      simp only [DebugTarget.hartEdge, Hart.withMem_debug, hdebug, if_true]
    rw [hedge]
    exact .wait

/-- What the registers are after an edge. -/
theorem regs_after (ht : Attached s.dm.regs) (hprogbuf : s.dm.regs.progbuf = d.progbuf)
    (hresumes : s.dm.regs.dmcontrol.resumereq = true → d.resumes = true)
    (hr : ∀ q, r = some q → Polite q ∧ Timely s.dm d q) (b : SbaBus) (a : Option Access) :
    Attached (s.dm.edge b a r).regs ∧ (s.dm.edge b a r).regs.progbuf = (d.after s.dm.mem.cmdbusy r).progbuf ∧
      ((s.dm.edge b a r).regs.dmcontrol.resumereq = true → (d.after s.dm.mem.cmdbusy r).resumes = true) := by
  obtain ⟨e, hr', rr, hrr, hregs⟩ := regs_edge_eq ht b a r
  rw [hregs]
  rcases asks ht hr with ⟨w, hbegins⟩ | ⟨f, g, halike, -⟩
  · rw [hbegins.requested] at hrr ⊢
    obtain ⟨hprogbuf', -⟩ := Debuggee.frame_command hbegins.command
    refine ⟨⟨ht.dmactive, ht.hartsel, ht.auto⟩, hprogbuf.trans hprogbuf'.symm, fun hc => ?_⟩
    exact absurd (hbegins.resumereq.symm.trans (hrr hc)) (by decide)
  · refine ⟨⟨halike.attached.dmactive, halike.attached.hartsel, halike.attached.auto⟩, ?_, fun hc => ?_⟩
    · rw [halike.progbuf.2, ← hprogbuf]
      exact halike.progbuf.1
    · rcases halike.resumereq (hrr hc) with hreq | hres
      · exact halike.resumes (hresumes hreq)
      · exact hres

/-- **An edge of a hart in debug mode**: it still is what the debugger takes it for, or runs on as that. -/
theorem Debugged.edge (h : Debugged s d) (hr : ∀ q, r = some q → Polite q ∧ Timely s.dm d q) (i : DebugTarget.Edge) :
    Debugged (s.edge i r) (d.after s.dm.mem.cmdbusy r) ∨
      Running (s.edge i r) (d.after s.dm.mem.cmdbusy r) ∧ Resumed (s.edge i r, d.after s.dm.mem.cmdbusy r) := by
  obtain ⟨hdebug, hin⟩ := h.stage.debug
  have hmoves := edge_moves (i := i) (r := r) hdebug hin
  obtain ⟨hatt, hprogbuf, hres⟩ := regs_after h.attached h.progbuf h.resumes hr (s.port.bus i.bus r) (s.access i.hart)
  have hstage := (h.stage.withMem (s.port.edge i.bus r).mem).edge h.attached h.progbuf h.resumes hr hmoves
    (s.port.bus i.bus r)
  rcases hstage with hstage | hleft
  · exact Or.inl ⟨hatt, hprogbuf, hres, hstage⟩
  · obtain ⟨⟨L, hL, hsame⟩, hstate, hhalted, hvalid, hdata, hasked⟩ := hleft
    obtain ⟨v₀, v₁, hcsrs⟩ := hsame.csrs
    refine Or.inr ⟨⟨hatt, hprogbuf, hdata, hres, hstate, hhalted, hvalid, ?_⟩, ⟨?_, ⟨v₀, v₁, ?_⟩, ?_, hasked⟩⟩
    · rw [hL]
      rfl
    · rw [hL]
      exact hsame.core
    · rw [hL, Context.resumed, hcsrs, CsRegisters.dret_withScratch]
    · rw [hL, Context.resumed, hcsrs, CsRegisters.dpc_withScratch]

/-- What a hart that runs a program does at an edge: it runs on, or is at the start of the debug ROM. -/
theorem hart_edge_of_running (hdebug : s.hart.debug = false) (i : DebugTarget.Edge) (r : Option Request) :
    (s.edge i r).hart.debug = false ∨
      (s.edge i r).hart = Context.start ⟨(s.edge i r).hart.core, (s.edge i r).hart.csrs⟩ haltAddress := by
  have hhart : (s.edge i r).hart = s.hartEdge (s.port.edge i.bus r).mem r i.hart := rfl
  have hruns : ¬ (s.hart.withMem (s.port.edge i.bus r).mem).debug = true := by simp [hdebug]
  rw [hhart]
  cases i.hart with
  | wait => exact Or.inl hdebug
  | run next csrs pc =>
    rw [DebugTarget.hartEdge, if_neg hruns]
    exact Or.inl hdebug
  | move =>
    rw [DebugTarget.hartEdge, if_neg hruns]
    split_ifs with hreq
    · exact Or.inr rfl
    · exact Or.inl hdebug
  | stop cause =>
    rw [DebugTarget.hartEdge, if_neg hruns]
    split_ifs with hstops
    · exact Or.inr rfl
    · exact Or.inl hdebug

/-- **An edge of a hart that runs a program**: it runs on, or is halted with the registers that it has. -/
theorem Running.edge (h : Running s d) (hr : ∀ q, r = some q → Polite q ∧ Timely s.dm d q) (i : DebugTarget.Edge) :
    Running (s.edge i r) (d.after s.dm.mem.cmdbusy r) ∨
      Debugged (s.edge i r) { d.after s.dm.mem.cmdbusy r with
        context := ⟨(s.edge i r).hart.core, (s.edge i r).hart.csrs⟩
        resumes := (s.edge i r).dm.regs.dmcontrol.resumereq } := by
  have hnone : s.access i.hart = none := by
    cases i.hart with
    | wait => rfl
    | move => exact if_neg fun hc => absurd (h.debug.symm.trans hc.1) (by decide)
    | stop cause => rfl
    | run next csrs pc => rfl
  have hs : Sees (s.access i.hart) false false false none := by
    rw [hnone]
    exact sees_none
  obtain ⟨hatt, hprogbuf, hres⟩ := regs_after h.attached h.progbuf h.resumes hr (s.port.bus i.bus r) (s.access i.hart)
  obtain ⟨e, hr', rr, -, hregs⟩ := regs_edge h.attached hs (s.port.bus i.bus r) r
  rcases asks h.attached hr with ⟨w, hbegins⟩ | ⟨f, g, halike, -⟩
  · exact absurd (h.halted.symm.trans hbegins.halted) (by decide)
  have hstate : (s.edge i r).dm.mem.state = .idle := by
    refine (state_edge h.attached hs (s.port.bus i.bus r) r).trans ?_
    rw [h.state, h.halted, h.cmdValid]
    simp
  have hhalted : (s.edge i r).dm.mem.halted = false := (halted_edge hs _ _).trans h.halted
  have hvalid : (s.edge i r).dm.regs.cmdValid = false := (congrArg DmRegs.cmdValid hregs).trans halike.cmdValid
  have hdata : (s.edge i r).dm.regs.data = (d.after s.dm.mem.cmdbusy r).data := by
    rw [halike.data.2, ← h.data]
    exact (congrArg DmRegs.data hregs).trans halike.data.1
  rcases hart_edge_of_running h.debug i r with hdebug | hstart
  · exact Or.inl ⟨hatt, hprogbuf, hdata, hres, hstate, hhalted, hvalid, hdebug⟩
  · have hentry := Context.line_entry ⟨(s.edge i r).hart.core, (s.edge i r).hart.csrs⟩
    rw [← hstart] at hentry
    exact Or.inr ⟨hatt, hprogbuf, id, .polls _ 9 _ (Or.inl rfl) hentry (.nothing hstate hvalid (.refl _) hdata)⟩

/-- Where the hart is in debug mode before an edge. -/
theorem follow_of_debug {x : DebugTarget × Debuggee} (hdebug : x.1.hart.debug = true)
    (o : DebugTarget.Edge × Option Request) : follow x o = (x.1.edge o.1 o.2, x.2.after x.1.dm.mem.cmdbusy o.2) :=
  congrArg (Prod.mk _) (if_neg fun hc => absurd (hdebug.symm.trans hc.1) (by decide))

/-- **One edge**: the account stays right. -/
theorem Holds.follow {x : DebugTarget × Debuggee} (h : Holds x) {o : DebugTarget.Edge × Option Request}
    (ho : Allowed x o) :
    Holds (follow x o) ∧ (x.1.hart.debug = true → (follow x o).1.hart.debug = false → Resumed (follow x o)) := by
  obtain ⟨s, d⟩ := x
  obtain ⟨i, r⟩ := o
  rw [Holds] at h
  by_cases hdebug : s.hart.debug = true
  · rw [if_pos hdebug] at h
    rw [follow_of_debug (x := (s, d)) hdebug (i, r)]
    rcases h.edge ho i with hd | ⟨hrun, hresumed⟩
    · have hd' := hd.stage.debug.1
      refine ⟨?_, fun _ hc => absurd (hd'.symm.trans hc) (by decide)⟩
      rw [Holds, if_pos hd']
      exact hd
    · refine ⟨?_, fun _ _ => hresumed⟩
      rw [Holds, if_neg (by rw [hrun.debug]; decide)]
      exact hrun
  · rw [if_neg hdebug] at h
    refine ⟨?_, fun hc => absurd hc hdebug⟩
    rcases h.edge ho i with hrun | hd
    · have hfollow : PyOcdRiscv.Target.follow (s, d) (i, r) = (s.edge i r, d.after s.dm.mem.cmdbusy r) :=
        congrArg (Prod.mk _) (if_neg fun hc => absurd (hrun.debug.symm.trans hc.2) (by decide))
      rw [hfollow, Holds, if_neg (by rw [hrun.debug]; decide)]
      exact hrun
    · have hd' := hd.stage.debug.1
      have hfollow : PyOcdRiscv.Target.follow (s, d) (i, r) = (s.edge i r, { d.after s.dm.mem.cmdbusy r with
          context := ⟨(s.edge i r).hart.core, (s.edge i r).hart.csrs⟩
          resumes := (s.edge i r).dm.regs.dmcontrol.resumereq }) :=
        congrArg (Prod.mk _) (if_pos ⟨h.debug, hd'⟩)
      rw [hfollow, Holds, if_pos hd']
      exact hd

end

/-! ### Runs -/

/-- What is answered to a read of data or of the program buffer. -/
def Debuggee.answer (d : Debuggee) (r : Request) : Option Word :=
  if r.op ≠ DTM_READ then none
  else if 0x04 ≤ r.adr ∧ r.adr < 0x04 + DmRegs.DataCount then some (d.data (r.adr - 0x04))
  else if 0x20 ≤ r.adr ∧ r.adr < 0x20 + DmRegs.ProgBufSize then some (d.progbuf (r.adr - 0x20))
  else none

section

variable {x : DebugTarget × Debuggee}

/-- While no command is executed, data and the program buffer are those of the account. -/
theorem Holds.registers (h : Holds x) (hbusy : x.1.dm.mem.cmdbusy = false) (hvalid : x.1.dm.regs.cmdValid = false) :
    x.1.dm.regs.data = x.2.data ∧ x.1.dm.regs.progbuf = x.2.progbuf := by
  have hidle : x.1.dm.mem.state = .idle := by simpa [DmMem.cmdbusy] using hbusy
  have herrand {L : Context} (he : Errand x.1.dm L x.2) : x.1.dm.regs.data = x.2.data := by
    cases he with
    | nothing _ _ _ hdata => exact hdata
    | command d₀ d₁ hstate =>
      rcases hstate with ⟨hgo, -⟩ | ⟨-, hvalid', -⟩
      · exact absurd (hidle.symm.trans hgo) (by decide)
      · exact absurd (hvalid.symm.trans hvalid') (by decide)
    | resume hstate => exact absurd (hidle.symm.trans hstate) (by decide)
  rw [Holds] at h
  split_ifs at h with hdebug
  · refine ⟨?_, h.progbuf⟩
    cases h.stage with
    | polls L n h₁ hwhere hline he => exact herrand he
    | goes L n hline hstate he => exact herrand he
    | resumes L n hline hstate he => exact herrand he
    | leaves L n hline hstate hhalted hvalid hsame hdata => exact hdata
    | executes L out hthrough hstate => exact absurd (hidle.symm.trans hstate) (by decide)
  · exact ⟨h.data, h.progbuf⟩

/-- What is read is what the account says. -/
theorem Holds.respData (h : Holds x) (hbusy : x.1.dm.mem.cmdbusy = false) (hvalid : x.1.dm.regs.cmdValid = false)
    {r : Request} {w : Word} (hw : x.2.answer r = some w) : x.1.dm.respData r = w := by
  obtain ⟨hdata, hprogbuf⟩ := h.registers hbusy hvalid
  rw [Debuggee.answer] at hw
  split_ifs at hw with hop hadr hadr
  · obtain rfl := Option.some.inj hw
    simp only [DmRegs.DataCount] at hadr
    have hmem : r.adr ∉ [0x38, 0x39, 0x3a, 0x3c, 0x3d] := by
      intro hc
      simp only [List.mem_cons, List.not_mem_nil, or_false] at hc
      omega
    have hin : DmRegs.isData r.adr := ⟨hadr.1, hadr.2.le⟩
    rw [DmTop.respData, if_pos (not_not.mp hop), if_neg hmem, DmRegs.respData, if_pos hin, hdata]
  · obtain rfl := Option.some.inj hw
    simp only [DmRegs.ProgBufSize] at hadr
    have hmem : r.adr ∉ [0x38, 0x39, 0x3a, 0x3c, 0x3d] := by
      intro hc
      simp only [List.mem_cons, List.not_mem_nil, or_false] at hc
      omega
    have hout : ¬ DmRegs.isData r.adr := by
      simp only [DmRegs.isData, DmRegs.DataCount]
      omega
    have hin : DmRegs.isProgBuf r.adr := ⟨hadr.1, hadr.2.le⟩
    rw [DmTop.respData, if_pos (not_not.mp hop), if_neg hmem, DmRegs.respData, if_neg hout, if_neg (by omega),
      if_neg (by omega), if_neg (by omega), if_neg (by omega), if_pos hin, hprogbuf]

end

/-- After a reset, while the hart runs a program. -/
def DebugTarget.fresh (core : Rv32.Hart) (csrs : CsRegisters) (pc : Word) : DebugTarget :=
  ⟨.fresh, none, ⟨core, csrs, pc, none, false⟩⟩

/-- The debug module is made active. -/
def begun (core : Rv32.Hart) (csrs : CsRegisters) (pc : Word) : DebugTarget × Debuggee :=
  ((DebugTarget.fresh core csrs pc).edge ⟨⟨false, false, 0⟩, .wait⟩ (some ⟨DTM_WRITE, 0x10, 1⟩),
    ⟨⟨core, csrs⟩, fun _ => 0, fun _ => 0, false⟩)

theorem begun_eq (core : Rv32.Hart) (csrs : CsRegisters) (pc : Word) :
    (begun core csrs pc).1 = ⟨{ DmTop.fresh with regs := .fresh true true }, none, ⟨core, csrs, pc, none, false⟩⟩ := by
  have hregs : DmTop.fresh.regsEdge none (some ⟨DTM_WRITE, 0x10, 1⟩) = .fresh true true := rfl
  have hmem : DmMem.fresh.edge (DmTop.fresh.memIn (some ⟨DTM_WRITE, 0x10, 1⟩)) none = .fresh := rfl
  change (⟨⟨DmTop.fresh.regsEdge none _, _, _, DmMem.fresh.edge (DmTop.fresh.memIn _) none⟩, _, _⟩ : DebugTarget) = _
  rw [hregs, hmem]
  rfl

theorem attached_fresh : Attached (.fresh true true) := ⟨by decide, by decide, by decide⟩

theorem holds_begun (core : Rv32.Hart) (csrs : CsRegisters) (pc : Word) : Holds (begun core csrs pc) := by
  have hrunning : Running (begun core csrs pc).1 (begun core csrs pc).2 := by
    rw [begun_eq]
    exact ⟨attached_fresh, rfl, rfl, fun hc => absurd hc Bool.false_ne_true, rfl, rfl, rfl, rfl⟩
  rw [Holds, if_neg (by rw [hrunning.debug]; decide)]
  exact hrunning

/-- **Debug sessions are faithful.** In a run from a reset, in which the hart is halted, debugged and resumed as
often as the debugger likes, and makes its accesses when it likes: what is read while no command is executed is
what the account says, and each time the hart leaves debug mode it runs on with the registers of the account, at
the address in `dpc`. -/
theorem session_faithful (core : Rv32.Hart) (csrs : CsRegisters) (pc : Word)
    (os : List (DebugTarget.Edge × Option Request)) (h : Along Allowed follow os (begun core csrs pc)) :
    let x := os.foldl follow (begun core csrs pc)
    (x.1.dm.mem.cmdbusy = false → x.1.dm.regs.cmdValid = false →
      ∀ r w, x.2.answer r = some w → x.1.dm.respData r = w) ∧
      ∀ o, Allowed x o → x.1.hart.debug = true → (follow x o).1.hart.debug = false → Resumed (follow x o) := by
  intro x
  have hx : Holds x := h.inv (fun _ _ ho hg => (hg.follow ho).1) (holds_begun core csrs pc)
  exact ⟨fun hbusy hvalid _ _ hw => hx.respData hbusy hvalid hw, fun o ho => (hx.follow ho).2⟩

/-- A session in which `mstatus` is written and read by commands and the hart resumes. It makes an access at each
edge. -/
def mstatusSession (n : ℕ) : DebugTarget.Edge × Option Request :=
  (⟨⟨false, false, 0⟩, .move⟩,
    match n with
    | 0 => some ⟨DTM_WRITE, 0x04, 0x80⟩
    | 1 => some ⟨DTM_WRITE, 0x10, 0x80000001⟩
    | 13 => some ⟨DTM_WRITE, 0x17, 0x00230300⟩
    | 60 => some ⟨DTM_WRITE, 0x17, 0x00220300⟩
    | 120 => some ⟨DTM_WRITE, 0x10, 0x40000001⟩
    | _ => none)

/-- The privilege level is read along with what was written, and DRET sets the interrupt enable. -/
theorem session_faithful_mstatus :
    let x := ((List.range 139).map mstatusSession).foldl follow (begun ⟨fun _ => 0, fun _ => 0⟩ .fresh 0x80)
    x.1.dm.respData ⟨DTM_READ, 0x04, 0⟩ = 0x1880 ∧ x.1.hart.debug = true ∧
      (follow x (mstatusSession 139)).1.hart.csrs.mstatus = 0x1888 ∧ Resumed (follow x (mstatusSession 139)) := by
  obtain ⟨hread, hresumed⟩ := session_faithful ⟨fun _ => 0, fun _ => 0⟩ .fresh 0x80
    ((List.range 139).map mstatusSession) (by decide +kernel)
  refine ⟨hread ?_ ?_ _ _ ?_, ?_, ?_, hresumed _ ?_ ?_ ?_⟩ <;> decide +kernel

end PyOcdRiscv.Target
