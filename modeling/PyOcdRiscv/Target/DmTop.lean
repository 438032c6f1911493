import PyOcdRiscv.Target.CsRegisters
import PyOcdRiscv.Target.DmMem
import PyOcdRiscv.Target.DmSba

/-!
# The debug module of the Pulp target

`dm_csrs.sv`, for one hart, with `dm_mem` and `dm_sba` as `dm_top.sv` connects them, and the hart that
it halts, as `riscv_soc.sv` connects it. A hart in debug mode makes at most one access at an edge of the
clock, when it likes, and the bus takes the time it likes. Of two accesses to the memory at one edge that
of `dm_sba` comes first.

What is out of range is read as zero and not written.
-/

namespace PyOcdRiscv.Target

open Lib Debug

/-! ### The registers of `dm_csrs` -/

/-- `dmcontrol_t`, without the fields that are always zero. -/
structure DmControl where
  haltreq : Bool
  resumereq : Bool
  hartsello : BitVec 10
  hartselhi : BitVec 10
  ndmreset : Bool
  dmactive : Bool
  deriving DecidableEq

namespace DmControl

/-- A word, field by field. -/
def ofWord (w : Word) : DmControl :=
  ⟨w.getLsbD 31, w.getLsbD 30, w.extractLsb' 16 10, w.extractLsb' 6 10, w.getLsbD 1, w.getLsbD 0⟩

/-- The word. -/
def toWord (s : DmControl) : Word :=
  BitVec.ofBool s.haltreq ++ BitVec.ofBool s.resumereq ++ (0 : BitVec 4) ++ s.hartsello ++ s.hartselhi ++
    (0 : BitVec 4) ++ BitVec.ofBool s.ndmreset ++ BitVec.ofBool s.dmactive

/-- `hartsel_o`. -/
def hartsel (s : DmControl) : ℕ := s.hartselhi.toNat * 2 ^ 10 + s.hartsello.toNat

/-- `selected_hart` is the hart there is. -/
def selected (s : DmControl) : Bool := s.hartsel % 2 = 0

end DmControl

/-- The registers of `dm_csrs` but those of the system bus. -/
structure DmRegs where
  /-- `dmcontrol_q`. -/
  dmcontrol : DmControl
  /-- `cmderr_q`. -/
  cmderr : BitVec 3
  /-- `command_q`. -/
  command : Word
  /-- `cmd_valid_q`. -/
  cmdValid : Bool
  /-- `abstractauto_q`. -/
  abstractauto : Word
  /-- `progbuf_q`. -/
  progbuf : ℕ → Word
  /-- `data_q`, from data0 on. -/
  data : ℕ → Word
  /-- `havereset_q`. -/
  havereset : Bool

namespace DmRegs

/-- `DataCount`. -/
def DataCount : ℕ := 2

/-- `ProgBufSize`. -/
def ProgBufSize : ℕ := 8

/-- After a reset, and while the module is not active. -/
def fresh (dmactive havereset : Bool) : DmRegs :=
  ⟨⟨false, false, 0, 0, false, dmactive⟩, 0, 0, false, 0, fun _ => 0, fun _ => 0, havereset⟩

/-- The registers that are data registers for the module: the range takes in one too many. -/
def isData (adr : ℕ) : Prop := 0x04 ≤ adr ∧ adr ≤ 0x04 + DataCount

/-- Those that are the program buffer, one too many as well. -/
def isProgBuf (adr : ℕ) : Prop := 0x20 ≤ adr ∧ adr ≤ 0x20 + ProgBufSize

instance (adr : ℕ) : Decidable (isData adr) := inferInstanceAs (Decidable (_ ∧ _))

instance (adr : ℕ) : Decidable (isProgBuf adr) := inferInstanceAs (Decidable (_ ∧ _))

/-- `cmd_valid_d` of a request to a data register or the program buffer. -/
def autoexec (s : DmRegs) (adr : ℕ) : Bool :=
  if isData adr then s.abstractauto.getLsbD (adr - 0x04) else s.abstractauto.getLsbD (adr % 16 + 16)

/-- `cmderr_d` of a request that comes while a command is executed. -/
def busyError (s : DmRegs) : DmRegs := if s.cmderr = 0 then { s with cmderr := 1 } else s

/-- What a request does to the registers. -/
def request (s : DmRegs) (cmdbusy : Bool) (r : Request) : DmRegs :=
  let w := BitVec.ofNat 32 r.data
  if r.op = DTM_READ then
    if (isData r.adr ∨ isProgBuf r.adr) ∧ cmdbusy = false then { s with cmdValid := s.autoexec r.adr } else s
  else if r.op = DTM_WRITE then
    if isData r.adr then
      if cmdbusy then s
      else
        { s with
          data := if r.adr < 0x04 + DataCount then Function.update s.data (r.adr - 0x04) w else s.data
          cmdValid := s.autoexec r.adr }
    else if r.adr = 0x10 then
      { s with
        havereset := s.havereset && !(w.getLsbD 28 && s.dmcontrol.selected)
        dmcontrol := .ofWord w }
    else if r.adr = 0x16 then
      if cmdbusy then s.busyError else { s with cmderr := ~~~w.extractLsb' 8 3 &&& s.cmderr }
    else if r.adr = 0x17 then
      if cmdbusy then s.busyError else { s with cmdValid := true, command := w }
    else if r.adr = 0x18 then
      if cmdbusy then s.busyError
      else { s with abstractauto := w &&& .ofNat 32 ((2 ^ ProgBufSize - 1) * 2 ^ 16 + (2 ^ DataCount - 1)) }
    else if isProgBuf r.adr then
      if cmdbusy then s
      else
        { s with
          progbuf := if r.adr < 0x20 + ProgBufSize then Function.update s.progbuf (r.adr - 0x20) w else s.progbuf
          cmdValid := s.autoexec r.adr }
    else s
  else s

/-- `dmstatus`. -/
def dmstatus (s : DmRegs) (halted resumeack : Bool) : Word :=
  let sel := s.dmcontrol.selected
  let both (b : Bool) : BitVec 2 := BitVec.ofBool b ++ BitVec.ofBool b
  (0 : BitVec 12) ++ both (s.havereset && sel) ++ both (resumeack && sel) ++ both (0 < s.dmcontrol.hartsel) ++
    (0 : BitVec 2) ++ both (!(halted && sel)) ++ both (halted && sel) ++ (1 : BitVec 1) ++ (0 : BitVec 3) ++
    (2 : BitVec 4)

/-- `abstractcs`. -/
def abstractcs (s : DmRegs) (cmdbusy : Bool) : Word :=
  (0 : BitVec 3) ++ BitVec.ofNat 5 ProgBufSize ++ (0 : BitVec 11) ++ BitVec.ofBool cmdbusy ++ (0 : BitVec 1) ++
    s.cmderr ++ (0 : BitVec 4) ++ BitVec.ofNat 4 DataCount

/-- `haltsum0` to `haltsum3`. -/
def haltsum (s : DmRegs) (halted : Bool) (n : ℕ) : Word :=
  if s.dmcontrol.hartsel / 2 ^ (5 * (n + 1)) = 0 ∧ halted = true then 1 else 0

/-- `resp_queue_data` of a read of a register that is not of the system bus. -/
def respData (s : DmRegs) (halted resumeack cmdbusy : Bool) (adr : ℕ) : Word :=
  if isData adr then s.data (adr - 0x04)
  else if adr = 0x10 then s.dmcontrol.toWord
  else if adr = 0x11 then s.dmstatus halted resumeack
  else if adr = 0x16 then s.abstractcs cmdbusy
  else if adr = 0x18 then s.abstractauto
  else if isProgBuf adr then s.progbuf (adr - 0x20)
  else if adr = 0x40 then s.haltsum halted 0
  else if adr = 0x13 then s.haltsum halted 1
  else if adr = 0x34 then s.haltsum halted 2
  else if adr = 0x35 then s.haltsum halted 3
  else 0

end DmRegs

/-! ### The whole -/

/-- `dm_top`: `dm_csrs` and `dm_sba`, and `dm_mem`. -/
structure DmTop where
  regs : DmRegs
  /-- The registers of the system bus. -/
  sb : SbRegs
  sba : SbaState
  mem : DmMem

namespace DmTop

/-- After a reset. -/
def fresh : DmTop := ⟨.fresh false true, .fresh, .idle, .fresh⟩

/-- What `dm_csrs` makes of a request. -/
def requested (s : DmTop) (r : Option Request) : DmRegs :=
  let t := { s.regs with cmdValid := false }
  r.elim t (t.request s.mem.cmdbusy)

/-- What `dm_csrs` tells `dm_mem`. -/
def memIn (s : DmTop) (r : Option Request) : DmMemIn where
  hartsel := s.regs.dmcontrol.hartsel
  haltreq := s.regs.dmcontrol.haltreq && s.regs.dmcontrol.selected
  resumereq := s.regs.dmcontrol.resumereq && s.regs.dmcontrol.selected
  clearResumeack := !s.regs.dmcontrol.resumereq && (s.requested r).dmcontrol.resumereq
  progbuf := s.regs.progbuf
  data := s.regs.data
  cmdValid := s.regs.cmdValid
  cmd := s.regs.command

/-- `resp_queue_data`. -/
def respData (s : DmTop) (r : Request) : Word :=
  if r.op = DTM_READ then
    if r.adr ∈ [0x38, 0x39, 0x3a, 0x3c, 0x3d] then s.sb.respData s.sba.busy r.adr
    else s.regs.respData s.mem.halted s.mem.resuming s.mem.cmdbusy r.adr
  else 0

/-- The registers after an edge. -/
def regsEdge (s : DmTop) (a : Option Access) (r : Option Request) : DmRegs :=
  let i := s.memIn r
  let t := s.requested r
  let t := (s.mem.cmderror i a).elim t fun e => { t with cmderr := .ofNat 3 e }
  let t := (DmMem.dataO i a merge).elim t fun data => { t with data := data }
  let t := if s.regs.dmcontrol.ndmreset then { t with havereset := true } else t
  let t :=
    if s.regs.dmcontrol.resumereq && s.mem.resuming then
      { t with dmcontrol := { t.dmcontrol with resumereq := false } }
    else t
  if s.regs.dmcontrol.dmactive then t else .fresh t.dmcontrol.dmactive t.havereset

/-- An edge of the clock, with what the bus tells `dm_sba`, the access of the hart, and the request that
is accepted. -/
def edge (s : DmTop) (b : SbaBus) (a : Option Access) (r : Option Request) : DmTop where
  regs := s.regsEdge a r
  sb := if s.regs.dmcontrol.dmactive then s.sb.edge s.sba b r else .fresh
  sba := s.sba.next (s.sb.sbaIn s.sba.busy r) b
  mem := s.mem.edge (s.memIn r) a

end DmTop

/-! ### With the hart and the memory -/

/-- `DM_HaltAddress`: the page of the debug module is the one at `base`. -/
def base : Word := 0x1b000000

def haltAddress : Word := 0x1b000800

/-! ### Why a hart is in debug mode -/

def DBG_CAUSE_EBREAK : BitVec 3 := 1
def DBG_CAUSE_HALTREQ : BitVec 3 := 3
def DBG_CAUSE_STEP : BitVec 3 := 4

/-- What the hart does at an edge. -/
inductive HartMove where
  | wait
  /-- In debug mode it makes its next access, and otherwise it enters debug mode if it is asked to. -/
  | move
  /-- It enters debug mode at an EBREAK, or after a single instruction, if DCSR says that it does. -/
  | stop (cause : BitVec 3)
  /-- It runs a program, if it is not in debug mode. -/
  | run (next : Rv32.Hart → Rv32.Hart) (csrs : CsRegisters) (pc : Word)

/-- The debug module, and the hart with the memory, which the debug module reaches by the bus. -/
structure DebugTarget where
  dm : DmTop
  /-- The answer that the bus owes `dm_sba`. -/
  owed : Option Word
  hart : RiscvCore

namespace DebugTarget

/-- What happens at an edge, but for a request. -/
structure Edge where
  bus : BusIn
  hart : HartMove

/-- The hart enters debug mode. -/
def enter (h : RiscvCore) (cause : BitVec 3) : RiscvCore :=
  { h with csrs := h.csrs.debugSave cause h.pc, pc := haltAddress, pending := none, debug := true }

/-- It does so of its own accord. A request to halt goes before a step, and an EBREAK before that. -/
def stops (haltreq : Bool) (dcsr : Dcsr) (cause : BitVec 3) : Bool :=
  cause = DBG_CAUSE_EBREAK && (dcsr.ebreakm || haltreq) || cause = DBG_CAUSE_STEP && dcsr.step && !haltreq

/-- An address in the page of the debug module. -/
def inPage (a : Word) : Prop := a.toNat / 2 ^ 12 = base.toNat / 2 ^ 12

instance (a : Word) : Decidable (inPage a) := inferInstanceAs (Decidable (_ = _))

/-- The access that reaches the debug module. -/
def access (s : DebugTarget) : HartMove → Option Access
  | .move => if s.hart.debug = true ∧ inPage s.hart.access.addr then some s.hart.access else none
  | _ => none

/-- The access that reaches the memory. -/
def storeOutside (h : RiscvCore) (a : Access) : RiscvCore :=
  if a.we then { h with core := h.core.store a.addr a.wdata } else h

/-- What `dm_sba` and its registers see of the memory. -/
def port (s : DebugTarget) : SbPort := ⟨s.dm.sb, s.dm.regs.dmcontrol.dmactive, s.dm.sba, s.hart.core.mem, s.owed⟩

/-- The hart after an edge at which the memory is `mem`. -/
def hartEdge (s : DebugTarget) (mem : Word → Word) (r : Option Request) (m : HartMove) : RiscvCore :=
  let h := s.hart.withMem mem
  match m with
  | .wait => h
  | .move =>
    if h.debug then
      let a := h.access
      if inPage a.addr then h.next haltAddress (s.dm.mem.rdataO (s.dm.memIn r) a)
      else storeOutside (h.next haltAddress (mem a.addr)) a
    else if (s.dm.memIn r).haltreq then enter h DBG_CAUSE_HALTREQ
    else h
  | .stop cause =>
    if h.debug then h
    else if stops (s.dm.memIn r).haltreq h.csrs.dcsr cause then enter h cause
    else h
  | .run next csrs pc => if h.debug then h else { h with core := next h.core, csrs := csrs, pc := pc }

/-- An edge of the clock. -/
def edge (s : DebugTarget) (i : Edge) (r : Option Request) : DebugTarget where
  dm := s.dm.edge (s.port.bus i.bus r) (s.access i.hart) r
  owed := (s.port.edge i.bus r).owed
  hart := s.hartEdge (s.port.edge i.bus r).mem r i.hart

end DebugTarget

/-! ### The system bus is that of `SbPort` -/

theorem DmRegs.dmactive_request (s : DmRegs) (cmdbusy : Bool) (r : Request) :
    (s.request cmdbusy r).dmcontrol.dmactive =
      (written 0x10 (some r)).elim s.dmcontrol.dmactive (·.getLsbD 0) := by
  have herr : s.busyError.dmcontrol = s.dmcontrol := by
    rw [busyError]
    split_ifs <;> rfl
  by_cases hr : r.op = DTM_WRITE ∧ r.adr = 0x10
  · have hdata : ¬ isData 0x10 := by decide
    rw [written, if_pos hr, request, hr.1, hr.2, if_neg (by decide), if_pos rfl, if_neg hdata, if_pos rfl]
    rfl
  rw [written, if_neg hr, Option.elim_none, request]
  by_cases hread : r.op = DTM_READ
  · rw [if_pos hread]
    split_ifs <;> rfl
  by_cases hwrite : r.op = DTM_WRITE
  · rw [if_neg hread, if_pos hwrite, if_neg fun hadr => hr ⟨hwrite, hadr⟩]
    split_ifs <;> first | rfl | rw [herr]
  · rw [if_neg hread, if_neg hwrite]

theorem DmTop.dmactive_requested (s : DmTop) (r : Option Request) :
    (s.requested r).dmcontrol.dmactive =
      (written 0x10 r).elim s.regs.dmcontrol.dmactive (·.getLsbD 0) := by
  cases r with
  | none => rfl
  | some r => exact DmRegs.dmactive_request _ _ r

theorem DmTop.dmactive_regsEdge (s : DmTop) (a : Option Access) (r : Option Request) :
    (s.regsEdge a r).dmcontrol.dmactive = (s.requested r).dmcontrol.dmactive := by
  have helim {α : Type} (o : Option α) (f : α → DmRegs) (t : DmRegs)
      (hf : ∀ a, (f a).dmcontrol = t.dmcontrol) : (o.elim t f).dmcontrol = t.dmcontrol := by
    cases o with
    | none => rfl
    | some a => exact hf a
  simp only [DmTop.regsEdge]
  split_ifs <;> simp only [DmRegs.fresh, helim, implies_true]

/-- An edge of the whole is an edge of the system bus, but for what the hart itself stores. -/
theorem DebugTarget.port_edge (s : DebugTarget) (i : DebugTarget.Edge) (r : Option Request) :
    (s.edge i r).port = { s.port.edge i.bus r with mem := (s.edge i r).hart.core.mem } := by
  have hactive : (s.dm.regsEdge (s.access i.hart) r).dmcontrol.dmactive = (s.port.edge i.bus r).dmactive :=
    (s.dm.dmactive_regsEdge _ r).trans (s.dm.dmactive_requested r)
  change (⟨_, (s.dm.regsEdge (s.access i.hart) r).dmcontrol.dmactive, _, _, _⟩ : SbPort) = _
  rw [hactive]
  rfl

/-- The debug module as the transport sees it. -/
def pulpDm : DmCsrs DebugTarget DebugTarget.Edge where
  edge := DebugTarget.edge
  respData s _ r := (s.dm.respData r).toNat

end PyOcdRiscv.Target
