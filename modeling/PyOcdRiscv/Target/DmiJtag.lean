import PyOcdRiscv.Lib.Runs
import PyOcdRiscv.Target.Cdc2Phase
import PyOcdRiscv.Target.DmiJtagTap
import PyOcdRiscv.Target.Dtm
import PyOcdRiscv.Target.FifoV3

/-!
# The debug transport of the Pulp target

`dmi_jtag.sv`: behind the TAP a state machine in the domain of TCK takes the request that an
Update-DR leaves in the DMI register, and hands it to the debug module, which runs on the
core's clock. Requests and responses cross over in `dmi_cdc.sv`, and the debug module
(`dm_csrs.sv`) answers every request, a write as well as a read, by way of a queue of two.

A write is over for the state machine when its request has been handed over, a read when a
response arrives. Whatever response arrives then is the one: nothing says which request it
belongs to. What the debug module does with a request is left open (`DmCsrs`).
-/

namespace PyOcdRiscv.Target

open Lib

/-! ### The state machine -/

/-- `state_e`. -/
inductive DmiState where
  | idle | read | waitReadValid | write | waitWriteValid
  deriving DecidableEq, Repr

/-- `dmi_error_e`. -/
inductive DmiError where
  | noError | reservedError | opFailed | busy
  deriving DecidableEq, Repr

/-- Its code. -/
def DmiError.code : DmiError → ℕ
  | .noError => 0
  | .reservedError => 1
  | .opFailed => 2
  | .busy => 3

/-- `DTM_READ`. -/
def DTM_READ : ℕ := 1

/-- `DTM_WRITE`. -/
def DTM_WRITE : ℕ := 2

/-- The registers of `dmi_jtag`. -/
structure DmiJtag where
  /-- `state_q`. -/
  state : DmiState
  /-- `dr_q`. -/
  dr : ShiftReg 41
  /-- `address_q`. -/
  address : ℕ
  /-- `data_q`. -/
  data : ℕ
  /-- `error_q`. -/
  error : DmiError

namespace DmiJtag

/-- After a reset. -/
def fresh : DmiJtag := ⟨.idle, .ofNat 41 0, 0, 0, .noError⟩

/-- `dmi`: what `dr_q` says. -/
def dmi (s : DmiJtag) : Request := Request.ofReg s.dr

/-- `dmi_req` and `dmi_req_valid`. -/
def dmiReq (s : DmiJtag) : Option Request :=
  match s.state with
  | .read => some ⟨DTM_READ, s.address, s.data⟩
  | .write => some ⟨DTM_WRITE, s.address, s.data⟩
  | _ => none

/-- An Update-DR with the DMI register selected, in Idle and with no error: its request is
taken. -/
def takes (s : DmiJtag) (t : DmiJtagTap) : Bool :=
  s.state = .idle ∧ t.dmiAccess = true ∧ t.tapState = .updateDr ∧ s.error = .noError

/-- `error_dmi_busy`. -/
def errorDmiBusy (s : DmiJtag) (t : DmiJtagTap) : Bool :=
  (t.tapState = .updateDr ∧ s.state ≠ .idle) ∨
    t.tapState = .captureDr ∧ (s.state = .read ∨ s.state = .waitReadValid)

/-- `state_d`, with `dmi_req_ready`, and the response if `dmi_resp_valid` is high. -/
def nextState (s : DmiJtag) (t : DmiJtagTap) (reqReady : Bool) (resp : Option ℕ) : DmiState :=
  match s.state with
  | .idle =>
    if s.takes t then
      if s.dmi.op = DTM_READ then .read else if s.dmi.op = DTM_WRITE then .write else .idle
    else .idle
  | .read => if reqReady then .waitReadValid else .read
  | .waitReadValid => if resp.isSome then .idle else .waitReadValid
  | .write => if reqReady then .idle else .write
  | .waitWriteValid => if resp.isSome then .idle else .waitWriteValid

/-- `data_d`. -/
def nextData (s : DmiJtag) (t : DmiJtagTap) (resp : Option ℕ) : ℕ :=
  if s.takes t then s.dmi.data
  else if s.state = .waitReadValid then resp.getD s.data
  else s.data

/-- What Capture-DR loads. -/
def captured (s : DmiJtag) (status : DmiError) : ShiftReg 41 :=
  ⟨bits 2 status.code ++ bits 32 s.data ++ bits 7 s.address, by simp⟩

/-- `dr_d`. -/
def nextDr (s : DmiJtag) (t : DmiJtagTap) (tdi : Bool) : ShiftReg 41 :=
  match t.tapState with
  | .captureDr =>
    if t.dmiAccess then
      if s.error = .noError ∧ s.errorDmiBusy t = false then s.captured .noError
      else if s.error = .busy ∨ s.errorDmiBusy t = true then s.captured .busy
      else s.dr
    else s.dr
  | .shiftDr => if t.dmiAccess then s.dr.shiftIn tdi else s.dr
  | .testLogicReset => .ofNat 41 0
  | _ => s.dr

/-- A rising edge of TCK. -/
def edge (s : DmiJtag) (t : DmiJtagTap) (reqReady : Bool) (resp : Option ℕ) (e : Edge) : DmiJtag where
  state := s.nextState t reqReady resp
  dr := s.nextDr t e.tdi
  address := if s.takes t then s.dmi.adr else s.address
  data := s.nextData t resp
  error :=
    if t.dmiReset && t.dtmcsSelect then .noError
    else if s.errorDmiBusy t then .busy
    else s.error

/-- What an edge can do to state, address and data, and when. -/
inductive Moves (s : DmiJtag) (t : DmiJtagTap) (reqReady : Bool) (resp : Option ℕ) (s' : DmiJtag) : Prop
  /-- A request is taken. -/
  | take (htake : s.takes t = true) (haddress : s'.address = s.dmi.adr) (hdata : s'.data = s.dmi.data)
      (hstate : s'.state =
        if s.dmi.op = DTM_READ then .read else if s.dmi.op = DTM_WRITE then .write else .idle)
  /-- Nothing happens. -/
  | stay (htake : s.takes t = false) (haddress : s'.address = s.address) (hdata : s'.data = s.data)
      (hstate : s'.state = s.state) (hreq : s.dmiReq = none ∨ reqReady = false)
      (hresp : s.state = .waitReadValid → resp = none)
  /-- The request is handed over. -/
  | handOver (htake : s.takes t = false) (haddress : s'.address = s.address) (hdata : s'.data = s.data)
      (hready : reqReady = true)
      (hstate : s.state = .read ∧ s'.state = .waitReadValid ∨ s.state = .write ∧ s'.state = .idle)
  /-- A response arrives. -/
  | arrive (htake : s.takes t = false) (haddress : s'.address = s.address) (hstate : s.state = .waitReadValid)
      (hidle : s'.state = .idle) (hresp : resp = some s'.data)
  /-- The state that nothing leads to is left. -/
  | leave (htake : s.takes t = false) (haddress : s'.address = s.address) (hdata : s'.data = s.data)
      (hstate : s.state = .waitWriteValid) (hidle : s'.state = .idle)

theorem state_of_takes {s : DmiJtag} {t : DmiJtagTap} (h : s.takes t = true) : s.state = .idle := by
  simp only [takes, decide_eq_true_eq] at h
  exact h.1

/-- Only an idle state machine takes a request. -/
theorem takes_eq_false {s : DmiJtag} (t : DmiJtagTap) (h : s.state ≠ .idle) : s.takes t = false := by
  simp [takes, h]

theorem edge_moves (s : DmiJtag) (t : DmiJtagTap) (reqReady : Bool) (resp : Option ℕ) (e : Edge) :
    s.Moves t reqReady resp (s.edge t reqReady resp e) := by
  cases hstate : s.state with
  | idle =>
    by_cases htake : s.takes t = true
    · exact .take htake (if_pos htake) (if_pos htake) (by simp [edge, nextState, hstate, htake])
    · have hnot : s.takes t = false := by simpa using htake
      exact .stay hnot (by simp [edge, hnot]) (by simp [edge, nextData, hnot, hstate])
        (by simp [edge, nextState, hstate, hnot]) (Or.inl (by simp [dmiReq, hstate])) (by simp [hstate])
  | read =>
    have hnot : s.takes t = false := takes_eq_false t (by simp [hstate])
    have hdata : (s.edge t reqReady resp e).data = s.data := by simp [edge, nextData, hnot, hstate]
    cases reqReady with
    | true =>
      exact .handOver hnot (by simp [edge, hnot]) hdata rfl (Or.inl ⟨hstate, by simp [edge, nextState, hstate]⟩)
    | false =>
      exact .stay hnot (by simp [edge, hnot]) hdata (by simp [edge, nextState, hstate]) (Or.inr rfl) (by simp [hstate])
  | waitReadValid =>
    have hnot : s.takes t = false := takes_eq_false t (by simp [hstate])
    cases resp with
    | some v =>
      exact .arrive hnot (by simp [edge, hnot]) hstate (by simp [edge, nextState, hstate])
        (by simp [edge, nextData, hnot, hstate])
    | none =>
      exact .stay hnot (by simp [edge, hnot]) (by simp [edge, nextData, hnot, hstate])
        (by simp [edge, nextState, hstate]) (Or.inl (by simp [dmiReq, hstate])) fun _ => rfl
  | write =>
    have hnot : s.takes t = false := takes_eq_false t (by simp [hstate])
    have hdata : (s.edge t reqReady resp e).data = s.data := by simp [edge, nextData, hnot, hstate]
    cases reqReady with
    | true =>
      exact .handOver hnot (by simp [edge, hnot]) hdata rfl (Or.inr ⟨hstate, by simp [edge, nextState, hstate]⟩)
    | false =>
      exact .stay hnot (by simp [edge, hnot]) hdata (by simp [edge, nextState, hstate]) (Or.inr rfl) (by simp [hstate])
  | waitWriteValid =>
    have hnot : s.takes t = false := takes_eq_false t (by simp [hstate])
    have hdata : (s.edge t reqReady resp e).data = s.data := by simp [edge, nextData, hnot, hstate]
    cases resp with
    | some v => exact .leave hnot (by simp [edge, hnot]) hdata hstate (by simp [edge, nextState, hstate])
    | none =>
      exact .stay hnot (by simp [edge, hnot]) hdata (by simp [edge, nextState, hstate])
        (Or.inl (by simp [dmiReq, hstate])) (by simp [hstate])

end DmiJtag

/-! ### The whole -/

/-- The registers of the debug module, as far as the transport sees them. `ω` is what else
there is at its inputs. -/
structure DmCsrs (μ ω : Type) where
  /-- An edge of the core's clock, with the request it accepts. -/
  edge : μ → ω → Option Request → μ
  /-- `resp_queue_data`. -/
  respData : μ → ω → Request → ℕ

/-- TAP, state machine, crossings, debug module and its queue. -/
structure DmiSystem (μ : Type) where
  /-- `i_dmi_jtag_tap`. -/
  tap : DmiJtagTap
  /-- `dmi_jtag`. -/
  jtag : DmiJtag
  /-- `i_cdc_req`. -/
  req : Cdc2Phase Request
  /-- `i_cdc_resp`. -/
  resp : Cdc2Phase ℕ
  /-- `dm_csrs`. -/
  dm : μ
  /-- `i_fifo`. -/
  queue : FifoV3 ℕ

/-- Edges at one moment: of TCK, of the core's clock, or of both. -/
structure DmiEdges (ω : Type) where
  /-- An edge of TCK. -/
  tck : Option Edge
  /-- An edge of the core's clock. -/
  clk : Option ω

namespace DmiSystem

variable {μ ω : Type}

/-- `DEPTH` of the queue. -/
def DEPTH : ℕ := 2

/-- The response that the state machine sees. -/
def dmiResp (s : DmiSystem μ) : Option ℕ := if s.resp.dst.valid then some s.resp.dst.dataDst else none

/-- `dmi_req_ready_o`. -/
def dmReady (s : DmiSystem μ) : Bool := !s.queue.full DEPTH

/-- The request that the debug module accepts at an edge of its clock. -/
def accepted (s : DmiSystem μ) : Option Request :=
  if s.req.dst.valid && s.dmReady then some s.req.dst.dataDst else none

/-- The edges at the crossing of the requests. -/
def reqEdges (s : DmiSystem μ) (i : DmiEdges ω) : CdcEdges Request :=
  ⟨i.tck.map fun _ => s.jtag.dmiReq, i.clk.map fun _ => s.dmReady⟩

/-- `dmi_resp_valid_o` and `dmi_resp_o`. -/
def respOut (s : DmiSystem μ) : Option ℕ :=
  if s.queue.statusCnt = 0 then none else some (s.queue.mem s.queue.readPointer)

/-- The edges at the crossing of the responses. The state machine is always ready. -/
def respEdges (s : DmiSystem μ) (i : DmiEdges ω) : CdcEdges ℕ :=
  ⟨i.clk.map fun _ => s.respOut, i.tck.map fun _ => true⟩

variable (D : DmCsrs μ ω) (IdcodeValue : ℕ)

/-- What is at the inputs of the queue. -/
def queueIn (s : DmiSystem μ) (w : ω) : FifoIn ℕ :=
  ⟨s.accepted.map (D.respData s.dm w), s.resp.src.ready && s.respOut.isSome⟩

/-- The edges. -/
def step (s : DmiSystem μ) (i : DmiEdges ω) : DmiSystem μ where
  tap := i.tck.elim s.tap fun e => s.tap.edge IdcodeValue s.jtag.error.code e
  jtag := i.tck.elim s.jtag fun e => s.jtag.edge s.tap s.req.src.ready s.dmiResp e
  req := s.req.step (s.reqEdges i)
  resp := s.resp.step (s.respEdges i)
  dm := i.clk.elim s.dm fun w => D.edge s.dm w s.accepted
  queue := i.clk.elim s.queue fun w => s.queue.edge DEPTH false (s.queueIn D w)

/-- After a reset. -/
def fresh (tap : DmiJtagTap) (dm : μ) : DmiSystem μ :=
  ⟨tap, .fresh, .fresh ⟨0, 0, 0⟩, .fresh 0, dm, .fresh 0⟩

/-! ### What goes to and fro -/

/-- The request that is accepted at these edges, and what is answered to it. -/
def exchanges (s : DmiSystem μ) (i : DmiEdges ω) : List (Request × ℕ) :=
  match i.clk, s.accepted with
  | some w, some r => [(r, D.respData s.dm w r)]
  | _, _ => []

/-- What has been seen of a run. -/
structure Traffic where
  /-- The requests that the state machine has taken. -/
  taken : List Request
  /-- The requests that the debug module has accepted, and what it has answered. -/
  log : List (Request × ℕ)
  /-- The responses that have reached the state machine. -/
  received : List ℕ

/-- The requests that go to the debug module. -/
def transfers (l : List Request) : List Request := l.filter fun r => r.op = DTM_READ ∨ r.op = DTM_WRITE

/-- The edges, and what is seen at them. -/
def next (x : DmiSystem μ × Traffic) (i : DmiEdges ω) : DmiSystem μ × Traffic where
  fst := x.1.step D IdcodeValue i
  snd :=
    { taken := x.2.taken ++ if i.tck.isSome && x.1.jtag.takes x.1.tap then [x.1.jtag.dmi] else []
      log := x.2.log ++ x.1.exchanges D i
      received := x.2.received ++ x.1.resp.delivers (x.1.respEdges i) }

/-- After a reset, with nothing seen. -/
def start (tap : DmiJtagTap) (dm : μ) : DmiSystem μ × Traffic := ⟨fresh tap dm, [], [], []⟩

/-- A run from a reset. -/
def run (tap : DmiJtagTap) (dm : μ) (is : List (DmiEdges ω)) : DmiSystem μ × Traffic :=
  is.foldl (next D IdcodeValue) (start tap dm)

/-- The responses that the state machine has not seen yet. -/
def underway (s : DmiSystem μ) : List ℕ := s.resp.held ++ FifoV3.held DEPTH s.queue

/-- What is true of every state that a run reaches, and of what has been seen of the run. -/
structure Flow (x : DmiSystem μ × Traffic) : Prop where
  req : Cdc2Phase.Inv x.1.req
  resp : Cdc2Phase.Inv x.1.resp
  queue : FifoV3.Inv DEPTH x.1.queue
  taken : transfers x.2.taken = x.2.log.map Prod.fst ++ (x.1.req.held ++ x.1.jtag.dmiReq.toList)
  received : x.2.log.map Prod.snd = x.2.received ++ x.1.underway

variable {D IdcodeValue}

/-- The debug module accepts what comes out of the crossing. -/
theorem delivers_eq (s : DmiSystem μ) (i : DmiEdges ω) :
    s.req.delivers (s.reqEdges i) = (s.exchanges D i).map Prod.fst := by
  obtain ⟨tck, _ | w⟩ := i
  · rfl
  · rw [Cdc2Phase.delivers, exchanges, accepted, reqEdges]
    by_cases h : s.req.dst.valid = true ∧ s.dmReady = true
    · rw [if_pos ⟨by rw [h.2]; rfl, h.1⟩, h.1, h.2]
      rfl
    · have hnot : (s.req.dst.valid && s.dmReady) = false := by simpa using h
      rw [if_neg fun hc => h ⟨hc.2, by simpa using hc.1⟩, hnot]
      rfl

/-- Every request it accepts puts an answer into the queue. -/
theorem takes_eq (s : DmiSystem μ) (tck : Option Edge) (w : ω) :
    s.queue.takes DEPTH (s.queueIn D w) = (s.exchanges D ⟨tck, some w⟩).map Prod.snd := by
  rw [FifoV3.takes, exchanges, queueIn, accepted, dmReady]
  by_cases hfull : s.queue.full DEPTH = true
  · rw [if_pos hfull, hfull, Bool.not_true, Bool.and_false]
    rfl
  · have hnot : s.queue.full DEPTH = false := by simpa using hfull
    rw [if_neg hfull, hnot, Bool.not_false, Bool.and_true]
    cases s.req.dst.valid <;> rfl

/-- What the queue gives out goes into the other crossing. -/
theorem gives_eq (s : DmiSystem μ) (tck : Option Edge) (w : ω) :
    s.resp.accepts (s.respEdges ⟨tck, some w⟩) = s.queue.gives false (s.queueIn D w) := by
  rw [Cdc2Phase.accepts, FifoV3.gives, respEdges, queueIn, respOut]
  have hempty : s.queue.empty false ⟨s.accepted.map (D.respData s.dm w), s.resp.src.ready && s.respOut.isSome⟩ =
      (s.queue.statusCnt == 0) := by simp [FifoV3.empty]
  by_cases hcnt : s.queue.statusCnt = 0
  · simp [hcnt]
  · have hdata (i : FifoIn ℕ) : s.queue.dataO false i = s.queue.mem s.queue.readPointer := by
      rw [FifoV3.dataO]
      split <;> rfl
    rw [hdata]
    simp [hcnt, FifoV3.empty]

/-- What becomes of the request on its way. -/
theorem held_step (D : DmCsrs μ ω) (IdcodeValue : ℕ) {s : DmiSystem μ} (h : Cdc2Phase.Inv s.req) (i : DmiEdges ω) :
    s.req.held ++ s.req.accepts (s.reqEdges i) =
      (s.exchanges D i).map Prod.fst ++ (s.step D IdcodeValue i).req.held := by
  rw [← delivers_eq]
  exact Cdc2Phase.keeps.held_step h (s.reqEdges i)

/-- What becomes of the responses on their way. -/
theorem underway_step (D : DmCsrs μ ω) (IdcodeValue : ℕ) {s : DmiSystem μ}
    (hresp : Cdc2Phase.Inv s.resp) (hqueue : FifoV3.Inv DEPTH s.queue) (i : DmiEdges ω) :
    s.underway ++ (s.exchanges D i).map Prod.snd =
      s.resp.delivers (s.respEdges i) ++ (s.step D IdcodeValue i).underway := by
  have hstep := Cdc2Phase.keeps.held_step hresp (s.respEdges i)
  change s.resp.held ++ s.resp.accepts _ = s.resp.delivers _ ++ (s.resp.step _).held at hstep
  obtain ⟨tck, _ | w⟩ := i
  · have hnone : s.resp.accepts (s.respEdges (⟨tck, none⟩ : DmiEdges ω)) = [] := rfl
    change s.underway ++ [] = _ ++ ((s.resp.step _).held ++ FifoV3.held DEPTH s.queue)
    rw [hnone, List.append_nil] at hstep
    rw [List.append_nil, underway, hstep, List.append_assoc]
  · have hqueue' := (FifoV3.keeps false (show 0 < DEPTH by decide)).held_step hqueue (s.queueIn D w)
    change FifoV3.held DEPTH s.queue ++ s.queue.takes DEPTH _ =
      s.queue.gives false _ ++ FifoV3.held DEPTH (s.queue.edge DEPTH false _) at hqueue'
    rw [gives_eq (D := D)] at hstep
    rw [takes_eq s tck] at hqueue'
    change s.underway ++ _ =
      _ ++ ((s.resp.step _).held ++ FifoV3.held DEPTH (s.queue.edge DEPTH false (s.queueIn D w)))
    rw [underway, List.append_assoc, hqueue', ← List.append_assoc, hstep, List.append_assoc]

/-- What the crossing accepts at an edge of TCK. -/
theorem accepts_tck (s : DmiSystem μ) (e : Edge) (clk : Option ω) :
    s.req.accepts (s.reqEdges ⟨some e, clk⟩) = if s.req.src.ready then s.jtag.dmiReq.toList else [] := by
  rw [Cdc2Phase.accepts, reqEdges, Option.map_some]
  cases s.jtag.dmiReq <;> simp

/-- The state machine holds a request until the crossing accepts it. -/
theorem dmiReq_step (D : DmCsrs μ ω) (IdcodeValue : ℕ) (s : DmiSystem μ) (i : DmiEdges ω) :
    s.jtag.dmiReq.toList ++ transfers (if i.tck.isSome && s.jtag.takes s.tap then [s.jtag.dmi] else []) =
      s.req.accepts (s.reqEdges i) ++ (s.step D IdcodeValue i).jtag.dmiReq.toList := by
  obtain ⟨_ | e, clk⟩ := i
  · exact List.append_nil _
  · rw [accepts_tck, Option.isSome_some, Bool.true_and]
    change _ = _ ++ (s.jtag.edge s.tap s.req.src.ready s.dmiResp e).dmiReq.toList
    cases s.jtag.edge_moves s.tap s.req.src.ready s.dmiResp e with
    | take htake haddress hdata hstate =>
      have hidle : s.jtag.dmiReq = none := by rw [DmiJtag.dmiReq, DmiJtag.state_of_takes htake]
      rw [hidle, if_pos htake, Option.toList_none, ite_self, List.nil_append, List.nil_append, DmiJtag.dmiReq, hstate,
        haddress, hdata]
      by_cases hread : s.jtag.dmi.op = DTM_READ
      · rw [if_pos hread, ← hread, transfers, List.filter_singleton, decide_eq_true (Or.inl hread)]
        rfl
      · by_cases hwrite : s.jtag.dmi.op = DTM_WRITE
        · rw [if_neg hread, if_pos hwrite, ← hwrite, transfers, List.filter_singleton, decide_eq_true (Or.inr hwrite)]
          rfl
        · rw [if_neg hread, if_neg hwrite, transfers, List.filter_singleton, decide_eq_false (by tauto)]
          rfl
    | stay htake haddress hdata hstate hreq hresp =>
      have hsame : (s.jtag.edge s.tap s.req.src.ready s.dmiResp e).dmiReq = s.jtag.dmiReq := by
        rw [DmiJtag.dmiReq, DmiJtag.dmiReq, hstate, haddress, hdata]
      rw [htake, if_neg Bool.false_ne_true, hsame]
      rcases hreq with hnone | hready
      · rw [hnone, Option.toList_none, ite_self]
        rfl
      · rw [hready, if_neg Bool.false_ne_true]
        exact List.append_nil _
    | handOver htake haddress hdata hready hstate =>
      rw [htake, hready, if_neg Bool.false_ne_true, if_pos rfl]
      have hnone : (s.jtag.edge s.tap s.req.src.ready s.dmiResp e).dmiReq = none := by
        rcases hstate with ⟨-, h⟩ | ⟨-, h⟩ <;> rw [DmiJtag.dmiReq, h]
      rw [← hready, hnone]
      rfl
    | arrive htake haddress hstate hidle hresp =>
      simp [htake, DmiJtag.dmiReq, hstate, hidle, transfers]
    | leave htake haddress hdata hstate hidle =>
      simp [htake, DmiJtag.dmiReq, hstate, hidle, transfers]

theorem transfers_append (l₁ l₂ : List Request) : transfers (l₁ ++ l₂) = transfers l₁ ++ transfers l₂ :=
  List.filter_append _ _

theorem Flow.next {x : DmiSystem μ × Traffic} (h : Flow x) (i : DmiEdges ω) : Flow (next D IdcodeValue x i) := by
  obtain ⟨s, g⟩ := x
  obtain ⟨hreq, hresp, hqueue, htaken, hreceived⟩ := h
  refine ⟨hreq.step _, hresp.step _, ?_, ?_, ?_⟩
  · obtain ⟨tck, _ | w⟩ := i
    · exact hqueue
    · exact hqueue.edge (by decide) _
  · have hstep := held_step D IdcodeValue hreq i
    change transfers (g.taken ++ _) = (g.log ++ s.exchanges D i).map Prod.fst ++
      ((s.step D IdcodeValue i).req.held ++ (s.step D IdcodeValue i).jtag.dmiReq.toList)
    calc transfers (g.taken ++ _)
        = g.log.map Prod.fst ++ (s.req.held ++ (s.jtag.dmiReq.toList ++ transfers
            (if i.tck.isSome && s.jtag.takes s.tap then [s.jtag.dmi] else []))) := by
          rw [transfers_append, htaken, List.append_assoc, List.append_assoc]
      _ = g.log.map Prod.fst ++ (s.req.held ++ s.req.accepts (s.reqEdges i) ++
            (s.step D IdcodeValue i).jtag.dmiReq.toList) := by
          rw [dmiReq_step D IdcodeValue, List.append_assoc]
      _ = _ := by
          rw [hstep, List.map_append, List.append_assoc, List.append_assoc]
  · have hstep := underway_step D IdcodeValue hresp hqueue i
    change (g.log ++ s.exchanges D i).map Prod.snd =
      g.received ++ s.resp.delivers _ ++ (s.step D IdcodeValue i).underway
    change g.log.map Prod.snd = g.received ++ s.underway at hreceived
    rw [List.map_append, hreceived, List.append_assoc, hstep, List.append_assoc]

theorem flow_start (tap : DmiJtagTap) (dm : μ) : Flow (start tap dm) :=
  ⟨Cdc2Phase.inv_fresh _, Cdc2Phase.inv_fresh _, FifoV3.inv_fresh (by decide) _, rfl, rfl⟩

theorem flow_run (tap : DmiJtagTap) (dm : μ) (is : List (DmiEdges ω)) : Flow (run D IdcodeValue tap dm is) :=
  List.foldlRecOn is _ (flow_start tap dm) fun _ hx i _ => hx.next i

/-- **Every request reaches the debug module once, and in order**, and every response the state
machine: over any run, however the edges of the two clocks fall and whatever is scanned. The
requests that the debug module has accepted are those that the state machine has taken, up to
two at the end; the responses that the state machine has seen are those that the debug module has
given, up to three. -/
theorem exchanged_once (tap : DmiJtagTap) (dm : μ) (is : List (DmiEdges ω)) :
    let x := run D IdcodeValue tap dm is
    x.2.log.map Prod.fst <+: transfers x.2.taken ∧ (transfers x.2.taken).length ≤ x.2.log.length + 2 ∧
      x.2.received <+: x.2.log.map Prod.snd ∧ x.2.log.length ≤ x.2.received.length + 3 := by
  intro x
  obtain ⟨-, -, hqueue, htaken, hreceived⟩ : Flow x := flow_run tap dm is
  refine ⟨⟨_, htaken.symm⟩, ?_, ⟨_, hreceived.symm⟩, ?_⟩
  · have hheld := Cdc2Phase.length_held_le x.1.req
    have hpending : x.1.jtag.dmiReq.toList.length ≤ 1 := by cases x.1.jtag.dmiReq <;> simp
    have hlen := congrArg List.length htaken
    simp only [List.length_append, List.length_map] at hlen
    omega
  · have hheld := Cdc2Phase.length_held_le x.1.resp
    have hcount : x.1.queue.statusCnt ≤ 2 := hqueue.count
    have hlen := congrArg List.length hreceived
    simp only [List.length_append, List.length_map, underway, FifoV3.length_held] at hlen
    omega

end DmiSystem

end PyOcdRiscv.Target
