import PyOcdRiscv.Target.DmiJtag

/-!
# What a status of zero means

Capture-DR shows the data of the last request with a status: zero, or three if the state
machine was, or has been, busy. A debugger takes the data for the answer to its request if the
status is zero.

It is, if a read is taken only when nothing is on its way (`Quiet`). The state machine itself
does not see to that: it forgets a write when it has handed it over, and takes the answer to
the write, if it arrives late, for the answer to the read that comes next.
-/

namespace PyOcdRiscv.Target

open Lib

namespace DmiSystem

variable {μ ω : Type} {D : DmCsrs μ ω} {IdcodeValue : ℕ}

/-- A read that is taken now finds nothing on its way. -/
def Quiet (x : DmiSystem μ × Traffic) (i : DmiEdges ω) : Prop :=
  (i.tck.isSome && x.1.jtag.takes x.1.tap) = true → x.1.jtag.dmi.op = DTM_READ →
    x.1.req.held = [] ∧ x.1.underway = []

instance (x : DmiSystem μ × Traffic) (i : DmiEdges ω) : Decidable (Quiet x i) := by
  unfold Quiet
  infer_instance

/-- The registers of the state machine show the answer to `r`, or `r` itself. -/
structure Shows (x : DmiSystem μ × Traffic) (r : Request) : Prop where
  address : x.1.jtag.address = r.adr
  answer : r.op = DTM_READ → x.2.log.getLast? = some (r, x.1.jtag.data)
  data : r.op ≠ DTM_READ → x.1.jtag.data = r.data

/-- Where the last request is, state by state. -/
inductive Served (x : DmiSystem μ × Traffic) : Prop
  | idle (hstate : x.1.jtag.state = .idle) (hshows : ∀ r, x.2.taken.getLast? = some r → Shows x r)
      (hheld : ∀ r, x.2.taken.getLast? = some r → r.op = DTM_READ → x.1.req.held = [])
  | read (r : Request) (hstate : x.1.jtag.state = .read) (hlast : x.2.taken.getLast? = some r)
      (hreq : r = ⟨DTM_READ, x.1.jtag.address, x.1.jtag.data⟩) (hheld : x.1.req.held = [])
      (hunder : x.1.underway = [])
  | waiting (r : Request) (hstate : x.1.jtag.state = .waitReadValid) (hlast : x.2.taken.getLast? = some r)
      (hop : r.op = DTM_READ) (haddress : x.1.jtag.address = r.adr) (hheld : x.1.req.held = [r])
      (hunder : x.1.underway = [])
  | answered (r : Request) (v : ℕ) (hstate : x.1.jtag.state = .waitReadValid)
      (hlast : x.2.taken.getLast? = some r) (hop : r.op = DTM_READ) (haddress : x.1.jtag.address = r.adr)
      (hheld : x.1.req.held = []) (hunder : x.1.underway = [v]) (hlog : x.2.log.getLast? = some (r, v))
  | write (r : Request) (hstate : x.1.jtag.state = .write) (hlast : x.2.taken.getLast? = some r)
      (hreq : r = ⟨DTM_WRITE, x.1.jtag.address, x.1.jtag.data⟩)

/-! ### What is on its way -/

theorem exchanges_cases (D : DmCsrs μ ω) (s : DmiSystem μ) (i : DmiEdges ω) :
    s.exchanges D i = [] ∨ ∃ r v, s.exchanges D i = [(r, v)] := by
  rw [exchanges]
  split
  · exact Or.inr ⟨_, _, rfl⟩
  · exact Or.inl rfl

/-- Nothing is exchanged if no request is on its way. -/
theorem exchanges_of_held {s : DmiSystem μ} (h : Cdc2Phase.Inv s.req) (hheld : s.req.held = []) (i : DmiEdges ω) :
    s.exchanges D i = [] := by
  rw [exchanges, accepted, h.valid_of_held_nil hheld]
  rcases i with ⟨tck, _ | w⟩ <;> rfl

/-- A response that the state machine sees is the first one on its way. -/
theorem underway_of_dmiResp {s : DmiSystem μ} (h : Cdc2Phase.Inv s.resp) {v : ℕ} (hv : s.dmiResp = some v) :
    ∃ l, s.underway = v :: l := by
  rw [dmiResp] at hv
  split_ifs at hv with hvalid
  rw [underway, h.held_of_valid hvalid, Option.some.inj hv]
  exact ⟨_, rfl⟩

/-- A step that no request and no response takes part in. -/
theorem held_step_nil {s : DmiSystem μ} (h : Cdc2Phase.Inv s.req) (hheld : s.req.held = []) {i : DmiEdges ω}
    (haccepts : s.req.accepts (s.reqEdges i) = []) : (s.step D IdcodeValue i).req.held = [] := by
  have hstep := held_step D IdcodeValue h i
  rw [exchanges_of_held h hheld, hheld, haccepts] at hstep
  exact hstep.symm

/-! ### Step by step -/

variable {x : DmiSystem μ × Traffic} {i : DmiEdges ω}

theorem underway_step_nil (h : Flow x) (hunder : x.1.underway = []) (hexchanges : x.1.exchanges D i = []) :
    (x.1.step D IdcodeValue i).underway = [] := by
  have hstep := underway_step D IdcodeValue h.resp h.queue i
  rw [hexchanges, hunder] at hstep
  exact (List.append_eq_nil_iff.mp hstep.symm).2

/-- A step in which the state machine does nothing. -/
theorem Served.still (h : Served x) (hflow : Flow x) (hstate : (x.1.step D IdcodeValue i).jtag.state = x.1.jtag.state)
    (haddress : (x.1.step D IdcodeValue i).jtag.address = x.1.jtag.address)
    (hdata : (x.1.step D IdcodeValue i).jtag.data = x.1.jtag.data)
    (htaken : (next D IdcodeValue x i).2.taken = x.2.taken) (haccepts : x.1.req.accepts (x.1.reqEdges i) = [])
    (hdelivers : x.1.jtag.state = .waitReadValid → x.1.resp.delivers (x.1.respEdges i) = []) :
    Served (next D IdcodeValue x i) := by
  have hlog (hheld : x.1.req.held = []) : (next D IdcodeValue x i).2.log = x.2.log := by
    change x.2.log ++ x.1.exchanges D i = _
    rw [exchanges_of_held hflow.req hheld, List.append_nil]
  cases h with
  | idle hidle hshows hheld =>
    refine .idle (hstate.trans hidle) (fun r hr => ?_) fun r hr hop => ?_
    · rw [htaken] at hr
      obtain ⟨hadr, hanswer, hother⟩ := hshows r hr
      refine ⟨haddress.trans hadr, fun hop => ?_, fun hop => hdata.trans (hother hop)⟩
      rw [hlog (hheld r hr hop), hanswer hop]
      exact congrArg (fun d => some (r, d)) hdata.symm
    · rw [htaken] at hr
      exact held_step_nil hflow.req (hheld r hr hop) haccepts
  | read r hread hlast hreq hheld hunder =>
    refine .read r (hstate.trans hread) (by rw [htaken, hlast]) ?_ (held_step_nil hflow.req hheld haccepts)
      (underway_step_nil hflow hunder (exchanges_of_held hflow.req hheld i))
    change r = ⟨DTM_READ, (x.1.step D IdcodeValue i).jtag.address, (x.1.step D IdcodeValue i).jtag.data⟩
    rw [haddress, hdata]
    exact hreq
  | waiting r hwait hlast hop hadr hheld hunder =>
    have hreq := held_step D IdcodeValue hflow.req i
    have hresp := underway_step D IdcodeValue hflow.resp hflow.queue i
    rw [hheld, haccepts, List.append_nil] at hreq
    rw [hunder, hdelivers hwait, List.nil_append, List.nil_append] at hresp
    rcases exchanges_cases D x.1 i with hex | ⟨r', v, hex⟩
    · rw [hex] at hreq hresp
      exact .waiting r (hstate.trans hwait) (by rw [htaken, hlast]) hop (haddress.trans hadr) hreq.symm hresp.symm
    · rw [hex] at hreq hresp
      obtain ⟨rfl, hnil⟩ := List.cons.inj hreq
      refine .answered r v (hstate.trans hwait) (by rw [htaken, hlast]) hop (haddress.trans hadr) hnil.symm hresp.symm ?_
      change (x.2.log ++ x.1.exchanges D i).getLast? = _
      rw [hex, List.getLast?_concat]
  | answered r v hwait hlast hop hadr hheld hunder hans =>
    have hresp := underway_step D IdcodeValue hflow.resp hflow.queue i
    rw [exchanges_of_held hflow.req hheld, hunder, hdelivers hwait] at hresp
    exact .answered r v (hstate.trans hwait) (by rw [htaken, hlast]) hop (haddress.trans hadr)
      (held_step_nil hflow.req hheld haccepts) hresp.symm (by rw [hlog hheld, hans])
  | write r hwrite hlast hreq =>
    refine .write r (hstate.trans hwrite) (by rw [htaken, hlast]) ?_
    change r = ⟨DTM_WRITE, (x.1.step D IdcodeValue i).jtag.address, (x.1.step D IdcodeValue i).jtag.data⟩
    rw [haddress, hdata]
    exact hreq

/-- A step in which it takes a request. -/
theorem Served.take (hflow : Flow x) (hquiet : Quiet x i) {e : Edge} (htck : i.tck = some e)
    (htake : x.1.jtag.takes x.1.tap = true)
    (haddress : (x.1.step D IdcodeValue i).jtag.address = x.1.jtag.dmi.adr)
    (hdata : (x.1.step D IdcodeValue i).jtag.data = x.1.jtag.dmi.data)
    (hstate : (x.1.step D IdcodeValue i).jtag.state =
      if x.1.jtag.dmi.op = DTM_READ then .read else if x.1.jtag.dmi.op = DTM_WRITE then .write else .idle) :
    Served (next D IdcodeValue x i) := by
  have hlast : (next D IdcodeValue x i).2.taken.getLast? = some x.1.jtag.dmi := by
    change (x.2.taken ++ if i.tck.isSome && x.1.jtag.takes x.1.tap then [x.1.jtag.dmi] else []).getLast? = _
    rw [htck, htake, Option.isSome_some, Bool.true_and, if_pos rfl, List.getLast?_concat]
  have hreq {op : ℕ} (hop : x.1.jtag.dmi.op = op) : x.1.jtag.dmi =
      ⟨op, (x.1.step D IdcodeValue i).jtag.address, (x.1.step D IdcodeValue i).jtag.data⟩ := by
    rw [haddress, hdata, ← hop]
  by_cases hread : x.1.jtag.dmi.op = DTM_READ
  · obtain ⟨hheld, hunder⟩ := hquiet (by rw [htck, htake]; rfl) hread
    have haccepts : x.1.req.accepts (x.1.reqEdges i) = [] := by
      rw [Cdc2Phase.accepts, reqEdges, htck, DmiJtag.dmiReq, DmiJtag.state_of_takes htake]
      rfl
    exact .read _ (by exact hstate.trans (if_pos hread)) hlast (hreq hread)
      (held_step_nil hflow.req hheld haccepts) (underway_step_nil hflow hunder (exchanges_of_held hflow.req hheld i))
  · rw [if_neg hread] at hstate
    by_cases hwrite : x.1.jtag.dmi.op = DTM_WRITE
    · exact .write _ (by exact hstate.trans (if_pos hwrite)) hlast (hreq hwrite)
    · refine .idle (by exact hstate.trans (if_neg hwrite)) (fun r hr => ?_) fun r hr hop => ?_
      · obtain rfl := Option.some.inj (hlast.symm.trans hr)
        exact ⟨haddress, fun hop => absurd hop hread, fun _ => hdata⟩
      · obtain rfl := Option.some.inj (hlast.symm.trans hr)
        exact absurd hop hread

theorem Served.next (h : Served x) (hflow : Flow x) (hquiet : Quiet x i) : Served (next D IdcodeValue x i) := by
  obtain ⟨_ | e, clk⟩ := i
  · -- the clock of the state machine stands still
    exact h.still hflow rfl rfl rfl (List.append_nil _) rfl fun _ => if_neg fun hc => by cases hc.1
  have hmoves : x.1.jtag.Moves x.1.tap x.1.req.src.ready x.1.dmiResp (x.1.step D IdcodeValue ⟨some e, clk⟩).jtag :=
    x.1.jtag.edge_moves _ _ _ e
  have htaken (hnot : x.1.jtag.takes x.1.tap = false) :
      (DmiSystem.next D IdcodeValue x ⟨some e, clk⟩).2.taken = x.2.taken := by
    change (x.2.taken ++ if true && x.1.jtag.takes x.1.tap then [x.1.jtag.dmi] else []) = _
    rw [hnot]
    exact List.append_nil _
  have haccepts := accepts_tck x.1 e clk
  cases hmoves with
  | take htake haddress hdata hstate => exact .take hflow hquiet rfl htake haddress hdata hstate
  | stay htake haddress hdata hstate hreq hresp =>
    refine h.still hflow hstate haddress hdata (htaken htake) ?_ fun hwait => ?_
    · rw [haccepts]
      rcases hreq with hnone | hready
      · rw [hnone, Option.toList_none, ite_self]
      · rw [hready, if_neg Bool.false_ne_true]
    · have hnone := hresp hwait
      refine if_neg fun hc => ?_
      rw [dmiResp, if_pos hc.2] at hnone
      cases hnone
  | handOver htake haddress hdata hready hstate =>
    rw [hready, if_pos rfl] at haccepts
    cases h with
    | read r hread hlast hreq hheld hunder =>
      rcases hstate with ⟨-, hwait⟩ | ⟨hwrite, -⟩
      · have hsent : x.1.jtag.dmiReq.toList = [r] := by rw [DmiJtag.dmiReq, hread, hreq]; rfl
        have hstep := held_step D IdcodeValue hflow.req ⟨some e, clk⟩
        rw [exchanges_of_held hflow.req hheld, hheld, haccepts, hsent] at hstep
        refine .waiting r hwait (by rw [htaken htake, hlast]) (by rw [hreq]) ?_ hstep.symm
          (underway_step_nil hflow hunder (exchanges_of_held hflow.req hheld _))
        rw [hreq]
        exact haddress
      · cases hread.symm.trans hwrite
    | write r hwrite hlast hreq =>
      rcases hstate with ⟨hread, -⟩ | ⟨-, hidle⟩
      · cases hwrite.symm.trans hread
      · have hop : r.op ≠ DTM_READ := by rw [hreq]; exact (by decide : DTM_WRITE ≠ DTM_READ)
        refine .idle hidle (fun r' hr => ?_) fun r' hr hread => ?_
        · rw [htaken htake, hlast] at hr
          obtain rfl := Option.some.inj hr
          refine ⟨?_, fun hread => absurd hread hop, fun _ => ?_⟩
          · rw [hreq]
            exact haddress
          · rw [hreq]
            exact hdata
        · rw [htaken htake, hlast] at hr
          obtain rfl := Option.some.inj hr
          exact absurd hread hop
    | idle hidle => rcases hstate with ⟨h, -⟩ | ⟨h, -⟩ <;> cases hidle.symm.trans h
    | waiting r hwait => rcases hstate with ⟨h, -⟩ | ⟨h, -⟩ <;> cases hwait.symm.trans h
    | answered r v hwait => rcases hstate with ⟨h, -⟩ | ⟨h, -⟩ <;> cases hwait.symm.trans h
  | arrive htake haddress hwait hidle hresp =>
    obtain ⟨l, hl⟩ := underway_of_dmiResp hflow.resp hresp
    have hnone : x.1.req.accepts (x.1.reqEdges ⟨some e, clk⟩) = [] := by
      rw [haccepts, DmiJtag.dmiReq, hwait, Option.toList_none, ite_self]
    cases h with
    | answered r v _ hlast hop hadr hheld hunder hlog =>
      obtain ⟨hv, -⟩ := List.cons.inj (hl.symm.trans hunder)
      refine .idle hidle (fun r' hr => ?_) fun _ _ _ => held_step_nil hflow.req hheld hnone
      rw [htaken htake, hlast] at hr
      obtain rfl := Option.some.inj hr
      refine ⟨haddress.trans hadr, fun _ => ?_, fun hc => absurd hop hc⟩
      change (x.2.log ++ x.1.exchanges D _).getLast? = some (r, (x.1.step D IdcodeValue ⟨some e, clk⟩).jtag.data)
      rw [exchanges_of_held hflow.req hheld, List.append_nil, hlog, hv]
    | waiting r _ hlast hop hadr hheld hunder =>
      rw [hunder] at hl
      cases hl
    | idle hidle => cases hidle.symm.trans hwait
    | read r hread => cases hread.symm.trans hwait
    | write r hwrite => cases hwrite.symm.trans hwait
  | leave htake haddress hdata hstate hidle =>
    cases h with
    | idle hidle => cases hidle.symm.trans hstate
    | read r hread => cases hread.symm.trans hstate
    | waiting r hwait => cases hwait.symm.trans hstate
    | answered r v hwait => cases hwait.symm.trans hstate
    | write r hwrite => cases hwrite.symm.trans hstate

theorem served_start (tap : DmiJtagTap) (dm : μ) : Served (start tap dm) := by
  refine .idle rfl (fun r hr => ?_) fun r hr => ?_
  · cases hr
  · cases hr

/-- There are no other errors. -/
def NoneOrBusy (e : DmiError) : Prop := e = .noError ∨ e = .busy

theorem noneOrBusy_next (h : NoneOrBusy x.1.jtag.error) (i : DmiEdges ω) :
    NoneOrBusy (next D IdcodeValue x i).1.jtag.error := by
  obtain ⟨_ | e, clk⟩ := i
  · exact h
  · change NoneOrBusy (if _ then _ else if _ then _ else _)
    split_ifs
    · exact Or.inl rfl
    · exact Or.inr rfl
    · exact h

/-- What Capture-DR loads. -/
theorem nextDr_capture {s : DmiJtag} {t : DmiJtagTap} (herror : NoneOrBusy s.error) (hcapture : t.tapState = .captureDr)
    (haccess : t.dmiAccess = true) (tdi : Bool) :
    (s.nextDr t tdi = s.captured .noError ∧ s.error = .noError ∧ s.state ≠ .read ∧ s.state ≠ .waitReadValid) ∨
      s.nextDr t tdi = s.captured .busy := by
  rw [DmiJtag.nextDr, hcapture]
  dsimp only
  rw [if_pos haccess]
  by_cases hok : s.error = .noError ∧ s.errorDmiBusy t = false
  · refine Or.inl ⟨if_pos hok, hok.1, ?_⟩
    have hbusy := hok.2
    simp only [DmiJtag.errorDmiBusy, hcapture, decide_eq_false_iff_not, not_or, not_and] at hbusy
    exact hbusy.2 trivial
  · refine Or.inr ((if_neg hok).trans (if_pos ?_))
    rcases herror with herror | herror
    · exact Or.inr (by simpa [herror] using hok)
    · exact Or.inl herror

theorem take_captured (s : DmiJtag) (status : DmiError) : (s.captured status).bits.take 2 = bits 2 status.code := by
  change (bits 2 status.code ++ bits 32 s.data ++ bits 7 s.address).take 2 = _
  rw [List.append_assoc, List.take_left' (by simp)]

/-- When nothing is waited for, the registers show the last request. -/
theorem Served.shows (h : Served x) (hread : x.1.jtag.state ≠ .read) (hwait : x.1.jtag.state ≠ .waitReadValid)
    {r : Request} (hr : x.2.taken.getLast? = some r) : Shows x r := by
  cases h with
  | idle hstate hshows hheld => exact hshows r hr
  | write r' hstate hlast hreq =>
    obtain rfl := Option.some.inj (hlast.symm.trans hr)
    refine ⟨by rw [hreq], fun hop => ?_, fun _ => by rw [hreq]⟩
    rw [hreq] at hop
    cases hop
  | read r' hstate => exact absurd hstate hread
  | waiting r' hstate => exact absurd hstate hwait
  | answered r' v hstate => exact absurd hstate hwait

/-- What Capture-DR shows with a status of zero. -/
theorem Served.capture (h : Served x) (herror : NoneOrBusy x.1.jtag.error) (hcapture : x.1.tap.tapState = .captureDr)
    (haccess : x.1.tap.dmiAccess = true) (tdi : Bool) (hzero : (x.1.jtag.nextDr x.1.tap tdi).bits.take 2 = bits 2 0)
    {r : Request} (hr : x.2.taken.getLast? = some r) :
    Shows x r ∧ (x.1.jtag.nextDr x.1.tap tdi).bits = bits 2 0 ++ bits 32 x.1.jtag.data ++ bits 7 r.adr := by
  rcases nextDr_capture herror hcapture haccess tdi with ⟨hdr, -, hread, hwait⟩ | hdr
  · have hshows := h.shows hread hwait hr
    rw [hdr, ← hshows.address]
    exact ⟨hshows, rfl⟩
  · rw [hdr, take_captured] at hzero
    exact absurd hzero (by decide)

/-- **A whole run** in which no read is taken while something is on its way. -/
theorem served_run {tap : DmiJtagTap} {dm : μ} {is : List (DmiEdges ω)}
    (hquiet : Along Quiet (next D IdcodeValue) is (start tap dm)) :
    Served (run D IdcodeValue tap dm is) ∧ NoneOrBusy (run D IdcodeValue tap dm is).1.jtag.error := by
  let I (x : DmiSystem μ × Traffic) : Prop := Flow x ∧ Served x ∧ NoneOrBusy x.1.jtag.error
  have hrun : I (run D IdcodeValue tap dm is) := by
    refine hquiet.inv (fun x i hi hx => ?_) ⟨flow_start tap dm, served_start tap dm, Or.inl rfl⟩
    exact ⟨hx.1.next i, hx.2.1.next hx.1 hi, noneOrBusy_next hx.2.2 i⟩
  exact hrun.2

/-- **A status of zero is to be believed**: in every run in which no read is taken while something
is on its way, and however the edges of the two clocks fall, Capture-DR shows a status of zero or
of three; and with a status of zero it shows the address of the last request that has been
taken, and the answer of the debug module to it if it was a read, its own data otherwise. -/
theorem status_zero (D : DmCsrs μ ω) (IdcodeValue : ℕ) (tap : DmiJtagTap) (dm : μ) (is : List (DmiEdges ω))
    (hquiet : Along Quiet (next D IdcodeValue) is (start tap dm)) {s : DmiSystem μ} {g : Traffic}
    (hrun : run D IdcodeValue tap dm is = (s, g)) (hcapture : s.tap.tapState = .captureDr)
    (haccess : s.tap.dmiAccess = true) (tdi : Bool) :
    ((s.jtag.nextDr s.tap tdi).bits.take 2 = bits 2 0 ∨ (s.jtag.nextDr s.tap tdi).bits.take 2 = bits 2 3) ∧
      ((s.jtag.nextDr s.tap tdi).bits.take 2 = bits 2 0 → ∀ r, g.taken.getLast? = some r →
        ∃ d, (s.jtag.nextDr s.tap tdi).bits = bits 2 0 ++ bits 32 d ++ bits 7 r.adr ∧
          (r.op = DTM_READ → g.log.getLast? = some (r, d)) ∧ (r.op ≠ DTM_READ → d = r.data)) := by
  obtain ⟨hserved, herror⟩ := served_run hquiet
  rw [hrun] at hserved herror
  refine ⟨?_, fun hzero r hr => ⟨s.jtag.data, ?_⟩⟩
  · rcases nextDr_capture herror hcapture haccess tdi with ⟨hdr, -⟩ | hdr
    · exact Or.inl (by rw [hdr, take_captured]; rfl)
    · exact Or.inr (by rw [hdr, take_captured]; rfl)
  · obtain ⟨hshows, hbits⟩ := hserved.capture herror hcapture haccess tdi hzero hr
    exact ⟨hbits, hshows.answer, hshows.data⟩

/-- A debug module that answers with the address. -/
def echo : DmCsrs Unit Unit := ⟨fun _ _ _ => (), fun _ _ r => r.adr⟩

/-- TCK alone: from Shift-DR to Update-DR, with `r` shifted in. -/
def scanEdges (r : Request) : List (DmiEdges Unit) :=
  (bits 2 r.op ++ bits 32 r.data ++ bits 6 r.adr).map (fun b => ⟨some ⟨false, b⟩, none⟩) ++
    [⟨some ⟨true, r.adr.testBit 6⟩, none⟩, ⟨some ⟨true, false⟩, none⟩]

/-- TCK alone: from Update-DR to Capture-DR, with some edges in Run-Test/Idle. -/
def captureEdges : List (DmiEdges Unit) :=
  List.replicate 7 ⟨some ⟨false, false⟩, none⟩ ++ [⟨some ⟨true, false⟩, none⟩, ⟨some ⟨false, false⟩, none⟩]

/-- A TAP in Shift-DR, with DMIACCESS selected. -/
def shiftingTap : DmiJtagTap := ⟨.shiftDr, .ofNat 5 0, DmiJtagTap.DMIACCESS, .ofNat 32 0, false, .ofNat 32 0⟩

/-- Edges of both clocks, in Run-Test/Idle, and two of TCK to Capture-DR. -/
def waitEdges (n : ℕ) : List (DmiEdges Unit) :=
  List.replicate n ⟨some ⟨false, false⟩, some ()⟩ ++ [⟨some ⟨true, false⟩, none⟩, ⟨some ⟨false, false⟩, none⟩]

/-- A read that is taken, answered and shown. -/
theorem status_zero_read :
    let x := run echo 1 shiftingTap () (scanEdges ⟨1, 5, 0⟩ ++ waitEdges 40)
    (x.1.jtag.nextDr x.1.tap false).bits = bits 2 0 ++ bits 32 5 ++ bits 7 5 ∧ x.2.log = [(⟨1, 5, 0⟩, 5)] := by
  intro x
  have hrun : run echo 1 shiftingTap () (scanEdges ⟨1, 5, 0⟩ ++ waitEdges 40) = (x.1, x.2) := rfl
  have hlog : x.2.log = [(⟨1, 5, 0⟩, 5)] := by decide +kernel
  obtain ⟨d, hdr, hd, -⟩ := (status_zero echo 1 shiftingTap () _ (by decide +kernel) hrun (by decide +kernel)
    (by decide +kernel) false).2 (by decide +kernel) ⟨1, 5, 0⟩ (by decide +kernel)
  obtain rfl : 5 = d := by simpa [hlog] using hd rfl
  exact ⟨hdr, hlog⟩

-- Without the condition it is not: a read is taken while a write is on its way, and the status is zero before the
-- debug module has seen the read.
example :
    let x := run echo 1 shiftingTap () (scanEdges ⟨2, 6, 9⟩ ++
      [⟨some ⟨true, false⟩, none⟩, ⟨some ⟨false, false⟩, none⟩, ⟨some ⟨false, false⟩, none⟩] ++ scanEdges ⟨1, 5, 0⟩ ++
      [⟨some ⟨false, false⟩, none⟩] ++ List.replicate 6 ⟨none, some ()⟩ ++ captureEdges)
    x.1.tap.tapState = .captureDr ∧ (x.1.jtag.nextDr x.1.tap false).bits.take 2 = bits 2 0 ∧
      x.2.taken = [⟨2, 6, 9⟩, ⟨1, 5, 0⟩] ∧ x.2.log.map Prod.fst = [⟨2, 6, 9⟩] := by decide +kernel

end DmiSystem

end PyOcdRiscv.Target
