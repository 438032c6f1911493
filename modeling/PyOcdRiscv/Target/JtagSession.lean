import PyOcdRiscv.Target.DebugSession
import PyOcdRiscv.Target.DmiStatus

/-!
# Debug sessions over JTAG

The debug module of the Pulp target behind its transport: whatever is scanned, the clocks run as they like, and the
hart makes its accesses when it likes. The debugger's account is kept beside the debug module, with what it answers
to each request that is accepted (`sessionDm`). That changes nothing (`run_withoutAccount`). The debug module answers
what the account says, and that is what Capture-DR shows after a read (`session_over_jtag`).
-/

namespace PyOcdRiscv.Target

open Lib Debug
open DmiSystem

/-- The debug module with its hart and the account of them, and what the account has answered. -/
structure Session where
  state : DebugTarget × Debuggee
  answers : List (Option Word)

/-- What the account answers to a request. While a command is executed it says nothing. -/
def Session.answer (x : Session) (r : Request) : Option Word :=
  if x.state.1.dm.mem.cmdbusy = false ∧ x.state.1.dm.regs.cmdValid = false then x.state.2.answer r else none

/-- The debug module with the account beside it. -/
def sessionDm : DmCsrs Session DebugTarget.Edge where
  edge x o r := ⟨follow x.state (o, r), x.answers ++ r.toList.map x.answer⟩
  respData x o r := pulpDm.respData x.state.1 o r

section

variable (IdcodeValue : ℕ)

/-- The same without the account. -/
def withoutAccount (x : DmiSystem Session × Traffic) : DmiSystem DebugTarget × Traffic :=
  (⟨x.1.tap, x.1.jtag, x.1.req, x.1.resp, x.1.dm.state.1, x.1.queue⟩, x.2)

theorem next_withoutAccount (x : DmiSystem Session × Traffic) (i : DmiEdges DebugTarget.Edge) :
    next pulpDm IdcodeValue (withoutAccount x) i = withoutAccount (next sessionDm IdcodeValue x i) := by
  obtain ⟨tck, _ | w⟩ := i
  · rfl
  · rfl

/-- **The account changes nothing.** -/
theorem run_withoutAccount (tap : DmiJtagTap) (x : Session) (is : List (DmiEdges DebugTarget.Edge)) :
    run pulpDm IdcodeValue tap x.state.1 is = withoutAccount (run sessionDm IdcodeValue tap x is) := by
  have hstart : start tap x.state.1 = withoutAccount (start tap x) := rfl
  rw [run, run, hstart]
  exact List.foldl_hom withoutAccount fun y i => next_withoutAccount IdcodeValue y i

end

/-! ### What is answered -/

/-- The request that is accepted, if there is one, is one that the debugger may make then. -/
def Fits (x : DmiSystem Session × Traffic) (i : DmiEdges DebugTarget.Edge) : Prop :=
  ∀ w, i.clk = some w → Allowed x.1.dm.state (w, x.1.accepted)

instance (x : DmiSystem Session × Traffic) (i : DmiEdges DebugTarget.Edge) : Decidable (Fits x i) :=
  inferInstanceAs (Decidable (∀ w ∈ i.clk, _))

/-- A request is answered as the account says, if it says anything. -/
def Agrees (e : Request × ℕ) (a : Option Word) : Prop := ∀ w, a = some w → e.2 = w.toNat

/-- The account is right, and has been. -/
structure Answered (x : DmiSystem Session × Traffic) : Prop where
  holds : Holds x.1.dm.state
  answers : List.Forall₂ Agrees x.2.log x.1.dm.answers

variable {IdcodeValue : ℕ}

theorem agrees_answer {x : Session} (h : Holds x.state) (o : DebugTarget.Edge) (r : Request) :
    Agrees (r, sessionDm.respData x o r) (x.answer r) := by
  intro w hw
  rw [Session.answer] at hw
  split_ifs at hw with hrests
  exact congrArg BitVec.toNat (h.respData hrests.1 hrests.2 hw)

/-- **One moment**: the account stays right. -/
theorem Answered.next {x : DmiSystem Session × Traffic} (h : Answered x) {i : DmiEdges DebugTarget.Edge}
    (hi : Fits x i) : Answered (DmiSystem.next sessionDm IdcodeValue x i) := by
  obtain ⟨tck, _ | w⟩ := i
  · have hlog : x.2.log ++ x.1.exchanges sessionDm ⟨tck, none⟩ = x.2.log := List.append_nil _
    refine ⟨h.holds, ?_⟩
    change List.Forall₂ Agrees (x.2.log ++ x.1.exchanges sessionDm ⟨tck, none⟩) x.1.dm.answers
    rw [hlog]
    exact h.answers
  · refine ⟨(h.holds.follow (hi w rfl)).1, List.rel_append h.answers ?_⟩
    rw [exchanges]
    cases x.1.accepted with
    | none => exact .nil
    | some r => exact .cons (agrees_answer h.holds w r) .nil

/-- Both lists end alike. -/
theorem agrees_of_getLast? {l : List (Request × ℕ)} {as : List (Option Word)} (h : List.Forall₂ Agrees l as)
    {e : Request × ℕ} {a : Option Word} (he : l.getLast? = some e) (ha : as.getLast? = some a) : Agrees e a := by
  obtain ⟨l, rfl⟩ := List.getLast?_eq_some_iff.mp he
  obtain ⟨as, rfl⟩ := List.getLast?_eq_some_iff.mp ha
  have hrev := List.rel_reverse h
  simp only [List.reverse_append, List.reverse_cons, List.reverse_nil, List.nil_append, List.cons_append] at hrev
  cases hrev with
  | cons hagrees _ => exact hagrees

/-- **Debug sessions over JTAG.** In a run from a reset, with any scans and any edges of the two clocks, in which
reads are taken when nothing else is on its way, and the requests that reach the debug module are those that the
debugger may make: if Capture-DR shows a status of zero after a read that the account answers, it shows that
answer. -/
theorem session_over_jtag {tap : DmiJtagTap} {core : Rv32.Hart} {csrs : CsRegisters} {pc : Word}
    {is : List (DmiEdges DebugTarget.Edge)}
    (hquiet : Along Quiet (next sessionDm IdcodeValue) is (start tap ⟨begun core csrs pc, []⟩))
    (hfits : Along Fits (next sessionDm IdcodeValue) is (start tap ⟨begun core csrs pc, []⟩))
    {s : DmiSystem Session} {g : Traffic} (hrun : run sessionDm IdcodeValue tap ⟨begun core csrs pc, []⟩ is = (s, g))
    (hcapture : s.tap.tapState = .captureDr) (haccess : s.tap.dmiAccess = true) (tdi : Bool)
    (hzero : (s.jtag.nextDr s.tap tdi).bits.take 2 = bits 2 0) {r : Request} (hlast : g.taken.getLast? = some r)
    (hread : r.op = DTM_READ) {w : Word} (hanswer : s.dm.answers.getLast? = some (some w)) :
    (s.jtag.nextDr s.tap tdi).bits = bits 2 0 ++ bits 32 w.toNat ++ bits 7 r.adr := by
  have hanswered : Answered (run sessionDm IdcodeValue tap ⟨begun core csrs pc, []⟩ is) :=
    hfits.inv (fun _ _ hi hx => hx.next hi) ⟨holds_begun core csrs pc, .nil⟩
  obtain ⟨hserved, herror⟩ := served_run hquiet
  rw [hrun] at hanswered hserved herror
  obtain ⟨hshows, hbits⟩ := hserved.capture herror hcapture haccess tdi hzero hlast
  have hdata : s.jtag.data = w.toNat :=
    agrees_of_getLast? hanswered.answers (hshows.answer hread) hanswer w rfl
  rw [hbits, hdata]

-- data0 written and read again
example :
    let is : List (DmiEdges Unit) := scanEdges ⟨2, 4, 0x80⟩ ++ waitEdges 40 ++ [⟨some ⟨false, false⟩, none⟩] ++
      scanEdges ⟨1, 4, 0⟩ ++ waitEdges 40
    let x := run sessionDm 1 shiftingTap ⟨begun ⟨fun _ => 0, fun _ => 0⟩ .fresh 0x80, []⟩
      (is.map fun i => ⟨i.tck, i.clk.map fun _ => ⟨⟨false, false, 0⟩, .move⟩⟩)
    (x.1.jtag.nextDr x.1.tap false).bits = bits 2 0 ++ bits 32 0x80 ++ bits 7 4 := by
  intro is x
  have hrun : run sessionDm 1 shiftingTap ⟨begun ⟨fun _ => 0, fun _ => 0⟩ .fresh 0x80, []⟩
      (is.map fun i => ⟨i.tck, i.clk.map fun _ => ⟨⟨false, false, 0⟩, .move⟩⟩) = (x.1, x.2) := rfl
  exact session_over_jtag (by decide +kernel) (by decide +kernel) hrun (by decide +kernel) (by decide +kernel) false
    (by decide +kernel) (r := ⟨1, 4, 0⟩) (by decide +kernel) rfl (w := 0x80) (by decide +kernel)

end PyOcdRiscv.Target
