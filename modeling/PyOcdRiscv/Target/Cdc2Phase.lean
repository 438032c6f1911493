import PyOcdRiscv.Lib.Channel
import Mathlib.Data.Fintype.Option

/-!
# The two-phase clock domain crossing

`cdc_2phase.sv`: a sender in one clock domain and a receiver in another, with one request
line and one acknowledge line between them. A line is in use while its level differs from
the other's, and each half looks at the line of the other through synchronization stages.

The two clocks are not related, so a run is any sequence of edges of the one, of the other,
or of both at once; what a half samples of the other is what was there before the edge.

The seven bits on the way from the request round to the synchronized acknowledge hold at
most one change of level (`Wave`): a new level runs round and everything behind it follows.
From that the crossing is a channel that holds at most one item (`keeps`), and as long as
the receiver's clock runs the item comes out (`given_of_edges`).
-/

namespace PyOcdRiscv.Target

open Lib

/-- `cdc_2phase_src`. -/
structure CdcSrc (α : Type) where
  /-- `req_src_q`. -/
  reqSrc : Bool
  /-- `ack_src_q`. -/
  ackSrc : Bool
  /-- `ack_q`. -/
  ack : Bool
  /-- `data_src_q`. -/
  dataSrc : α

/-- `cdc_2phase_dst`. -/
structure CdcDst (α : Type) where
  /-- `req_dst_q`. -/
  reqDst : Bool
  /-- `req_q0`. -/
  req0 : Bool
  /-- `req_q1`. -/
  req1 : Bool
  /-- `ack_dst_q`. -/
  ackDst : Bool
  /-- `data_dst_q`. -/
  dataDst : α

variable {α : Type}

namespace CdcSrc

/-- `ready_o`. -/
def ready (s : CdcSrc α) : Bool := s.reqSrc == s.ack

/-- A rising edge of `clk_i`, with `valid_i` and `data_i`, and `async_ack_i`. -/
def edge (s : CdcSrc α) (valid : Option α) (asyncAck : Bool) : CdcSrc α where
  reqSrc := if valid.isSome && s.ready then !s.reqSrc else s.reqSrc
  dataSrc := if s.ready then valid.getD s.dataSrc else s.dataSrc
  ackSrc := asyncAck
  ack := s.ackSrc

/-- After a reset. -/
def fresh (zero : α) : CdcSrc α := ⟨false, false, false, zero⟩

end CdcSrc

namespace CdcDst

/-- `valid_o`. -/
def valid (s : CdcDst α) : Bool := s.ackDst != s.req1

/-- A rising edge of `clk_i`, with `ready_i`, `async_req_i` and `async_data_i`. -/
def edge (s : CdcDst α) (ready asyncReq : Bool) (asyncData : α) : CdcDst α where
  ackDst := if s.valid && ready then !s.ackDst else s.ackDst
  dataDst := if s.req0 != s.req1 && !s.valid then asyncData else s.dataDst
  reqDst := asyncReq
  req0 := s.reqDst
  req1 := s.req0

/-- After a reset. -/
def fresh (zero : α) : CdcDst α := ⟨false, false, false, false, zero⟩

end CdcDst

/-- `cdc_2phase`. -/
structure Cdc2Phase (α : Type) where
  /-- `i_src`. -/
  src : CdcSrc α
  /-- `i_dst`. -/
  dst : CdcDst α

/-- Edges at one moment: of the sender's clock, with what is offered to it, of the receiver's,
with whether it is ready for an item, or of both. -/
structure CdcEdges (α : Type) where
  /-- `valid_i` and `data_i` at an edge of `src_clk_i`. -/
  src : Option (Option α)
  /-- `ready_i` at an edge of `dst_clk_i`. -/
  dst : Option Bool

namespace Cdc2Phase

/-- The edges. -/
def step (s : Cdc2Phase α) (i : CdcEdges α) : Cdc2Phase α where
  src := i.src.elim s.src fun valid => s.src.edge valid s.dst.ackDst
  dst := i.dst.elim s.dst fun ready => s.dst.edge ready s.src.reqSrc s.src.dataSrc

/-- What the sender accepts: `src_valid_i && src_ready_o`. -/
def accepts (s : Cdc2Phase α) (i : CdcEdges α) : List α :=
  match i.src with
  | some (some a) => if s.src.ready then [a] else []
  | _ => []

/-- What the receiver delivers: `dst_valid_o && dst_ready_i`. -/
def delivers (s : Cdc2Phase α) (i : CdcEdges α) : List α :=
  if i.dst = some true ∧ s.dst.valid = true then [s.dst.dataDst] else []

/-- As a channel. -/
def channel : Channel (Cdc2Phase α) (CdcEdges α) α := ⟨step, accepts, delivers⟩

/-- After a reset. -/
def fresh (zero : α) : Cdc2Phase α := ⟨.fresh zero, .fresh zero⟩

/-- The item on its way, if there is one. -/
def held (s : Cdc2Phase α) : List α := if s.src.reqSrc != s.dst.ackDst then [s.src.dataSrc] else []

/-- Of the bits on the way round at most one differs from the one before it. -/
def wave (bits : List Bool) : Bool := ((bits.zip bits.tail).filter fun b => b.1 != b.2).length ≤ 1

/-- The bits on the way round. -/
def ring (s : Cdc2Phase α) : List Bool :=
  [s.src.reqSrc, s.dst.reqDst, s.dst.req0, s.dst.req1, s.dst.ackDst, s.src.ackSrc, s.src.ack]

/-- What is true of every state that a run reaches. -/
structure Inv (s : Cdc2Phase α) : Prop where
  wave : wave s.ring = true
  data : s.dst.valid = true → s.dst.dataDst = s.src.dataSrc

theorem inv_fresh (zero : α) : Inv (fresh zero) := ⟨rfl, fun _ => rfl⟩

/-! ### The wave -/

theorem wave_eq_of_ends : ∀ a b c d e f g : Bool, wave [a, b, c, d, e, f, g] = true → a = g →
    b = a ∧ c = a ∧ d = a ∧ e = a ∧ f = a := by decide

theorem wave_eq_of_middle : ∀ a b c d e f g : Bool, wave [a, b, c, d, e, f, g] = true → d ≠ e →
    a = d ∧ b = d ∧ c = d ∧ f = e ∧ g = e := by decide

theorem wave_eq_of_sync : ∀ a b c d e f g : Bool, wave [a, b, c, d, e, f, g] = true → c ≠ d →
    a = c ∧ b = c ∧ e = d ∧ f = d ∧ g = d := by decide

/-- The wave after the edges, as far as the levels go. -/
theorem wave_step : ∀ a b c d e f g : Bool, wave [a, b, c, d, e, f, g] = true → ∀ src dst : Option Bool,
    wave [src.elim a fun v => if v && a == g then !a else a, dst.elim b fun _ => a, dst.elim c fun _ => b,
      dst.elim d fun _ => c, dst.elim e fun r => if e != d && r then !e else e, src.elim f fun _ => e,
      src.elim g fun _ => f] = true := by decide +kernel

/-- A sender that is ready has nothing on its way. -/
theorem Inv.idle {s : Cdc2Phase α} (hs : Inv s) (h : s.src.ready = true) :
    s.src.reqSrc = s.dst.ackDst ∧ s.dst.valid = false ∧ s.dst.req0 = s.dst.req1 := by
  have hends : s.src.reqSrc = s.src.ack := beq_iff_eq.mp h
  obtain ⟨-, hc, hd, he, -⟩ := wave_eq_of_ends _ _ _ _ _ _ _ hs.wave hends
  exact ⟨he.symm, by rw [CdcDst.valid, he, hd, bne_self_eq_false], by rw [hc, hd]⟩

/-- An item that is shown is the one on its way. -/
theorem Inv.busy {s : Cdc2Phase α} (hs : Inv s) (h : s.dst.valid = true) :
    s.src.reqSrc = s.dst.req1 ∧ s.dst.req0 = s.dst.req1 ∧ s.src.ready = false := by
  have hmid : s.dst.req1 ≠ s.dst.ackDst := (bne_iff_ne.mp h).symm
  obtain ⟨ha, -, hc, -, hg⟩ := wave_eq_of_middle _ _ _ _ _ _ _ hs.wave hmid
  refine ⟨ha, hc, ?_⟩
  rw [CdcSrc.ready, ha, hg]
  exact beq_eq_false_iff_ne.mpr hmid

/-- What is shown is what is on its way. -/
theorem Inv.held_of_valid {s : Cdc2Phase α} (hs : Inv s) (h : s.dst.valid = true) : s.held = [s.dst.dataDst] := by
  rw [held, (hs.busy h).1, hs.data h, if_pos]
  exact (bne_comm (a := s.dst.req1)).trans h

theorem Inv.valid_of_held_nil {s : Cdc2Phase α} (hs : Inv s) (h : s.held = []) : s.dst.valid = false := by
  by_contra hc
  rw [hs.held_of_valid (by simpa using hc)] at h
  cases h

/-! ### One step -/

/-- What the sender sends stays as it is until the next item is accepted. -/
theorem dataSrc_step {s : Cdc2Phase α} (h : s.src.ready = false) (i : CdcEdges α) :
    (s.step i).src.dataSrc = s.src.dataSrc := by
  obtain ⟨_ | valid, dst⟩ := i
  · rfl
  · change (if s.src.ready = true then _ else _) = _
    rw [h, if_neg Bool.false_ne_true]

theorem Inv.step {s : Cdc2Phase α} (hs : Inv s) (i : CdcEdges α) : Inv (s.step i) := by
  constructor
  · have hwave := wave_step _ _ _ _ _ _ _ hs.wave (i.src.map Option.isSome) i.dst
    obtain ⟨_ | valid, _ | ready⟩ := i <;> exact hwave
  · intro hvalid
    obtain ⟨src, _ | ready⟩ := i
    · -- the receiver stands still
      rw [dataSrc_step (hs.busy hvalid).2.2]
      exact hs.data hvalid
    · have hreq : (s.step ⟨src, some ready⟩).dst.req1 = s.dst.req0 := rfl
      have hack : (s.step ⟨src, some ready⟩).dst.ackDst =
        if s.dst.valid && ready then !s.dst.ackDst else s.dst.ackDst := rfl
      have hdata : (s.step ⟨src, some ready⟩).dst.dataDst =
        if s.dst.req0 != s.dst.req1 && !s.dst.valid then s.src.dataSrc else s.dst.dataDst := rfl
      rw [CdcDst.valid, hreq, hack] at hvalid
      rw [hdata]
      by_cases hshown : s.dst.valid = true
      · -- shown before, and shown still
        obtain ⟨-, hreq01, hready⟩ := hs.busy hshown
        rw [hshown, Bool.not_true, Bool.and_false, if_neg Bool.false_ne_true, dataSrc_step hready]
        exact hs.data hshown
      · -- the request has come through
        have hnot : s.dst.valid = false := Bool.not_eq_true _ ▸ hshown
        have heq : s.dst.ackDst = s.dst.req1 := by simpa [CdcDst.valid] using hnot
        rw [hnot, Bool.false_and, if_neg Bool.false_ne_true, heq] at hvalid
        have hfront : s.dst.req0 ≠ s.dst.req1 := (bne_iff_ne.mp hvalid).symm
        have hready : s.src.ready = false := by
          by_contra hc
          exact hfront (hs.idle (by simpa using hc)).2.2
        rw [hnot, Bool.not_false, Bool.and_true, bne_iff_ne.mpr hfront, if_pos rfl, dataSrc_step hready]

/-- **The crossing keeps the items in order**, and holds at most one. -/
theorem keeps : (channel (α := α)).Keeps Inv held where
  inv hs i := hs.step i
  held_step := by
    intro s hs i
    by_cases haccept : ∃ a, i.src = some (some a) ∧ s.src.ready = true
    · -- an item goes in, and the crossing was empty
      obtain ⟨a, hsrc, hready⟩ := haccept
      obtain ⟨hempty, hvalid, -⟩ := hs.idle hready
      have hgive : s.delivers i = [] := if_neg (by rw [hvalid]; simp)
      have htake : s.accepts i = [a] := by rw [accepts, hsrc]; exact if_pos hready
      have hack : (s.step i).dst.ackDst = s.dst.ackDst := by
        obtain ⟨src, _ | ready⟩ := i
        · rfl
        · change (if s.dst.valid && ready then _ else _) = _
          rw [hvalid, Bool.false_and, if_neg Bool.false_ne_true]
      have hreq : (s.step i).src.reqSrc = !s.src.reqSrc ∧ (s.step i).src.dataSrc = a := by
        obtain ⟨_, dst⟩ := i
        dsimp only at hsrc
        subst hsrc
        change (if true && s.src.ready then _ else _) = _ ∧ (if s.src.ready = true then _ else _) = _
        rw [hready]
        exact ⟨rfl, rfl⟩
      change held s ++ s.accepts i = s.delivers i ++ held (s.step i)
      rw [htake, hgive, held, hempty, bne_self_eq_false, if_neg Bool.false_ne_true, held, hack, hreq.1, hreq.2,
        hempty, if_pos (by cases s.dst.ackDst <;> rfl)]
    · -- nothing goes in
      have htake : s.accepts i = [] := by
        rw [accepts]
        split
        · next a hsrc => exact if_neg fun hready => haccept ⟨a, hsrc, hready⟩
        · rfl
      have hreq : (s.step i).src.reqSrc = s.src.reqSrc ∧ (s.step i).src.dataSrc = s.src.dataSrc := by
        obtain ⟨_ | _ | a, dst⟩ := i
        · exact ⟨rfl, rfl⟩
        · refine ⟨rfl, ?_⟩
          change (if s.src.ready = true then s.src.dataSrc else _) = _
          rw [ite_self]
        · have hready : ¬ s.src.ready = true := fun h => haccept ⟨a, rfl, h⟩
          change (if true && s.src.ready then _ else _) = _ ∧ (if s.src.ready = true then _ else _) = _
          rw [Bool.true_and, if_neg hready, if_neg hready]
          exact ⟨rfl, rfl⟩
      change held s ++ s.accepts i = s.delivers i ++ held (s.step i)
      rw [htake, List.append_nil]
      by_cases hgive : i.dst = some true ∧ s.dst.valid = true
      · -- the item comes out
        obtain ⟨hdst, hvalid⟩ := hgive
        have hne : s.dst.ackDst ≠ s.dst.req1 := bne_iff_ne.mp hvalid
        have hack : (s.step i).dst.ackDst = s.dst.req1 := by
          obtain ⟨src, _⟩ := i
          dsimp only at hdst
          subst hdst
          change (if s.dst.valid && true then _ else _) = _
          rw [hvalid, Bool.true_and, if_pos rfl]
          exact (Bool.eq_not_of_ne hne.symm).symm
        rw [delivers, if_pos ⟨hdst, hvalid⟩, held, held, hack, hreq.1, (hs.busy hvalid).1, bne_self_eq_false,
          if_neg Bool.false_ne_true, List.append_nil, hs.data hvalid, if_pos (bne_iff_ne.mpr hne.symm)]
      · -- it stays where it is
        have hack : (s.step i).dst.ackDst = s.dst.ackDst := by
          obtain ⟨src, _ | ready⟩ := i
          · rfl
          · have hnot : ¬ (s.dst.valid && ready) = true := by
              rw [Bool.and_eq_true]
              rintro ⟨hvalid, rfl⟩
              exact hgive ⟨rfl, hvalid⟩
            exact if_neg hnot
        rw [delivers, if_neg hgive, List.nil_append, held, held, hack, hreq.1, hreq.2]

/-! ### Nothing gets stuck -/

/-- The receiver's edges that an item on its way still needs to be shown. -/
def ahead (s : Cdc2Phase α) : ℕ :=
  if s.dst.reqDst ≠ s.src.reqSrc then 3
  else if s.dst.req0 ≠ s.src.reqSrc then 2
  else if s.dst.req1 ≠ s.src.reqSrc then 1 else 0

theorem ahead_le (s : Cdc2Phase α) : s.ahead ≤ 3 := by
  rw [ahead]
  split_ifs <;> decide

/-- While an item is on its way the sender is not ready. -/
theorem Inv.not_ready {s : Cdc2Phase α} (hs : Inv s) {a : α} (ha : s.held = [a]) : s.src.ready = false := by
  by_contra hc
  have hempty := (hs.idle (by simpa using hc)).1
  rw [held, hempty, bne_self_eq_false, if_neg Bool.false_ne_true] at ha
  cases ha

theorem accepts_of_not_ready {s : Cdc2Phase α} (h : s.src.ready = false) (i : CdcEdges α) : s.accepts i = [] := by
  rw [accepts, h]
  split <;> rfl

/-- An item that is not delivered at an edge of the receiver comes nearer. -/
theorem ahead_step {s : Cdc2Phase α} (hs : Inv s) {a : α} (ha : s.held = [a]) (i : CdcEdges α)
    (hgive : s.delivers i = []) (hready : i.dst ≠ some false) :
    (s.step i).ahead + (if i.dst.isSome then 1 else 0) = s.ahead := by
  have hsrc : (s.step i).src.reqSrc = s.src.reqSrc := by
    obtain ⟨_ | valid, dst⟩ := i
    · rfl
    · change (if valid.isSome && s.src.ready then _ else _) = _
      rw [hs.not_ready ha, Bool.and_false, if_neg Bool.false_ne_true]
  obtain ⟨src, _ | _ | _⟩ := i
  · simp only [ahead, hsrc]
    rfl
  · exact absurd rfl hready
  · have hvalid : s.dst.valid = false := by
      by_contra hc
      rw [delivers, if_pos ⟨rfl, by simpa using hc⟩] at hgive
      cases hgive
    have hreq1 : s.dst.req1 ≠ s.src.reqSrc := by
      intro heq
      have hack : s.dst.ackDst = s.dst.req1 := by simpa [CdcDst.valid] using hvalid
      rw [held, ← heq, hack, bne_self_eq_false, if_neg Bool.false_ne_true] at ha
      cases ha
    have h₁ : (s.step ⟨src, some true⟩).dst.reqDst = s.src.reqSrc := rfl
    have h₂ : (s.step ⟨src, some true⟩).dst.req0 = s.dst.reqDst := rfl
    have h₃ : (s.step ⟨src, some true⟩).dst.req1 = s.dst.req0 := rfl
    rw [ahead, ahead, hsrc, h₁, h₂, h₃, if_neg (by simp), if_pos hreq1]
    -- the stages behind the front have the new level already
    have hwave : s.dst.req0 ≠ s.dst.req1 → s.dst.reqDst = s.src.reqSrc := by
      intro hne
      obtain ⟨ha, hb, -⟩ := wave_eq_of_sync _ _ _ _ _ _ _ hs.wave hne
      rw [hb, ha]
    split_ifs <;> simp_all

/-- The edges of the receiver in a run. -/
def edgesDst (is : List (CdcEdges α)) : ℕ := (is.filter fun i => i.dst.isSome).length

/-- **An item on its way comes out**: by the fourth edge of a receiver that is ready, whatever
the sender's clock does. -/
theorem given_of_edges {s : Cdc2Phase α} (hs : Inv s) {a : α} (ha : s.held = [a]) {is : List (CdcEdges α)}
    (hready : ∀ i ∈ is, i.dst ≠ some false) (hlen : s.ahead < edgesDst is) :
    [a] <+: channel.allGiven s is := by
  induction is generalizing s with
  | nil => exact absurd hlen (Nat.not_lt_zero _)
  | cons i is ih =>
    have hstep := keeps.held_step hs i
    change held s ++ s.accepts i = s.delivers i ++ held (s.step i) at hstep
    rw [ha, accepts_of_not_ready (hs.not_ready ha) i, List.append_nil] at hstep
    change [a] <+: s.delivers i ++ channel.allGiven (s.step i) is
    by_cases hgive : s.delivers i = []
    · rw [hgive, List.nil_append] at hstep ⊢
      have hahead := ahead_step hs ha i hgive (hready i List.mem_cons_self)
      refine ih (hs.step i) hstep.symm (fun j hj => hready j (List.mem_cons_of_mem i hj)) ?_
      have hcons : edgesDst (i :: is) = edgesDst is + if i.dst.isSome then 1 else 0 := by
        rw [edgesDst, List.filter_cons]
        split_ifs <;> rfl
      omega
    · obtain ⟨b, l, hb⟩ := List.exists_cons_of_ne_nil hgive
      rw [hb] at hstep ⊢
      obtain rfl : a = b := (List.cons.inj hstep).1
      exact ⟨l ++ channel.allGiven (s.step i) is, rfl⟩

theorem length_held_le (s : Cdc2Phase α) : s.held.length ≤ 1 := by
  rw [held]
  split_ifs
  · exact le_refl 1
  · exact Nat.zero_le 1

/-- **Each item crosses once, and in order**, however the edges of the two clocks fall: what the
sender has accepted is what the receiver has delivered and at most one item more, and that one
comes out by the fourth edge at which the receiver is ready. -/
theorem crosses_once (zero : α) (is : List (CdcEdges α)) :
    channel.allTaken (fresh zero) is =
        channel.allGiven (fresh zero) is ++ held (channel.run (fresh zero) is) ∧
      (held (channel.run (fresh zero) is)).length ≤ 1 ∧
      ∀ js : List (CdcEdges α), (∀ i ∈ js, i.dst ≠ some false) → 4 ≤ edgesDst js →
        held (channel.run (fresh zero) is) <+: channel.allGiven (channel.run (fresh zero) is) js := by
  refine ⟨keeps.run (inv_fresh zero) is, length_held_le _, fun js hready hlen => ?_⟩
  generalize hs : channel.run (fresh zero) is = s
  have hinv : Inv s := hs ▸ keeps.inv_run (inv_fresh zero) is
  rcases hheld : s.held with _ | ⟨a, _ | ⟨b, l⟩⟩
  · exact List.nil_prefix
  · exact given_of_edges hinv hheld hready (lt_of_le_of_lt (ahead_le s) hlen)
  · have hle := length_held_le s
    rw [hheld] at hle
    exact absurd hle (by simp)

end Cdc2Phase

end PyOcdRiscv.Target
