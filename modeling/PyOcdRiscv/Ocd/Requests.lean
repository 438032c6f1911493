import PyOcdRiscv.Jtag.ScanLevel
import PyOcdRiscv.Ocd.Selected
import PyOcdRiscv.Ocd.Session
import PyOcdRiscv.Target.Dtm

/-!
# What the debug module is asked

`writeapb` and `readapb` against a target with a DMI register, edge by edge. The last bit
of a request goes out with the move that leaves Shift-DR, and the read-back of a `readapb`
shifts one zero more than the register is long, so that what is left in it at Update-DR
has the op 0. `requests_delivered` says for whole sessions of either driver that the
requests the debug module sees are those of the calls, in order, and that `readapb`
returns the data of the word its own read-back captured.

What is assumed is what the instruction register does: that it selects DMI at the scans
the drivers make of the DMI register, and not at their other scans (`Made.dmiScans`).

The same step from scans to edges is made for the bench of `Ocd.Selected`: `exec_onBench` says that
it is where a session on the engine brings the target.
-/

namespace PyOcdRiscv.Ocd

open Lib Jtag Target

/-! ### Calls that were made -/

/-- The request that a call from the upper layer is for. -/
def ApbCall.request : ApbCall → List Request
  | .writeapb adr data => [⟨2, adr.toNat, (data % 2 ^ 32).toNat⟩]
  | .readapb adr => [⟨1, adr.toNat, 0⟩]
  | _ => []

/-- The calls whose own scans are of the DMI register. -/
def ApbCall.isRequest : ApbCall → Bool
  | .writeapb _ _ | .readapb _ => true
  | _ => false

/-- The DR scans of a call on the engine: whether each is of the DMI register, when the
scans the caller makes itself are (`own`). The one of `write_vir` is not the caller's. -/
def dmiScans (own : Bool) : EngineCall → List Bool
  | .writeDr _ | .readDr _ | .readwriteDr _ => [own]
  | .writeVir _ => [false]
  | _ => []

/-- A call from the upper layer that was made, with its answer and the calls on the engine
that it came to. -/
structure Made where
  /-- The call. -/
  call : ApbCall
  /-- What it returned. -/
  answer : Apb.Res call
  /-- The calls on the engine. -/
  scans : List EngineCall

/-- The DR scans of the call: whether each is of the DMI register. -/
def Made.dmiScans (m : Made) : List Bool := m.scans.flatMap (Ocd.dmiScans m.call.isRequest)

/-- `Dmi.call`, with a list of the calls made. -/
def Dmi.logged (dmi : Dmi) (o : ApbCall) (t : Option ℕ × List Made) :
    Prog Engine (Apb.Res o × (Option ℕ × List Made)) := do
  let r ← Prog.traced (dmi.call o t.1)
  return (r.1.1, (r.1.2, t.2 ++ [⟨o, r.1.1, r.2⟩]))

/-- The DMI register captured what a call is about: once for `writeapb`, and twice for
`readapb`, which returns the data of the second. -/
def Answers {w : ℕ} : (o : ApbCall) → Apb.Res o → List (ShiftReg w) → Prop
  | .writeapb _ _, _, captured => ∃ c, captured = [c]
  | .readapb _, val, captured => ∃ c readBack : ShiftReg w, captured = [c, readBack] ∧
      val = field 2 32 readBack.bits
  | .selectIr _, _, captured | .writeDr _, _, captured | .goIdle, _, captured | .writeTms _, _, captured =>
    captured = []

/-- What the DMI register captured is what the calls are about, call by call. -/
def Answered {w : ℕ} (made : List Made) (captured : List (ShiftReg w)) : Prop :=
  ∃ parts, captured = parts.flatten ∧ List.Forall₂ (fun m c => Answers m.call m.answer c) made parts

/-! ### Requests in the register -/

/-- The fields of a word of 34 bits or more. -/
theorem ofReg_eq {w op data : ℕ} (hw : 34 ≤ w) (hop : op < 2 ^ 2) (hdata : data < 2 ^ 32) (adr : ℕ)
    {r : ShiftReg w} (hr : r.bits = bits w (op + (data + adr * 2 ^ 32) * 2 ^ 2)) :
    Request.ofReg r = ⟨op, adr % 2 ^ (w - 34), data⟩ := by
  have hbits : r.bits = bits 2 op ++ (bits 32 data ++ bits (w - 34) adr) := by
    rw [hr, ← bits_pack _ _ hdata, ← bits_pack _ _ hop, show 2 + (32 + (w - 34)) = w by omega]
  have hadr : (bits 2 op ++ (bits 32 data ++ bits (w - 34) adr)).drop 34 = bits (w - 34) adr := by
    rw [← List.append_assoc]
    exact List.drop_left' (by simp)
  simp only [Request.ofReg, field, hbits, List.drop_zero, hadr]
  rw [List.take_left' (length_bits ..), List.drop_left' (length_bits ..), List.take_left' (length_bits ..),
    List.take_of_length_le (by simp), value_bits_of_lt hop, value_bits_of_lt hdata, value_bits]

variable {w : ℕ} {adr : ℤ}

/-- An address below 128 fits the register. -/
theorem land_adr (hw : 41 ≤ w) (hadr : 0 ≤ adr ∧ adr < 128) :
    land adr 0xffff % 2 ^ (w - 34) = adr.toNat := by
  have hpow : 2 ^ 7 ≤ 2 ^ (w - 34) := Nat.pow_le_pow_right (by decide) (by omega)
  have hland : land adr 0xffff = (adr % 2 ^ 16).toNat := land_ones adr 16
  rw [hland, Int.emod_eq_of_lt hadr.1 (by omega), Nat.mod_eq_of_lt (by omega)]

/-- **The request of `writeapb`** when it has been shifted in. -/
theorem ofReg_writeRequest (hw : 41 ≤ w) (hadr : 0 ≤ adr ∧ adr < 128) (data : ℤ) (r : ShiftReg w) :
    Request.ofReg (r.shiftAll (writeRequest w adr data)) = ⟨2, adr.toNat, (data % 2 ^ 32).toNat⟩ := by
  have hd : land data 0xffffffff < 2 ^ 32 := land_ones_lt data 32
  have hword : land adr 0xffff <<< 34 ||| land data 0xffffffff <<< 2 ||| 2 =
      2 + (land data 0xffffffff + land adr 0xffff * 2 ^ 32) * 2 ^ 2 := by
    have hlow : land data 0xffffffff <<< 2 < 2 ^ 34 := by
      rw [Nat.shiftLeft_eq]
      omega
    rw [Nat.lor_comm _ 2, Nat.lor_comm (land adr 0xffff <<< 34), lor_shiftLeft hlow, Nat.shiftLeft_eq,
      show land data 0xffffffff * 2 ^ 2 + land adr 0xffff * 2 ^ 34 =
        (land data 0xffffffff + land adr 0xffff * 2 ^ 32) <<< 2 by rw [Nat.shiftLeft_eq]; omega,
      lor_shiftLeft (by decide)]
  have hl : writeRequest w adr data =
      bits w (2 + (land data 0xffffffff + land adr 0xffff * 2 ^ 32) * 2 ^ 2) := by
    rw [writeRequest, BitSequence.ofInt_eq (by omega), hword]
  have hland : land data 0xffffffff = (data % 2 ^ 32).toNat := land_ones data 32
  rw [ShiftReg.shiftAll_eq r (l := writeRequest w adr data) (by rw [hl, length_bits]),
    ofReg_eq (by omega) (by decide) hd _ hl, land_adr hw hadr, hland]

/-- **The request of `readapb`** when it has been shifted in. -/
theorem ofReg_readRequest (hw : 41 ≤ w) (hadr : 0 ≤ adr ∧ adr < 128) (r : ShiftReg w) :
    Request.ofReg (r.shiftAll (readRequest w adr)) = ⟨1, adr.toNat, 0⟩ := by
  have hl : readRequest w adr = bits w (1 + (0 + land adr 0xffff * 2 ^ 32) * 2 ^ 2) := by
    rw [readRequest, BitSequence.ofInt_eq (by omega), Nat.lor_comm, lor_shiftLeft (by decide)]
    congr 1
    omega
  rw [ShiftReg.shiftAll_eq r (l := readRequest w adr) (by rw [hl, length_bits]),
    ofReg_eq (by omega) (by decide) (by decide) _ hl, land_adr hw hadr]

/-- **A read-back leaves no request**: one zero more than the register is long. -/
theorem op_readBack (r : ShiftReg w) :
    (Request.ofReg (r.shiftAll (List.replicate (w + 1) false))).op = 0 := by
  have hzeros : (r.shiftAll (List.replicate (w + 1) false)).bits = List.replicate w false := by
    rw [ShiftReg.bits_shiftAll_of_le r (by simp), List.length_replicate, List.drop_replicate]
    congr 1
    omega
  rw [Request.ofReg, field, hzeros, List.drop_zero, List.take_replicate, value_replicate_false]

/-- What `readapb` makes of the bits it reads. -/
theorem value_outs (hw : 34 ≤ w) (r : ShiftReg w) :
    land (value (r.outs (List.replicate w false)) >>> 2 : ℕ) 0xffffffff = field 2 32 r.bits := by
  have houts : r.outs (List.replicate w false) = r.bits := by
    rw [ShiftReg.outs_eq (by omega), List.length_replicate, List.take_left' r.length_bits]
  have hland (n : ℕ) : land n 0xffffffff = n % 2 ^ 32 := by
    have h : land n 0xffffffff = ((n : ℤ) % 2 ^ 32).toNat := land_ones n 32
    omega
  rw [houts, hland, field_eq, Nat.shiftRight_eq_div_pow]

/-! ### What a program adds -/

section
variable {ι μ : Type} (D : DtmParts w ι μ)

/-- What a program adds to what the debug module has seen and captured: an entry for each
DR scan, and, if DMI is selected at the scans that are of the DMI register and at no
other, requests and captured words as `X` says. -/
def Adds {α : Type} (own : Bool) (p : Prog Engine α) (d : Dtm w ι μ)
    (X : List Request → List (ShiftReg w) → Prop) : Prop :=
  ∃ new, (Prog.run (onScans D.port) p d).2.seen = d.seen ++ new ∧
    new.length = ((Prog.callsOf (onScans D.port) p d).flatMap (dmiScans own)).length ∧
    (new.map Prod.fst = (Prog.callsOf (onScans D.port) p d).flatMap (dmiScans own) →
      ∃ captured, (Prog.run (onScans D.port) p d).2.captured = d.captured ++ captured ∧
        X (requests new) captured)

/-- No request, and nothing captured. -/
def Quiet (reqs : List Request) (captured : List (ShiftReg w)) : Prop := reqs = [] ∧ captured = []

variable {D} {α β : Type} {own : Bool} {d : Dtm w ι μ}

theorem Adds.mono {p : Prog Engine α} {X Y : List Request → List (ShiftReg w) → Prop} (h : Adds D own p d X)
    (hXY : ∀ r c, X r c → Y r c) : Adds D own p d Y := by
  obtain ⟨new, hseen, hlen, hnew⟩ := h
  refine ⟨new, hseen, hlen, fun hright => ?_⟩
  obtain ⟨captured, hc, hX⟩ := hnew hright
  exact ⟨captured, hc, hXY _ _ hX⟩

theorem adds_pure (a : α) : Adds D own (pure a) d Quiet :=
  ⟨[], by simp, rfl, fun _ => ⟨[], by simp, rfl, rfl⟩⟩

/-- One program after another. -/
theorem Adds.bind {p : Prog Engine α} {f : α → Prog Engine β} {X Y : List Request → List (ShiftReg w) → Prop}
    (hp : Adds D own p d X)
    (hf : Adds D own (f (Prog.run (onScans D.port) p d).1) (Prog.run (onScans D.port) p d).2 Y) :
    Adds D own (p >>= f) d fun r c =>
      ∃ r₁ r₂ c₁ c₂, r = r₁ ++ r₂ ∧ c = c₁ ++ c₂ ∧ X r₁ c₁ ∧ Y r₂ c₂ := by
  obtain ⟨new₁, hseen₁, hlen₁, hnew₁⟩ := hp
  obtain ⟨new₂, hseen₂, hlen₂, hnew₂⟩ := hf
  refine ⟨new₁ ++ new₂, ?_, ?_, ?_⟩
  · rw [Prog.run_bind, hseen₂, hseen₁, List.append_assoc]
  · rw [Prog.callsOf_bind, List.flatMap_append, List.length_append, List.length_append, hlen₁, hlen₂]
  · intro hright
    rw [Prog.callsOf_bind, List.flatMap_append, List.map_append] at hright
    obtain ⟨h₁, h₂⟩ := List.append_inj hright (by rw [List.length_map, hlen₁])
    obtain ⟨c₁, hc₁, hX⟩ := hnew₁ h₁
    obtain ⟨c₂, hc₂, hY⟩ := hnew₂ h₂
    refine ⟨c₁ ++ c₂, ?_, _, _, c₁, c₂, requests_append new₁ new₂, rfl, hX, hY⟩
    rw [Prog.run_bind, hc₂, hc₁, List.append_assoc]

/-- After a program that adds nothing. -/
theorem Adds.after_quiet {p : Prog Engine α} {f : α → Prog Engine β}
    {Y : List Request → List (ShiftReg w) → Prop} (hp : Adds D own p d Quiet)
    (hf : Adds D own (f (Prog.run (onScans D.port) p d).1) (Prog.run (onScans D.port) p d).2 Y) :
    Adds D own (p >>= f) d Y := by
  refine (hp.bind hf).mono ?_
  rintro r c ⟨r₁, r₂, c₁, c₂, rfl, rfl, ⟨rfl, rfl⟩, hY⟩
  exact hY

/-- Before a program that adds nothing. -/
theorem Adds.then_quiet {p : Prog Engine α} {f : α → Prog Engine β}
    {X : List Request → List (ShiftReg w) → Prop} (hp : Adds D own p d X)
    (hf : Adds D own (f (Prog.run (onScans D.port) p d).1) (Prog.run (onScans D.port) p d).2 Quiet) :
    Adds D own (p >>= f) d X := by
  refine (hp.bind hf).mono ?_
  rintro r c ⟨r₁, r₂, c₁, c₂, rfl, rfl, hX, rfl, rfl⟩
  rw [List.append_nil, List.append_nil]
  exact hX

/-- A call that is no DR scan. -/
theorem adds_op {o : EngineCall} (ho : dmiScans own o = []) (hseen : (onScans D.port o d).2.seen = d.seen)
    (hcap : (onScans D.port o d).2.captured = d.captured) :
    Adds D own (Prog.op (I := Engine) o) d Quiet := by
  refine ⟨[], ?_, ?_, fun _ => ⟨[], ?_, rfl, rfl⟩⟩
  · rw [Prog.run_op, hseen, List.append_nil]
  · rw [Prog.callsOf_op, List.flatMap_singleton, ho]
    rfl
  · rw [Prog.run_op, hcap, List.append_nil]

theorem adds_goIdle : Adds D own Engine.goIdle d Quiet := adds_op rfl rfl rfl

theorem adds_idleCycles (n k : ℕ) : Adds D own (Engine.idleCycles n k) d Quiet := by
  induction n with
  | zero => exact adds_pure ()
  | succ n ih => exact (adds_op rfl rfl rfl).after_quiet ih

/-- A scan of the instruction register. -/
theorem adds_writeIr (l : BitSequence) : Adds D own (Engine.writeIr l) d Quiet := by
  have h : (onScans D.port (.writeIr l) d).2 = { d with instr := D.instr.scanIr d.instr l } :=
    DtmParts.scanIr_eq D d l
  exact adds_op rfl (by rw [h]) (by rw [h])

/-- A DR scan, seen as what it was. -/
theorem seen_scanDr (D : DtmParts w ι μ) (d : Dtm w ι μ) (l : BitSequence) :
    ∃ r, (D.port.scanDr d l).seen = d.seen ++ [(D.selects d.instr, r)] := by
  cases hsel : D.selects d.instr with
  | true => exact ⟨_, by rw [DtmParts.scanDr_dmi D hsel]⟩
  | false => exact ⟨_, by rw [DtmParts.scanDr_other D hsel]⟩

/-- **A scan that is not of the DMI register**. -/
theorem adds_other {o : EngineCall} (ho : dmiScans own o = [false]) (d₁ : Dtm w ι μ) (l : BitSequence)
    (hstart : d₁.seen = d.seen ∧ d₁.captured = d.captured)
    (hend : (onScans D.port o d).2.seen = (D.port.scanDr d₁ l).seen ∧
      (onScans D.port o d).2.captured = (D.port.scanDr d₁ l).captured) :
    Adds D own (Prog.op (I := Engine) o) d Quiet := by
  obtain ⟨r, hr⟩ := seen_scanDr D d₁ l
  refine ⟨[(D.selects d₁.instr, r)], ?_, ?_, ?_⟩
  · rw [Prog.run_op, hend.1, hr, hstart.1]
  · rw [Prog.callsOf_op, List.flatMap_singleton, ho]
    rfl
  · intro hright
    rw [Prog.callsOf_op, List.flatMap_singleton, ho] at hright
    have hsel : D.selects d₁.instr = false := by simpa using hright
    refine ⟨[], ?_, ?_, rfl⟩
    · rw [Prog.run_op, hend.2, DtmParts.scanDr_other D hsel, List.append_nil]
      exact hstart.2
    · rw [hsel]
      rfl

/-- `write_vir`, whose DR scan is not of the DMI register. -/
theorem adds_writeVir (val : BitSequence) : Adds D own (Engine.writeVir val) d Quiet := by
  refine adds_other rfl (D.port.scanIr d (BitSequence.ofInt VIR false 10)) (virWord val) ?_ ?_
  · rw [DtmParts.scanIr_eq]
    exact ⟨rfl, rfl⟩
  · change (D.port.scanIr _ _).seen = _ ∧ (D.port.scanIr _ _).captured = _
    rw [DtmParts.scanIr_eq]
    exact ⟨rfl, rfl⟩

/-- A `write_dr` that is not of the DMI register. -/
theorem adds_writeDr_other (l : BitSequence) : Adds D false (Engine.writeDr l) d Quiet :=
  adds_other rfl d l ⟨rfl, rfl⟩ ⟨rfl, rfl⟩

/-- **A scan of the DMI register**: what is left in it is seen, and its op decides. -/
theorem adds_own {o : EngineCall} (ho : dmiScans true o = [true]) {l : BitSequence}
    (hend : (onScans D.port o d).2 = D.port.scanDr d l) :
    Adds D true (Prog.op (I := Engine) o) d fun reqs captured =>
      reqs = [Request.ofReg ((D.response d.dm).shiftAll l)].filter (fun r => r.op ≠ 0) ∧
        captured = [D.response d.dm] ∧ D.selects d.instr = true := by
  obtain ⟨r, hr⟩ := seen_scanDr D d l
  refine ⟨[(D.selects d.instr, r)], ?_, ?_, ?_⟩
  · rw [Prog.run_op, hend, hr]
  · rw [Prog.callsOf_op, List.flatMap_singleton, ho]
    rfl
  · intro hright
    rw [Prog.callsOf_op, List.flatMap_singleton, ho] at hright
    have hsel : D.selects d.instr = true := by simpa using hright
    rw [DtmParts.scanDr_dmi D hsel] at hr
    have hreg : r = (D.response d.dm).shiftAll l := by
      have := List.append_cancel_left hr
      simp only [List.cons.injEq, Prod.mk.injEq, and_true] at this
      exact this.2.symm
    refine ⟨[D.response d.dm], ?_, ?_, rfl, hsel⟩
    · rw [Prog.run_op, hend, DtmParts.scanDr_dmi D hsel]
    · rw [hsel, hreg]
      rfl

/-! ### Calls -/

/-- A selection. -/
theorem adds_selectIr (dmi : Dmi) (ir : ℕ) (currentir : Option ℕ) :
    Adds D own (dmi.selectIr ir currentir) d Quiet := by
  rw [Dmi.selectIr]
  split_ifs
  · refine Adds.then_quiet ?_ (adds_pure _)
    rw [Dmi.writeIr]
    split_ifs
    · exact adds_writeVir _
    · exact adds_writeIr _
  · exact adds_pure _

/-- An address of a call is below 128. -/
def ApbCall.InRange : ApbCall → Prop
  | .writeapb adr _ | .readapb adr => 0 ≤ adr ∧ adr < 128
  | .selectIr _ | .writeDr _ | .goIdle | .writeTms _ => True

theorem run_idleCycles (d : Dtm w ι μ) (n k : ℕ) :
    Prog.run (onScans D.port) (Engine.idleCycles n k) d = ((), d) := by
  induction n with
  | zero => rfl
  | succ n ih => exact ih

/-- The end of `readapb`. -/
theorem adds_readBack {dmi : Dmi} {D : DtmParts dmi.width ι μ} {d : Dtm dmi.width ι μ} (hw : 41 ≤ dmi.width)
    (currentir : Option ℕ) :
    let p : Prog Engine (ℕ × Option ℕ) := do
      Engine.goIdle
      Engine.idleCycles dmi.readIdle.1 dmi.readIdle.2
      let val ← Engine.readDr dmi.width
      return (land (val.toInt >>> 2 : ℕ) 0xffffffff, currentir)
    Adds D true p d fun reqs captured => reqs = [] ∧ ∃ readBack : ShiftReg dmi.width,
      captured = [readBack] ∧ (Prog.run (onScans D.port) p d).1.1 = field 2 32 readBack.bits := by
  intro p
  have hrun : (Prog.run (onScans D.port) p d).1.1 =
      land (value (D.port.outsDr (D.port.captureDr d) (List.replicate dmi.width false)) >>> 2 : ℕ)
        0xffffffff := by
    rw [← BitSequence.toInt_eq]
    simp only [p, Prog.run_bind, run_idleCycles]
    rfl
  have hidle : (Prog.run (onScans D.port) (Engine.idleCycles dmi.readIdle.1 dmi.readIdle.2)
      (Prog.run (onScans D.port) Engine.goIdle d).2).2 = d := by
    rw [run_idleCycles]
    rfl
  refine adds_goIdle.after_quiet ((adds_idleCycles _ _).after_quiet (Adds.then_quiet ?_ (adds_pure _)))
  rw [hidle, hrun]
  refine (adds_own (o := .readDr dmi.width) rfl rfl).mono ?_
  rintro reqs captured ⟨hreqs, hcap, hsel⟩
  refine ⟨?_, _, hcap, ?_⟩
  · rw [hreqs, List.filter_singleton, op_readBack]
    rfl
  · rw [DtmParts.outsDr_dmi D hsel, value_outs (by omega)]

section
variable {dmi : Dmi} {D : DtmParts dmi.width ι μ} {d : Dtm dmi.width ι μ} (hw : 41 ≤ dmi.width) {adr : ℤ}
  (hadr : 0 ≤ adr ∧ adr < 128) (currentir : Option ℕ)
include hw hadr

theorem adds_writeapb (data : ℤ) : Adds D true (dmi.writeapb adr data currentir) d fun reqs captured =>
    reqs = ApbCall.request (.writeapb adr data) ∧ ∃ c, captured = [c] := by
  rw [Dmi.writeapb]
  refine (adds_selectIr dmi 0x11 currentir).after_quiet ?_
  refine ((adds_own (o := .writeDr (writeRequest dmi.width adr data)) rfl rfl).then_quiet ?_).mono ?_
  · cases dmi.writeIdle with
    | none => exact adds_pure _
    | some nk => exact adds_goIdle.after_quiet ((adds_idleCycles nk.1 nk.2).then_quiet (adds_pure _))
  · rintro reqs captured ⟨hreqs, hcap, -⟩
    rw [ofReg_writeRequest hw hadr] at hreqs
    exact ⟨hreqs, _, hcap⟩

theorem adds_readapb : Adds D true (dmi.readapb adr currentir) d fun reqs captured =>
    reqs = ApbCall.request (.readapb adr) ∧ ∃ c readBack : ShiftReg dmi.width, captured = [c, readBack] ∧
      (Prog.run (onScans D.port) (dmi.readapb adr currentir) d).1.1 = field 2 32 readBack.bits := by
  rw [Dmi.readapb]
  refine ((adds_selectIr dmi 0x11 currentir).after_quiet
    ((adds_own (o := .writeDr (readRequest dmi.width adr)) rfl rfl).bind (adds_readBack hw _))).mono ?_
  rintro reqs captured ⟨r₁, r₂, c₁, c₂, rfl, rfl, ⟨hreqs, hcap, -⟩, rfl, readBack, hback, hval⟩
  rw [ofReg_readRequest hw hadr] at hreqs
  refine ⟨?_, _, readBack, congrArg₂ (· ++ ·) hcap hback, ?_⟩
  · rw [List.append_nil, hreqs]
    rfl
  · rw [Prog.run_bind, Prog.run_bind]
    exact hval

end

/-- **A call from the upper layer** adds the request it is for, and what it is about is
what the DMI register captured. -/
theorem adds_call {dmi : Dmi} {D : DtmParts dmi.width ι μ} {d : Dtm dmi.width ι μ} (hw : 41 ≤ dmi.width)
    {o : ApbCall} (ho : o.InRange) (currentir : Option ℕ) :
    Adds D o.isRequest (dmi.call o currentir) d fun reqs captured =>
      reqs = o.request ∧ Answers o (Prog.run (onScans D.port) (dmi.call o currentir) d).1.1 captured := by
  cases o with
  | writeapb adr data => exact (adds_writeapb hw ho currentir data).then_quiet (adds_pure _)
  | readapb adr => exact adds_readapb hw ho currentir
  | selectIr ir => exact ((adds_selectIr dmi ir currentir).then_quiet (adds_pure _))
  | writeDr data => exact (adds_writeDr_other data).then_quiet (adds_pure _)
  | goIdle => exact adds_goIdle.then_quiet (adds_pure _)
  | writeTms out => exact (adds_op rfl rfl rfl).then_quiet (adds_pure _)

/-! ### Sessions -/

/-- What is true throughout: an entry for each DR scan, and, if DMI was selected at the
scans of the DMI register and at no other, the requests of the calls and the answers. -/
structure Heard {dmi : Dmi} (made : List Made) (d : Dtm dmi.width ι μ) : Prop where
  scans : d.seen.length = (made.flatMap Made.dmiScans).length
  heard : d.seen.map Prod.fst = made.flatMap Made.dmiScans →
    requests d.seen = made.flatMap (fun m => m.call.request) ∧ Answered made d.captured

variable {dmi : Dmi} {D : DtmParts dmi.width ι μ}

/-- A logged call is the call, and is logged. -/
theorem run_logged (o : ApbCall) (t : Option ℕ × List Made) (d : Dtm dmi.width ι μ) :
    Prog.run (onScans D.port) (dmi.logged o t) d =
      let r := Prog.run (onScans D.port) (dmi.call o t.1) d
      ((r.1.1, (r.1.2, t.2 ++ [⟨o, r.1.1, Prog.callsOf (onScans D.port) (dmi.call o t.1) d⟩])), r.2) := by
  rw [Dmi.logged, Prog.run_bind, Prog.run_traced]
  rfl

theorem Heard.logged (hw : 41 ≤ dmi.width) {o : ApbCall} (ho : o.InRange) {t : Option ℕ × List Made}
    {d : Dtm dmi.width ι μ} (h : Heard t.2 d) :
    let r := Prog.run (onScans D.port) (dmi.logged o t) d
    Heard r.1.2.2 r.2 := by
  obtain ⟨new, hseen, hlen, hnew⟩ := adds_call (D := D) (d := d) hw ho t.1
  rw [run_logged]
  dsimp only
  refine ⟨?_, ?_⟩
  · rw [hseen, List.length_append, List.flatMap_append, List.length_append, h.scans, hlen,
      List.flatMap_singleton]
    rfl
  · intro hright
    rw [hseen, List.map_append, List.flatMap_append, List.flatMap_singleton] at hright
    obtain ⟨hold, hright⟩ := List.append_inj hright (by rw [List.length_map, h.scans])
    obtain ⟨hreqs, parts, hparts, hall⟩ := h.heard hold
    obtain ⟨captured, hcap, hreq, hans⟩ := hnew hright
    refine ⟨?_, parts ++ [captured], ?_, List.rel_append hall (.cons hans .nil)⟩
    · rw [hseen, requests_append, hreqs, hreq, List.flatMap_append, List.flatMap_singleton]
    · rw [hcap, hparts, List.flatten_append]
      simp

end

/-- The calls of a session, one after the other. -/
def session {Op σ : Type} (exec : σ → Op → Prog Apb (Option ℕ × σ)) : List Op → σ → Prog Apb σ
  | [], self => pure self
  | op :: ops, self => do
    let r ← exec self op
    session exec ops r.2

/-- Calls in order, at addresses below 128. -/
def InOrderInRange {α : Type} (p : Prog Apb α) (t : Rest) : Prop :=
  Prog.Follows (fun t o => ApbCall.InRange o ∧ ∃ adrs, Rest.Allows adrs t o) Rest.next p t fun _ _ => True

theorem InOrder.inRange {α : Type} {adrs : List ℤ} (hadrs : ∀ adr ∈ adrs, 0 ≤ adr ∧ adr < 128)
    {p : Prog Apb α} {t : Rest} (h : InOrder adrs p t fun _ _ => True) : InOrderInRange p t := by
  refine Prog.Follows.imp ?_ h
  intro t o ho
  refine ⟨?_, adrs, ho⟩
  cases o with
  | writeapb adr data => exact hadrs adr ho
  | readapb adr => exact hadrs adr ho
  | _ => trivial

theorem inOrder_session {Op σ : Type} {exec : σ → Op → Prog Apb (Option ℕ × σ)} {ops : List Op}
    (h : ∀ self t, ∀ op ∈ ops, InOrderInRange (exec self op) t) (self : σ) (t : Rest) :
    InOrderInRange (session exec ops self) t := by
  induction ops generalizing self t with
  | nil => trivial
  | cons op ops ih =>
    rw [session, InOrderInRange, Prog.follows_bind]
    refine (h self t op List.mem_cons_self).mono fun r t' _ => ?_
    exact ih (fun self t op' hop' => h self t op' (List.mem_cons_of_mem op hop')) r.2 t'

/-- **A program of requests on a target**, edge by edge: it succeeds, and if the
instruction register selected DMI at the scans of the DMI register and at no other scan,
the requests that the debug module saw are those of the calls, in order, and each
`readapb` returned the data of what its read-back captured. -/
def Delivers {ι μ σ : Type} (C : (History → Bool) → Controller σ) (history : σ → History) (c : σ)
    (dmi : Dmi) (D : DtmParts dmi.width ι μ) (x : TapState × Dtm dmi.width ι μ) {α : Type}
    (p : Prog Apb α) : Prop :=
  ∃ r s, Prog.exec (JtagOCDEngine.handler (C (D.port.machine.shows x)))
      (Prog.lower dmi.logged p (none, [])) ⟨x.1, c⟩ = .ok r s ∧
    let d := (D.port.machine.run x (history s.ctrl)).2
    d.seen.map Prod.fst = r.2.2.flatMap Made.dmiScans →
      requests d.seen = r.2.2.flatMap (fun m => m.call.request) ∧ Answered r.2.2 d.captured

/-- A program of whole scans and moves to Run-Test/Idle. -/
def AllWhole {α : Type} (p : Prog Engine α) : Prop :=
  Prog.Follows (fun (_ : Unit) (o : EngineCall) => o.Whole) (fun _ _ => ()) p () fun _ _ => True

theorem AllWhole.bind {α β : Type} {p : Prog Engine α} {f : α → Prog Engine β} (hp : AllWhole p)
    (hf : ∀ a, AllWhole (f a)) : AllWhole (p >>= f) := by
  rw [AllWhole, Prog.follows_bind]
  exact hp.mono fun a _ _ => hf a

theorem allWhole_op {o : EngineCall} (ho : o.Whole) : AllWhole (Prog.op (I := Engine) o) :=
  ⟨ho, fun _ => trivial⟩

theorem allWhole_goIdle : AllWhole Engine.goIdle := allWhole_op (o := .changeState .runTestIdle) rfl

theorem allWhole_writeDr (l : BitSequence) : AllWhole (Engine.writeDr l) :=
  allWhole_op (o := .writeDr l) trivial

theorem allWhole_writeTms (l : BitSequence) :
    AllWhole (Prog.op (I := Engine) (.writeTms l false)) := allWhole_op (o := .writeTms l false) trivial

theorem allWhole_idleCycles (n k : ℕ) : AllWhole (Engine.idleCycles n k) := by
  induction n with
  | zero => trivial
  | succ n ih => exact (allWhole_writeTms _).bind fun _ => ih

theorem allWhole_selectIr (dmi : Dmi) (ir : ℕ) (currentir : Option ℕ) :
    AllWhole (dmi.selectIr ir currentir) := by
  rw [Dmi.selectIr]
  split_ifs
  · refine AllWhole.bind ?_ fun _ => trivial
    rw [Dmi.writeIr]
    split_ifs
    · exact allWhole_op trivial
    · exact allWhole_op trivial
  · trivial

/-- All calls of the drivers on the engine are of this kind. -/
theorem allWhole_call {dmi : Dmi} (hw : 0 < dmi.width) (o : ApbCall) (currentir : Option ℕ) :
    AllWhole (dmi.call o currentir) := by
  cases o with
  | writeapb adr data =>
    refine AllWhole.bind ?_ fun _ => trivial
    refine (allWhole_selectIr dmi 0x11 currentir).bind fun _ => (allWhole_writeDr _).bind fun _ => ?_
    cases dmi.writeIdle with
    | none => trivial
    | some nk => exact allWhole_goIdle.bind fun _ => (allWhole_idleCycles nk.1 nk.2).bind fun _ => trivial
  | readapb adr =>
    refine (allWhole_selectIr dmi 0x11 currentir).bind fun _ => (allWhole_writeDr _).bind fun _ => ?_
    refine allWhole_goIdle.bind fun _ => (allWhole_idleCycles _ _).bind fun _ => ?_
    exact (allWhole_op (o := .readDr dmi.width) hw).bind fun _ => trivial
  | selectIr ir => exact (allWhole_selectIr dmi ir currentir).bind fun _ => trivial
  | writeDr data => exact (allWhole_writeDr data).bind fun _ => trivial
  | goIdle => exact allWhole_goIdle.bind fun _ => trivial
  | writeTms out => exact (allWhole_writeTms out).bind fun _ => trivial

section
variable {ι μ σ : Type} {dmi : Dmi} {D : DtmParts dmi.width ι μ} {α : Type} {p : Prog Apb α}

/-- Logged and written out, a program in order fits, and can be taken scan by scan. -/
theorem follows_logged (h : dmi.Scannable) (hp : InOrderInRange p ⟨none, false⟩) (t : TapState) :
    Prog.Follows (fun s (o : EngineCall) => o.Fits s ∧ o.Whole) (fun s (o : EngineCall) => o.leaves s)
      (Prog.lower dmi.logged p (none, [])) t fun _ _ => True := by
  refine (Prog.Follows.lower
    (R := fun u (_ : Option ℕ × List Made) s => u.idle = true → s = .runTestIdle) ?_ hp
    (fun hf => absurd hf (by decide))).mono fun _ _ _ => trivial
  rintro o u ⟨currentir, made⟩ s hu ⟨-, adrs, ho⟩
  rw [Dmi.logged, Prog.follows_bind]
  exact ((h.call ho hu currentir).and (allWhole_call h.width_pos o currentir)).traced.mono
    fun _ _ hidle => hidle

/-- Scan by scan, what is heard is right throughout. -/
theorem heard_run (hw : 41 ≤ dmi.width) (hp : InOrderInRange p ⟨none, false⟩) (instr : ι)
    (reg : ShiftReg dmi.width) (dm : μ) :
    let r := Prog.run (onScans D.port) (Prog.lower dmi.logged p (none, [])) (Dtm.init instr reg dm)
    Heard r.1.2.2 r.2 := by
  have hstart : Heard [] (Dtm.init instr reg dm : Dtm dmi.width ι μ) :=
    ⟨rfl, fun _ => ⟨rfl, [], rfl, .nil⟩⟩
  obtain ⟨u, hr, -⟩ := Prog.Follows.run (h := Prog.through (onScans D.port) dmi.logged)
    (R := fun _ s => Heard s.1.2 s.2) (fun o u s hs ho => hs.logged hw ho.1) hp
    (s := ((none, []), Dtm.init instr reg dm)) hstart
  rw [Prog.run_lower]
  exact hr

/-- **On every lawful controller.** -/
theorem delivers {C : (History → Bool) → Controller σ} {history : σ → History} {c : σ}
    (L : ∀ tdo, (C tdo).Lawful tdo) (hL : ∀ tdo c, history c = ((L tdo).wire c).history)
    (hrest : ∀ tdo, (L tdo).Rest c) (hwire : ∀ tdo, (L tdo).wire c = ⟨none, []⟩)
    (h : dmi.Scannable) (hw : 41 ≤ dmi.width) (hp : InOrderInRange p ⟨none, false⟩) {t : TapState}
    (ht : Resting t) (instr : ι) (reg : ShiftReg dmi.width) (dm : μ) :
    Delivers C history c dmi D (t, Dtm.init instr reg dm) p := by
  have hface : Facing D.port (L (D.port.machine.shows (t, Dtm.init instr reg dm))) t ⟨t, c⟩
      (Dtm.init instr reg dm) := ⟨[], ⟨hrest _, rfl, hwire _⟩, rfl, ht⟩
  obtain ⟨t', s', hrun, hist, hat, hx, -⟩ := exec_onScans (follows_logged h hp t) hface
  refine ⟨_, s', hrun, ?_⟩
  have hhist : history s'.ctrl = hist := by rw [hL, hat.wire]
  rw [hhist, hx]
  exact (heard_run hw hp instr reg dm).heard

end

/-! ### The drivers -/

/-- A call of a client at an address below 128; only a direct request has an address. -/
def PulpOCD.Op.InRange : PulpOCD.Op → Prop
  | .writeapb adr _ | .readapb adr => 0 ≤ adr ∧ adr < 128
  | _ => True

def ReveOCD.Op.InRange : ReveOCD.Op → Prop
  | .writeapb adr _ | .readapb adr => 0 ≤ adr ∧ adr < 128
  | _ => True

theorem PulpOCD.Op.InRange.adrs {op : PulpOCD.Op} (h : op.InRange) : ∀ adr ∈ op.adrs, 0 ≤ adr ∧ adr < 128 := by
  intro adr hmem
  cases op with
  | writeapb adr' data =>
    obtain rfl := List.mem_singleton.mp hmem
    exact h
  | readapb adr' =>
    obtain rfl := List.mem_singleton.mp hmem
    exact h
  | _ =>
    simp only [Op.adrs, List.mem_cons, List.not_mem_nil, or_false, DMCONTROLREG, ABSTRACTCMDREG, PROGBUFFERREG,
      ABSTRACTDATAREG, SYSTEMBUSCONTROLREG, SYSTEMBUSADR0, SYSTEMBUSDATA0] at hmem
    omega

theorem ReveOCD.Op.InRange.adrs {op : ReveOCD.Op} (h : op.InRange) : ∀ adr ∈ op.adrs, 0 ≤ adr ∧ adr < 128 := by
  intro adr hmem
  cases op with
  | writeapb adr' data =>
    obtain rfl := List.mem_singleton.mp hmem
    exact h
  | readapb adr' =>
    obtain rfl := List.mem_singleton.mp hmem
    exact h
  | resetdm => exact absurd hmem List.not_mem_nil
  | _ =>
    simp only [Op.adrs, List.mem_cons, List.not_mem_nil, or_false, DMCONTROLREG, ABSTRACTCMDREG,
      PROGBUFFERREG, ABSTRACTDATAREG] at hmem
    omega

/-- A session of either driver on a target, with both controllers. -/
def SessionDelivers {ι μ : Type} (dmi : Dmi) (D : DtmParts dmi.width ι μ)
    (x : TapState × Dtm dmi.width ι μ) {α : Type} (p : Prog Apb α) : Prop :=
  Delivers JtagSimController.controller Wire.history ⟨none, []⟩ dmi D x p ∧
    Delivers Blaster.controller (fun s => s.cable.history) ⟨⟨false, false, [], [], 0, false⟩, none⟩ dmi D x p

theorem sessionDelivers {ι μ : Type} {dmi : Dmi} (D : DtmParts dmi.width ι μ) (h : dmi.Scannable)
    (hw : 41 ≤ dmi.width) {α : Type} {p : Prog Apb α} (hp : InOrderInRange p ⟨none, false⟩) {t : TapState}
    (ht : Resting t) (instr : ι) (reg : ShiftReg dmi.width) (dm : μ) :
    SessionDelivers dmi D (t, Dtm.init instr reg dm) p :=
  ⟨delivers JtagSimController.lawful (fun _ _ => rfl) (fun _ => trivial) (fun _ => rfl) h hw hp ht instr reg dm,
    delivers Blaster.lawful (fun _ _ => rfl) (fun _ => ⟨rfl, rfl⟩) (fun _ => rfl) h hw hp ht instr reg dm⟩

/-- **Requests are delivered**: in every session of either driver, on either controller,
with a target of any kind whose port rests at the start. -/
theorem requests_delivered (u : Setup) {ι μ : Type} {t : TapState} (ht : Resting t) (instr : ι) (dm : μ) :
    (∀ (D : DtmParts 41 ι μ) (reg : ShiftReg 41) (ops : List PulpOCD.Op), (∀ op ∈ ops, op.InRange) →
      SessionDelivers (PulpOCD.dmi u.irlen u.virtual) D (t, Dtm.init instr reg dm)
        (session PulpOCD.exec ops PulpOCD.init)) ∧
    ∀ (D : DtmParts 50 ι μ) (reg : ShiftReg 50) (ops : List ReveOCD.Op), (∀ op ∈ ops, op.InRange) →
      SessionDelivers (ReveOCD.dmi u.irlen u.virtual) D (t, Dtm.init instr reg dm)
        (session ReveOCD.exec ops ReveOCD.init) := by
  constructor
  · intro D reg ops hops
    have hscan : (PulpOCD.dmi u.irlen u.virtual).Scannable :=
      ⟨u.irlen_pos, u.irlen_lt, (by decide : 0 < 41), (by decide : 41 < 512)⟩
    refine @sessionDelivers ι μ (PulpOCD.dmi u.irlen u.virtual) D hscan (le_refl 41) _ _ ?_ t ht instr reg dm
    exact inOrder_session (fun self t op hop =>
      (PulpOCD.inOrder_exec self op t).inRange (hops op hop).adrs) PulpOCD.init _
  · intro D reg ops hops
    have hscan : (ReveOCD.dmi u.irlen u.virtual).Scannable :=
      ⟨u.irlen_pos, u.irlen_lt, (by decide : 0 < 50), (by decide : 50 < 512)⟩
    refine @sessionDelivers ι μ (ReveOCD.dmi u.irlen u.virtual) D hscan (by decide : 41 ≤ 50) _ _ ?_ t ht
      instr reg dm
    exact inOrder_session (fun self t op hop =>
      (ReveOCD.inOrder_exec self op t).inRange (hops op hop).adrs) ReveOCD.init _

/-- A TAP of its own with a DMI register, and a debug module that always answers with the
same word. -/
def tapParts (word : ℕ) : DtmParts 41 (Target.Tap Unit) Unit where
  instr := Tap.port noData
  selects t := t.ir.value == 0x11
  response _ := .ofNat 41 word
  accept m _ := m
  selects_captureDr _ := rfl
  selects_shiftDr _ _ := rfl

/-- On such a target, after `resetdm`, a write and a read. -/
theorem requests_delivered_tap :
    let D := tapParts 0x123456785
    let x : TapState × Dtm 41 (Target.Tap Unit) Unit :=
      (.testLogicReset, Dtm.init ⟨.ofNat irLength 0, .ofNat irLength 1, ()⟩ (.ofNat 41 0) ())
    ∃ r s, Prog.exec (JtagOCDEngine.handler (JtagSimController.controller (D.port.machine.shows x)))
        (Prog.lower (PulpOCD.dmi 5 none).logged
          (session PulpOCD.exec [.resetdm, .writeapb 0x11 (-1), .readapb 0x16] PulpOCD.init) (none, []))
        ⟨.testLogicReset, ⟨none, []⟩⟩ = .ok r s ∧
      requests (D.port.machine.run x s.ctrl.history).2.seen =
        [⟨2, 0x10, 1⟩, ⟨2, 0x11, 0xffffffff⟩, ⟨1, 0x16, 0⟩] := by
  intro D x
  obtain ⟨⟨r, s, hrun, hright⟩, -⟩ :=
    (requests_delivered ⟨5, none, 0, by decide, by decide⟩ (by decide : Resting .testLogicReset)
      x.2.instr x.2.dm).1 D (.ofNat 41 0) [.resetdm, .writeapb 0x11 (-1), .readapb 0x16] (by
        intro op hop
        simp only [List.mem_cons, List.not_mem_nil, or_false] at hop
        rcases hop with rfl | rfl | rfl
        · trivial
        · exact ⟨by decide, by decide⟩
        · exact ⟨by decide, by decide⟩)
  have hcheck : (match Prog.exec (JtagOCDEngine.handler (JtagSimController.controller (D.port.machine.shows x)))
        (Prog.lower (PulpOCD.dmi 5 none).logged
          (session PulpOCD.exec [.resetdm, .writeapb 0x11 (-1), .readapb 0x16] PulpOCD.init) (none, []))
        ⟨.testLogicReset, ⟨none, []⟩⟩ with
      | .ok r s => decide ((D.port.machine.run x s.ctrl.history).2.seen.map Prod.fst =
            r.2.2.flatMap Made.dmiScans) &&
          decide (r.2.2.flatMap (fun m => m.call.request) =
            [⟨2, 0x10, 1⟩, ⟨2, 0x11, 0xffffffff⟩, ⟨1, 0x16, 0⟩])
      | .error _ _ => false) = true := by decide +kernel
  refine ⟨r, s, hrun, ?_⟩
  have hrun' : Prog.exec (JtagOCDEngine.handler (JtagSimController.controller (D.port.machine.shows x)))
      (Prog.lower (PulpOCD.dmi 5 none).logged
        (session PulpOCD.exec [.resetdm, .writeapb 0x11 (-1), .readapb 0x16] PulpOCD.init) (none, []))
      ⟨.testLogicReset, ⟨none, []⟩⟩ = .ok r s := hrun
  rw [hrun', Bool.and_eq_true, decide_eq_true_eq, decide_eq_true_eq] at hcheck
  obtain ⟨hreqs, -⟩ := hright hcheck.1
  exact hreqs.trans hcheck.2

/-! ### The bench on the engine -/

section
variable {T : TargetKind}

/-- What the bench answers and what becomes of the target on it is what its scans do. -/
theorem Bench.run_call {α : Type} (p : Prog Engine α) (s : Bench T) : Prog.run (onScans T.port) p s.device =
    ((Prog.run Bench.call p s).1, (Prog.run Bench.call p s).2.device) := by
  induction p generalizing s with
  | done a => rfl
  | call o k ih => exact ih (onScans T.port o s.device).1 (Bench.call o s).2

/-- So it is with the calls from the upper layer. -/
theorem Bench.run_apb (dmi : Dmi) {α : Type} (p : Prog Apb α) (s : Option ℕ × Bench T) :
    Prog.run (Prog.through (onScans T.port) dmi.call) p (s.1, s.2.device) =
      let r := Prog.run (Bench.apb dmi) p s
      (r.1, (r.2.1, r.2.2.device)) := by
  induction p generalizing s with
  | done a => rfl
  | call o k ih =>
    have hcall : Prog.through (onScans T.port) dmi.call o (s.1, s.2.device) =
        ((Bench.apb dmi o s).1, ((Bench.apb dmi o s).2.1, (Bench.apb dmi o s).2.2.device)) := by
      rw [Prog.through, Bench.run_call (dmi.call o s.1) { s.2 with maker := o.maker }]
      rfl
    change Prog.run _ (k (Prog.through (onScans T.port) dmi.call o (s.1, s.2.device)).1)
      (Prog.through (onScans T.port) dmi.call o (s.1, s.2.device)).2 = _
    rw [hcall]
    exact ih (Bench.apb dmi o s).1 (Bench.apb dmi o s).2

/-- The calls of a session as one program. -/
theorem Bench.run_session {σ Op : Type} (dmi : Dmi) (exec : σ → Op → Prog Apb (Option ℕ × σ)) (ops : List Op)
    (self : σ) (s : Option ℕ × Bench T) : Prog.run (Bench.apb dmi) (session exec ops self) s =
      final (fun op s => Bench.run dmi (exec s.1 op) s.2) ops (self, s) := by
  induction ops generalizing self s with
  | nil => rfl
  | cons op ops ih =>
    rw [session, Prog.run_bind, ih]
    rfl

end

/-- Any session in order. -/
theorem allows_session {Op σ : Type} {exec : σ → Op → Prog Apb (Option ℕ × σ)} {adrs : Op → List ℤ}
    (horder : ∀ self op t, InOrder (adrs op) (exec self op) t fun _ _ => True) (ops : List Op) (self : σ) (t : Rest) :
    Prog.Follows (fun t o => ∃ adrs, Rest.Allows adrs t o) Rest.next (session exec ops self) t fun _ _ => True := by
  induction ops generalizing self t with
  | nil => trivial
  | cons op ops ih =>
    rw [session, Prog.follows_bind]
    refine (Prog.Follows.imp (fun _ _ ho => ⟨adrs op, ho⟩) (horder self op t)).mono fun r t' _ => ?_
    exact ih r.2 t'

/-- **The bench is the engine, scan by scan**: on any lawful controller in front of the target's port a
session succeeds, and leaves the driver and the target as it leaves them on the bench. -/
theorem exec_onBench {σ Op τ : Type} {exec : σ → Op → Prog Apb (Option ℕ × σ)} {adrs : Op → List ℤ}
    (horder : ∀ self op t, InOrder (adrs op) (exec self op) t fun _ _ => True) {dmi : Dmi} (h : dmi.Scannable)
    {T : TargetKind} {C : Controller τ} {x : TapState × T.State} {L : C.Lawful (T.port.machine.shows x)}
    {t : TapState} {e : EngineState τ} {d : T.State} (hface : Facing T.port L t e d) (ops : List Op) (self : σ) :
    let b := final (fun op s => Bench.run dmi (exec s.1 op) s.2) ops (self, Bench.start d)
    ∃ t' e', Prog.exec (JtagOCDEngine.handler C) (Prog.lower dmi.call (session exec ops self) none) e =
        .ok (b.1, b.2.1) e' ∧ Facing T.port L t' e' b.2.2.device := by
  intro b
  have hfollows : Prog.Follows (fun s (o : EngineCall) => o.Fits s ∧ o.Whole) (fun s (o : EngineCall) => o.leaves s)
      (Prog.lower dmi.call (session exec ops self) none) t fun _ _ => True := by
    refine (Prog.Follows.lower (R := fun u (_ : Option ℕ) s => u.idle = true → s = .runTestIdle) ?_
      (allows_session horder ops self ⟨none, false⟩) (fun hf => absurd hf (by decide))).mono fun _ _ _ => trivial
    rintro o u currentir s hu ⟨adrs, ho⟩
    exact (h.call ho hu currentir).and (allWhole_call h.width_pos o currentir)
  obtain ⟨t', e', hrun, hface'⟩ := exec_onScans hfollows hface
  have hb := Bench.run_apb dmi (session exec ops self) (Bench.start d)
  rw [Bench.run_session] at hb
  rw [Prog.run_lower, show Prog.run _ (session exec ops self) (none, d) = _ from hb] at hrun hface'
  exact ⟨t', e', hrun, hface'⟩

/-- **The selected instruction, edge by edge**: on any lawful controller whose `virtual` is not `False`,
in front of the target that it is for, a session of either driver ends with the instruction
selected that the driver takes to be. -/
theorem selected_onEngine {ε τ : Type} (D : DataRegisters ε) {virtual : Option Bool} (hv : virtual ≠ some false)
    {C : Controller τ} {x : TapState × (TargetKind.for D virtual).State}
    {L : C.Lawful ((TargetKind.for D virtual).port.machine.shows x)} {t : TapState} {e : EngineState τ}
    {d : (TargetKind.for D virtual).State} (hface : Facing (TargetKind.for D virtual).port L t e d) :
    (∀ ops : List PulpOCD.Op, ∃ r t' e' d', Prog.exec (JtagOCDEngine.handler C)
        (Prog.lower (PulpOCD.dmi irLength virtual).call (session PulpOCD.exec ops PulpOCD.init) none) e = .ok r e' ∧
      Facing (TargetKind.for D virtual).port L t' e' d' ∧
      ∀ ir, r.2 = some ir → (TargetKind.for D virtual).selected d' = some ir) ∧
    ∀ ops : List ReveOCD.Op, ∃ r t' e' d', Prog.exec (JtagOCDEngine.handler C)
        (Prog.lower (ReveOCD.dmi irLength virtual).call (session ReveOCD.exec ops ReveOCD.init) none) e = .ok r e' ∧
      Facing (TargetKind.for D virtual).port L t' e' d' ∧
      ∀ ir, r.2 = some ir → (TargetKind.for D virtual).selected d' = some ir := by
  constructor
  · intro ops
    have hscannable : (PulpOCD.dmi irLength virtual).Scannable :=
      ⟨(by decide : 0 < irLength), (by decide : irLength < 512), (by decide : 0 < 41), (by decide : 41 < 512)⟩
    obtain ⟨t', e', hrun, hface'⟩ := exec_onBench PulpOCD.inOrder_exec hscannable hface ops PulpOCD.init
    exact ⟨_, t', e', _, hrun, hface', ((right_iff D PulpOCD.inOrder_exec PulpOCD.beginsWithScan
      (PulpOCD.dmi irLength virtual) rfl d _ ops).mpr (Or.inl hv)).current⟩
  · intro ops
    have hscannable : (ReveOCD.dmi irLength virtual).Scannable :=
      ⟨(by decide : 0 < irLength), (by decide : irLength < 512), (by decide : 0 < 50), (by decide : 50 < 512)⟩
    obtain ⟨t', e', hrun, hface'⟩ := exec_onBench ReveOCD.inOrder_exec hscannable hface ops ReveOCD.init
    exact ⟨_, t', e', _, hrun, hface', ((right_iff D ReveOCD.inOrder_exec ReveOCD.beginsWithScan
      (ReveOCD.dmi irLength virtual) rfl d _ ops).mpr (Or.inl hv)).current⟩

end PyOcdRiscv.Ocd
