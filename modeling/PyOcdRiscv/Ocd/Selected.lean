import PyOcdRiscv.Lib.Runs
import PyOcdRiscv.Jtag.Scans
import PyOcdRiscv.Ocd.Dmi
import PyOcdRiscv.Ocd.Protocol
import PyOcdRiscv.Target.Instructions

/-!
# The selected instruction

A driver writes the instruction register only when the instruction it needs is not
the one it wrote last (`currentir`). That is right if what it wrote has arrived, and
`write_ir` is chosen by whether the controller has an attribute `virtual`, not by its
value: a controller whose `virtual` is `False` has its target sent the sequence for the
virtual hub, and a TAP of 5 bits takes the last half of it, zeros, as its instruction.

`Bench` is a target with a log of the DR scans and of the instruction selected at
each. `selected_iff` says for both drivers that every scan finds the instruction it was
made for exactly if the attribute is absent or `True` (or nothing is called).
-/

namespace PyOcdRiscv.Ocd

open Lib Jtag Target

/-- The method that makes a DR scan. -/
inductive Maker where
  | resetdm | writeapb | readapb
  deriving DecidableEq, Repr

/-- The instruction it makes the scan for: DTMCS or DMI. -/
def Maker.instruction : Maker → ℕ
  | .resetdm => 0x10
  | .writeapb | .readapb => 0x11

/-- Who makes the scans of a call: `writeapb` and `readapb` their own, and `resetdm` those
that it makes itself. -/
def ApbCall.maker : ApbCall → Maker
  | .writeapb _ _ => .writeapb
  | .readapb _ => .readapb
  | _ => .resetdm

/-- A kind of target. -/
structure TargetKind where
  /-- Its states. -/
  State : Type
  /-- How it takes scans. -/
  port : Port State
  /-- The instruction that is selected. -/
  selected : State → Option ℕ

/-- The target that a controller is for: a controller whose `virtual` is `True` is the
FPGA's cable, any other is connected to the pins of a TAP. -/
def TargetKind.for {ε : Type} (D : DataRegisters ε) : Option Bool → TargetKind
  | some true => ⟨Hub ε, Hub.port D, Hub.selected⟩
  | _ => ⟨Target.Tap ε, Tap.port D, Tap.selected⟩

/-- A target, with a log of the DR scans: who made each, and what was selected. -/
structure Bench (T : TargetKind) where
  /-- The target. -/
  device : T.State
  /-- Who makes the next scan. -/
  maker : Maker
  /-- The scans so far. -/
  log : List (Maker × Option ℕ)

variable {T : TargetKind}

/-- A call on the engine. -/
def Bench.call (o : EngineCall) (s : Bench T) : Engine.Res o × Bench T :=
  let r := onScans T.port o s.device
  (r.1, { s with
    device := r.2
    log := if o.scansDr then s.log ++ [(s.maker, T.selected s.device)] else s.log })

/-- A call from the upper layer of a driver, with `currentir`. -/
def Bench.apb (dmi : Dmi) (o : ApbCall) (s : Option ℕ × Bench T) :
    Apb.Res o × (Option ℕ × Bench T) :=
  Prog.through (I := Apb) (J := Engine) Bench.call dmi.call o (s.1, { s.2 with maker := o.maker })

/-- A program of such calls, and what it leaves: the object, `currentir` and the bench. -/
def Bench.run {σ : Type} (dmi : Dmi) (p : Prog Apb (Option ℕ × σ)) (s : Option ℕ × Bench T) :
    Option ℕ × (σ × (Option ℕ × Bench T)) :=
  let r := Prog.run (Bench.apb dmi) p s
  (r.1.1, (r.1.2, r.2))

/-- **The right instruction**: each scan so far found the instruction it was made for, and
`currentir` is the selected one. -/
structure Bench.Right (s : Option ℕ × Bench T) : Prop where
  scans : ∀ e ∈ s.2.log, e.2 = some e.1.instruction
  current : ∀ ir, s.1 = some ir → T.selected s.2.device = some ir

/-! ### A target that can be written -/

/-- The driver's `write_ir` reaches the target, and DR scans leave the instruction
alone. -/
structure Reaches (T : TargetKind) (dmi : Dmi) : Prop where
  writeIr : ∀ ir < 2 ^ irLength, ∀ s : Bench T,
    ∃ d, Prog.run Bench.call (dmi.writeIr (BitSequence.ofInt ir false dmi.irlen)) s =
      ((), { s with device := d }) ∧ T.selected d = some ir
  scanDr : ∀ d l ir, T.selected d = some ir → T.selected (T.port.scanDr d l) = some ir

variable {ε : Type} (D : DataRegisters ε)

theorem reaches_tap {dmi : Dmi} (hv : dmi.virtual = none) (hl : dmi.irlen = irLength) :
    Reaches (TargetKind.for D none) dmi where
  writeIr ir hir s := by
    refine ⟨(Tap.port D).scanIr s.device (BitSequence.ofInt ir false dmi.irlen), ?_, ?_⟩
    · rw [Dmi.writeIr, hv]
      rfl
    · have hw : BitSequence.ofInt ir false dmi.irlen = bits irLength ir := by
        rw [hl]; exact BitSequence.ofInt_eq (by decide) ir
      rw [hw]
      refine (Tap.selected_scanIr D s.device (length_bits ..)).trans ?_
      rw [value_bits_of_lt hir]
  scanDr d l _ h := (Tap.selected_scanDr D d l).trans h

theorem reaches_hub {dmi : Dmi} (hv : dmi.virtual = some true) (hl : dmi.irlen = irLength) :
    Reaches (TargetKind.for D (some true)) dmi where
  writeIr ir hir s := by
    refine ⟨scanVir (Hub.port D) s.device (BitSequence.ofInt ir false dmi.irlen), ?_, ?_⟩
    · rw [Dmi.writeIr, hv]
      rfl
    · have hw : BitSequence.ofInt ir false dmi.irlen = bits irLength ir := by
        rw [hl]; exact BitSequence.ofInt_eq (by decide) ir
      rw [hw]
      refine (Hub.selected_writeVir D s.device (length_bits ..)).trans ?_
      rw [BitSequence.toInt_eq, value_bits_of_lt hir]
  scanDr _ l _ h := Hub.selected_scanDr D h l

/-- **Every controller reaches its target**, but for one whose `virtual` is `False`. -/
theorem reaches_for {dmi : Dmi} (hv : dmi.virtual ≠ some false) (hl : dmi.irlen = irLength) :
    Reaches (TargetKind.for D dmi.virtual) dmi := by
  obtain ⟨irlen, virtual, width, writeIdle, readIdle⟩ := dmi
  match virtual with
  | none => exact reaches_tap D rfl hl
  | some true => exact reaches_hub D rfl hl
  | some false => exact absurd rfl hv

/-! ### Calls -/

/-- What selecting an instruction leaves. -/
structure SelectedIn (ir : ℕ) (s s' : Bench T) : Prop where
  selected : T.selected s'.device = some ir
  maker : s'.maker = s.maker
  log : s'.log = s.log

theorem Reaches.run_selectIr {dmi : Dmi} (h : Reaches T dmi) {ir : ℕ} (hir : ir < 2 ^ irLength)
    {currentir : Option ℕ} {s : Bench T} (hc : ∀ i, currentir = some i → T.selected s.device = some i) :
    ∃ s', Prog.run Bench.call (dmi.selectIr ir currentir) s = (some ir, s') ∧ SelectedIn ir s s' := by
  by_cases hne : currentir = some ir
  · refine ⟨s, ?_, hc ir hne, rfl, rfl⟩
    rw [Dmi.selectIr, if_neg (not_not_intro hne), hne]
    rfl
  · obtain ⟨d, hrun, hd⟩ := h.writeIr ir hir s
    refine ⟨{ s with device := d }, ?_, hd, rfl, rfl⟩
    rw [Dmi.selectIr, if_pos hne, Prog.run_bind, hrun]
    rfl

@[simp] theorem Bench.run_goIdle (s : Bench T) : Prog.run Bench.call Engine.goIdle s = ((), s) := rfl

@[simp] theorem Bench.run_idleCycles (n k : ℕ) (s : Bench T) :
    Prog.run Bench.call (Engine.idleCycles n k) s = ((), s) := by
  induction n with
  | zero => rfl
  | succ n ih => exact ih

/-- A DR scan: it is logged, and the instruction stays selected. -/
def Bench.scanned (l : BitSequence) (s : Bench T) : Bench T :=
  { s with device := T.port.scanDr s.device l, log := s.log ++ [(s.maker, T.selected s.device)] }

/-- `writeapb` after the selection. -/
theorem Bench.run_writeapb (dmi : Dmi) (adr data : ℤ) (s : Option ℕ × Bench T) :
    Bench.apb dmi (.writeapb adr data) s =
      let r := Prog.run Bench.call (dmi.selectIr 0x11 s.1) { s.2 with maker := .writeapb }
      ((), (r.1, r.2.scanned (writeRequest dmi.width adr data))) := by
  simp only [Bench.apb, Prog.through, Dmi.call, Dmi.writeapb, Prog.run_bind]
  cases dmi.writeIdle with
  | none => rfl
  | some nk => simp only [Prog.run_bind, run_goIdle, run_idleCycles]; rfl

/-- `readapb` after the selection. -/
theorem Bench.run_readapb (dmi : Dmi) (adr : ℤ) (s : Option ℕ × Bench T) :
    (Bench.apb dmi (.readapb adr) s).2 =
      let r := Prog.run Bench.call (dmi.selectIr 0x11 s.1) { s.2 with maker := .readapb }
      (r.1, (r.2.scanned (readRequest dmi.width adr)).scanned
        (List.replicate (dmi.width + 1) false)) := by
  simp only [Bench.apb, Prog.through, Dmi.call, Dmi.readapb, Prog.run_bind, run_goIdle, run_idleCycles]
  rfl

/-- The selection `resetdm` makes. -/
theorem Bench.run_selectIr_call (dmi : Dmi) (ir : ℕ) (s : Option ℕ × Bench T) :
    (Bench.apb dmi (.selectIr ir) s).2 =
      Prog.run Bench.call (dmi.selectIr ir s.1) { s.2 with maker := .resetdm } := by
  simp only [Bench.apb, Prog.through, Dmi.call, Prog.run_bind]
  rfl

/-- A scan under the instruction it is made for. -/
theorem Reaches.scanned {dmi : Dmi} (h : Reaches T dmi) {s : Bench T} {ir : ℕ}
    (hlog : ∀ e ∈ s.log, e.2 = some e.1.instruction) (hsel : T.selected s.device = some ir)
    (hm : s.maker.instruction = ir) (l : BitSequence) :
    Bench.Right (some ir, s.scanned l) where
  scans e he := by
    simp only [Bench.scanned, List.mem_append, List.mem_singleton] at he
    rcases he with he | rfl
    · exact hlog e he
    · rw [hsel, hm]
  current i hi := by
    obtain rfl : ir = i := Option.some.inj hi
    exact h.scanDr _ l ir hsel

/-- **A call keeps the instruction right.** -/
theorem Reaches.apb {dmi : Dmi} (h : Reaches T dmi) {adrs : List ℤ} {o : ApbCall} {t : Rest}
    {s : Option ℕ × Bench T} (hs : s.1 = t.currentir ∧ Bench.Right s) (ho : t.Allows adrs o) :
    (Bench.apb dmi o s).2.1 = (t.next o).currentir ∧ Bench.Right (Bench.apb dmi o s).2 := by
  obtain ⟨hc, hr⟩ := hs
  cases o with
  | writeapb adr data =>
    obtain ⟨s', hrun, hsel⟩ := h.run_selectIr (by decide : 0x11 < 2 ^ irLength)
      (s := { s.2 with maker := .writeapb }) hr.current
    rw [Bench.run_writeapb, hrun]
    refine ⟨rfl, h.scanned ?_ hsel.selected (by rw [hsel.maker]; rfl) _⟩
    rw [hsel.log]
    exact hr.scans
  | readapb adr =>
    obtain ⟨s', hrun, hsel⟩ := h.run_selectIr (by decide : 0x11 < 2 ^ irLength)
      (s := { s.2 with maker := .readapb }) hr.current
    rw [Bench.run_readapb, hrun]
    have h₁ := h.scanned (by rw [hsel.log]; exact hr.scans) hsel.selected (by rw [hsel.maker]; rfl)
      (readRequest dmi.width adr)
    exact ⟨rfl, h.scanned h₁.scans (h₁.current _ rfl) (congrArg Maker.instruction hsel.maker) _⟩
  | selectIr ir =>
    obtain rfl : ir = 0x10 := ho
    obtain ⟨s', hrun, hsel⟩ := h.run_selectIr (by decide : 0x10 < 2 ^ irLength)
      (s := { s.2 with maker := .resetdm }) hr.current
    rw [Bench.run_selectIr_call, hrun]
    refine ⟨rfl, fun e he => hr.scans e (hsel.log ▸ he), fun i hi => ?_⟩
    obtain rfl : 0x10 = i := Option.some.inj hi
    exact hsel.selected
  | writeDr data =>
    have h₁₀ : s.1 = some 0x10 := hc.trans ho.1
    have := h.scanned (s := { s.2 with maker := .resetdm }) hr.scans (hr.current _ h₁₀) rfl data
    rw [← h₁₀] at this
    exact ⟨hc, this⟩
  | goIdle => exact ⟨hc, hr.scans, hr.current⟩
  | writeTms out => exact ⟨hc, hr.scans, hr.current⟩

/-- A program of calls in order keeps the instruction right. -/
theorem Reaches.run {dmi : Dmi} (h : Reaches T dmi) {σ : Type} {adrs : List ℤ}
    {p : Prog Apb (Option ℕ × σ)} (hp : ∀ t, InOrder adrs p t fun _ _ => True)
    {s : Option ℕ × Bench T} (hs : Bench.Right s) : Bench.Right (Bench.run dmi p s).2.2 := by
  obtain ⟨t', hr, -⟩ := Prog.Follows.run (h := Bench.apb dmi)
    (R := fun t s => s.1 = t.currentir ∧ Bench.Right s) (fun o t s hs ho => h.apb hs ho)
    (hp ⟨s.1, false⟩) ⟨rfl, hs⟩
  exact hr.2

/-! ### A target that cannot be written -/

/-- A scan has not found its instruction. -/
def Bench.Missed (s : Bench T) : Prop := ∃ e ∈ s.log, e.2 ≠ some e.1.instruction

/-- The log only grows. -/
theorem Bench.Missed.apb {dmi : Dmi} {o : ApbCall} {s : Option ℕ × Bench T} (h : s.2.Missed) :
    (Bench.apb dmi o s).2.2.Missed := by
  refine Prog.run_inv (P := Bench.Missed) ?_ (dmi.call o s.1) (s := { s.2 with maker := o.maker }) h
  intro o s hs
  obtain ⟨e, he, hne⟩ := hs
  refine ⟨e, ?_, hne⟩
  simp only [Bench.call]
  split_ifs
  · exact List.mem_append_left _ he
  · exact he

theorem Bench.Missed.run {dmi : Dmi} {σ : Type} {p : Prog Apb (Option ℕ × σ)} {s : Option ℕ × Bench T}
    (h : s.2.Missed) : (Bench.run dmi p s).2.2.2.Missed := by
  refine Prog.run_inv (P := fun s : Option ℕ × Bench T => s.2.Missed) ?_ p h
  intro o s hs
  exact hs.apb

/-- A program that begins with a scan: a request, or a selection followed by a write. -/
inductive BeginsWithScan {α : Type} : Prog Apb α → Prop where
  | writeapb {adr data : ℤ} {k} : BeginsWithScan (.call (.writeapb adr data) k)
  | readapb {adr : ℤ} {k} : BeginsWithScan (.call (.readapb adr) k)
  | selectIr {ir : ℕ} {data : BitSequence} {k} :
    BeginsWithScan (.call (.selectIr ir) fun _ => .call (.writeDr data) k)

theorem BeginsWithScan.bind {α β : Type} {p : Prog Apb α} (h : BeginsWithScan p) (f : α → Prog Apb β) :
    BeginsWithScan (p >>= f) := by
  cases h with
  | writeapb => exact .writeapb
  | readapb => exact .readapb
  | selectIr => exact .selectIr

/-- The sequence for the hub clears the instruction register of a TAP of 5 bits. -/
theorem Tap.selected_scanVir (t : Target.Tap ε) (val : BitSequence) :
    Target.Tap.selected (scanVir (Tap.port D) t val) = some 0 := by
  rw [scanVir, Tap.selected, Tap.scanIr_eq]
  rfl

/-- With a `virtual` that is `False`, the first selection leaves 0 selected. -/
theorem run_selectIr_false {dmi : Dmi} (hv : dmi.virtual = some false) (ir : ℕ)
    (s : Bench (TargetKind.for D (some false))) :
    ∃ s', Prog.run Bench.call (dmi.selectIr ir none) s = (some ir, s') ∧ SelectedIn 0 s s' := by
  refine ⟨{ s with device := scanVir (Tap.port D) s.device (BitSequence.ofInt ir false dmi.irlen) },
    ?_, Tap.selected_scanVir D s.device _, rfl, rfl⟩
  rw [Dmi.selectIr, if_pos (by simp), Prog.run_bind, Dmi.writeIr, hv]
  rfl

theorem Bench.missed_scanned {s : Bench T} (h : T.selected s.device = some 0) (l : BitSequence) :
    (s.scanned l).Missed := by
  refine ⟨(s.maker, T.selected s.device), by simp [Bench.scanned], ?_⟩
  rw [h]
  cases s.maker <;> simp [Maker.instruction]

/-- **The first call misses.** -/
theorem BeginsWithScan.missed {dmi : Dmi} (hv : dmi.virtual = some false) {σ : Type}
    {p : Prog Apb (Option ℕ × σ)} (hp : BeginsWithScan p) (s : Bench (TargetKind.for D (some false))) :
    (Bench.run dmi p (none, s)).2.2.2.Missed := by
  cases hp with
  | @writeapb adr data k =>
    obtain ⟨s', hrun, hsel⟩ := run_selectIr_false D hv 0x11 { s with maker := .writeapb }
    refine Bench.Missed.run (p := k ()) (s := (Bench.apb dmi (.writeapb adr data) (none, s)).2) ?_
    rw [Bench.run_writeapb, hrun]
    exact Bench.missed_scanned hsel.selected _
  | @readapb adr k =>
    obtain ⟨s', hrun, hsel⟩ := run_selectIr_false D hv 0x11 { s with maker := .readapb }
    refine Bench.Missed.run (p := k _) (s := (Bench.apb dmi (.readapb adr) (none, s)).2) ?_
    rw [Bench.run_readapb, hrun]
    obtain ⟨e, he, hne⟩ := Bench.missed_scanned hsel.selected (readRequest dmi.width adr)
    exact ⟨e, List.mem_append_left _ he, hne⟩
  | @selectIr ir data k =>
    obtain ⟨s', hrun, hsel⟩ := run_selectIr_false D hv ir { s with maker := .resetdm }
    refine Bench.Missed.run (p := k ())
      (s := (Bench.apb dmi (.writeDr data) (Bench.apb dmi (.selectIr ir) (none, s)).2).2) ?_
    rw [Bench.run_selectIr_call, hrun]
    exact Bench.missed_scanned (s := { s' with maker := .resetdm }) hsel.selected data

/-! ### Sessions -/

/-- A target on which nothing has been done. -/
def Bench.start (d : T.State) : Option ℕ × Bench T := (none, ⟨d, .resetdm, []⟩)

/-- A call on a `PulpOCD` on the bench. -/
def PulpOCD.onBench (dmi : Dmi) (op : PulpOCD.Op) (s : PulpOCD × (Option ℕ × Bench T)) :
    Option ℕ × (PulpOCD × (Option ℕ × Bench T)) := Bench.run dmi (PulpOCD.exec s.1 op) s.2

/-- A call on a `ReveOCD` on the bench. -/
def ReveOCD.onBench (dmi : Dmi) (op : ReveOCD.Op) (s : ReveOCD × (Option ℕ × Bench T)) :
    Option ℕ × (ReveOCD × (Option ℕ × Bench T)) := Bench.run dmi (ReveOCD.exec s.1 op) s.2

theorem PulpOCD.beginsWithScan (self : PulpOCD) (op : PulpOCD.Op) : BeginsWithScan (exec self op) := by
  cases op with
  | resetdm => exact .selectIr
  | readapb adr => exact .readapb
  | setreg2 regnr val =>
    simp only [exec, setreg2]
    split_ifs <;> exact .writeapb
  | writebus adr val =>
    simp only [exec, writebus]
    split_ifs <;> exact .writeapb
  | _ => exact .writeapb

theorem ReveOCD.beginsWithScan (self : ReveOCD) (op : ReveOCD.Op) : BeginsWithScan (exec self op) := by
  have hc (regdst : ℕ) (val : ℤ) : BeginsWithScan (pushConst regdst val) := by
    rw [pushConst]
    split_ifs <;> exact .writeapb
  cases op with
  | resetdm => exact .selectIr
  | readapb adr => exact .readapb
  | setreg2 regnr val => exact (hc regnr val).bind _
  | readmem adr => exact ((hc 1 adr).bind _).bind _
  | writemem adr val => exact ((hc 1 val).bind _).bind _
  | _ => exact .writeapb

/-- The bench of a kind of target, for any calls whose programs are in order and begin
with a scan. -/
theorem right_iff {σ Op : Type} {exec : σ → Op → Prog Apb (Option ℕ × σ)} {adrs : Op → List ℤ}
    (horder : ∀ self op t, InOrder (adrs op) (exec self op) t fun _ _ => True)
    (hbegins : ∀ self op, BeginsWithScan (exec self op)) (dmi : Dmi) (hl : dmi.irlen = irLength)
    (d : (TargetKind.for D dmi.virtual).State) (self : σ) (ops : List Op) :
    Bench.Right (final (fun op s => Bench.run dmi (exec s.1 op) s.2) ops (self, Bench.start d)).2 ↔
      dmi.virtual ≠ some false ∨ ops = [] := by
  have hstart : Bench.Right (Bench.start d) := ⟨fun e he => (by cases he), fun i hi => (by cases hi)⟩
  constructor
  · intro hr
    by_contra hne
    rw [not_or, not_not] at hne
    obtain ⟨hv, hops⟩ := hne
    obtain ⟨op, ops, rfl⟩ := List.exists_cons_of_ne_nil hops
    obtain ⟨irlen, virtual, width, writeIdle, readIdle⟩ := dmi
    obtain rfl : virtual = some false := hv
    have hv : (Dmi.mk irlen (some false) width writeIdle readIdle).virtual = some false := rfl
    have hfirst := (hbegins self op).missed D hv ⟨d, .resetdm, []⟩
    obtain ⟨e, he, hne⟩ := final_inv (I := fun s : σ × (Option ℕ × Bench _) => s.2.2.Missed)
      (fun op s hs => Bench.Missed.run hs) ops hfirst
    exact hne (hr.scans e he)
  · rintro (hv | rfl)
    · exact final_inv (I := fun s : σ × (Option ℕ × Bench _) => Bench.Right s.2)
        (fun op s hs => (reaches_for D hv hl).run (horder s.1 op) hs) ops hstart
    · exact hstart

/-- **The selected instruction is the right one** throughout every session of either
driver exactly if the controller has no attribute `virtual` or one that is `True`, or
nothing is called. -/
theorem selected_iff (virtual : Option Bool) (d : (TargetKind.for D virtual).State) :
    (∀ ops, Bench.Right (final (PulpOCD.onBench (PulpOCD.dmi irLength virtual)) ops
        (PulpOCD.init, Bench.start d)).2 ↔ virtual ≠ some false ∨ ops = []) ∧
      ∀ ops, Bench.Right (final (ReveOCD.onBench (ReveOCD.dmi irLength virtual)) ops
        (ReveOCD.init, Bench.start d)).2 ↔ virtual ≠ some false ∨ ops = [] :=
  ⟨right_iff D PulpOCD.inOrder_exec PulpOCD.beginsWithScan (PulpOCD.dmi irLength virtual) rfl d _,
    right_iff D ReveOCD.inOrder_exec ReveOCD.beginsWithScan (ReveOCD.dmi irLength virtual) rfl d _⟩

/-- Data registers that hold nothing. -/
def noData : DataRegisters Unit where
  capture _ _ := ()
  shift _ _ _ := ()
  update _ _ := ()
  reset _ := ()
  out _ _ := false

/-- **On the simulator's controller** the first `halt` is sent under instruction 0. -/
theorem simController_misses :
    ¬ Bench.Right (final (PulpOCD.onBench (PulpOCD.dmi irLength (some false))) [.halt]
      (PulpOCD.init, Bench.start (T := TargetKind.for noData (some false))
        ⟨.ofNat irLength 0, .ofNat irLength 1, ()⟩)).2 := by
  intro h
  have := h.scans (.writeapb, some 0) (by decide)
  revert this
  decide

end PyOcdRiscv.Ocd
