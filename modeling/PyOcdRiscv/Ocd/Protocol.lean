import PyOcdRiscv.Ocd.Pulp
import PyOcdRiscv.Ocd.Reve

/-!
# How the DMI drivers call the layer below

What all the methods of `PulpOCD` and `ReveOCD` have in common, stated once for
everything that is proved about them: `resetdm` selects DTMCS before its own scans, TMS
cycles are idle ones and come after a move to Run-Test/Idle, and the requests of each
method go to a few registers (`Op.adrs`).
-/

namespace PyOcdRiscv.Ocd

open Lib Jtag

/-- What the calls so far have established. -/
structure Rest where
  /-- The instruction that was selected last. -/
  currentir : Option ℕ
  /-- The last move was to Run-Test/Idle. -/
  idle : Bool

namespace Rest

/-- What may be called: requests to the registers `adrs`, and the rest in order. -/
def Allows (adrs : List ℤ) (t : Rest) : ApbCall → Prop
  | .writeapb adr _ | .readapb adr => adr ∈ adrs
  | .selectIr ir => ir = 0x10
  | .writeDr data => t.currentir = some 0x10 ∧ data.length = 32
  | .goIdle => True
  | .writeTms out => t.idle = true ∧ ∃ k, out = List.replicate (k + 1) false

/-- What the calls establish. -/
def next (t : Rest) : ApbCall → Rest
  | .writeapb _ _ | .readapb _ => ⟨some 0x11, false⟩
  | .selectIr ir => ⟨some ir, false⟩
  | .writeDr _ => { t with idle := false }
  | .goIdle => { t with idle := true }
  | .writeTms _ => t

end Rest

/-- A program of calls that are in order, with requests to the registers `adrs`. -/
def InOrder {α : Type} (adrs : List ℤ) (p : Prog Apb α) (t : Rest) (Q : α → Rest → Prop) : Prop :=
  Prog.Follows (Rest.Allows adrs) Rest.next p t Q

namespace InOrder

variable {α β : Type} {adrs : List ℤ} {t : Rest}

@[simp] theorem pure_iff {a : α} {Q : α → Rest → Prop} : InOrder adrs (pure a) t Q ↔ Q a t := Iff.rfl

@[simp] theorem bind_iff {p : Prog Apb α} {f : α → Prog Apb β} {Q : β → Rest → Prop} :
    InOrder adrs (p >>= f) t Q ↔ InOrder adrs p t fun a t => InOrder adrs (f a) t Q :=
  Prog.follows_bind p f t Q

@[simp] theorem writeapb_iff {adr data : ℤ} {Q : Unit → Rest → Prop} :
    InOrder adrs (Apb.writeapb adr data) t Q ↔ adr ∈ adrs ∧ Q () ⟨some 0x11, false⟩ :=
  and_congr_right fun _ => ⟨fun h => h (), fun h _ => h⟩

@[simp] theorem readapb_iff {adr : ℤ} {Q : ℕ → Rest → Prop} :
    InOrder adrs (Apb.readapb adr) t Q ↔ adr ∈ adrs ∧ ∀ val, Q val ⟨some 0x11, false⟩ := Iff.rfl

@[simp] theorem selectIr_iff {ir : ℕ} {Q : Unit → Rest → Prop} :
    InOrder adrs (Apb.selectIr ir) t Q ↔ ir = 0x10 ∧ Q () ⟨some ir, false⟩ :=
  and_congr_right fun _ => ⟨fun h => h (), fun h _ => h⟩

@[simp] theorem writeDr_iff {data : BitSequence} {Q : Unit → Rest → Prop} :
    InOrder adrs (Apb.writeDr data) t Q ↔
      (t.currentir = some 0x10 ∧ data.length = 32) ∧ Q () { t with idle := false } :=
  and_congr_right fun _ => ⟨fun h => h (), fun h _ => h⟩

@[simp] theorem goIdle_iff {Q : Unit → Rest → Prop} :
    InOrder adrs Apb.goIdle t Q ↔ Q () { t with idle := true } :=
  ⟨fun h => h.2 (), fun h => ⟨trivial, fun _ => h⟩⟩

theorem idleCycles (ht : t.idle = true) (n : ℕ) {k : ℕ} (hk : 0 < k) {Q : Unit → Rest → Prop}
    (h : Q () t) : InOrder adrs (Apb.idleCycles n k) t Q := by
  induction n with
  | zero => exact h
  | succ n ih =>
    refine ⟨⟨ht, k - 1, ?_⟩, fun _ => ih⟩
    rw [BitSequence.ofInt_eq hk, bits_of_zero, Nat.sub_add_cancel hk]

end InOrder

/-! ### Pulp -/

namespace PulpOCD

/-- The registers a call makes requests to. -/
def Op.adrs : Op → List ℤ
  | .resetdm | .halt | .resume => [DMCONTROLREG]
  | .readreg _ | .writereg _ _ | .setpc _ => [ABSTRACTCMDREG, ABSTRACTDATAREG]
  | .setreg2 _ _ => [PROGBUFFERREG, PROGBUFFERREG + 1, PROGBUFFERREG + 2, ABSTRACTCMDREG]
  | .readbus _ | .writebus _ _ => [SYSTEMBUSCONTROLREG, SYSTEMBUSADR0, SYSTEMBUSDATA0]
  | .writeapb adr _ | .readapb adr => [adr]

/-- **The calls of `PulpOCD` are in order.** -/
theorem inOrder_exec (self : PulpOCD) (op : Op) (t : Rest) :
    InOrder op.adrs (exec self op) t fun _ _ => True := by
  cases op with
  | resetdm => simp [exec, resetdm, Op.adrs]
  | halt => simp [exec, halt, Op.adrs]
  | resume => simp [exec, resume, Op.adrs]
  | readreg regnr =>
    simp only [exec, readreg, InOrder.bind_iff, InOrder.writeapb_iff, InOrder.goIdle_iff]
    exact ⟨by simp [Op.adrs], InOrder.idleCycles rfl 9 (by decide) (by simp [Op.adrs])⟩
  | writereg regnr val => simp [exec, writereg, writeDebugReg, Op.adrs]
  | setreg2 regnr val =>
    simp only [exec, setreg2]
    split_ifs <;> simp [pushins, execins, Op.adrs, Int.add_assoc]
  | setpc val => simp [exec, setpc, writeDebugReg, Op.adrs]
  | readbus adr =>
    simp only [exec, readbus, InOrder.bind_iff, InOrder.writeapb_iff, InOrder.goIdle_iff]
    exact ⟨by simp [Op.adrs], by simp [Op.adrs],
      InOrder.idleCycles rfl 9 (by decide) (by simp [Op.adrs])⟩
  | writebus adr val =>
    simp only [exec, writebus]
    split_ifs <;> simp [Op.adrs]
  | writeapb adr data => simp [exec, Op.adrs]
  | readapb adr => simp [exec, Op.adrs]

end PulpOCD

/-! ### Reve -/

namespace ReveOCD

/-- The registers a call makes requests to. -/
def Op.adrs : Op → List ℤ
  | .resetdm => []
  | .halt | .resume => [DMCONTROLREG]
  | .readreg _ | .writereg _ _ => [ABSTRACTCMDREG, ABSTRACTDATAREG]
  | .setreg2 _ _ | .writemem _ _ => [PROGBUFFERREG, ABSTRACTCMDREG]
  | .setpc _ | .readmem _ => [PROGBUFFERREG, ABSTRACTCMDREG, ABSTRACTDATAREG]
  | .writeapb adr _ | .readapb adr => [adr]

theorem inOrder_pushConst {adrs : List ℤ} (h₁ : PROGBUFFERREG ∈ adrs) (h₂ : ABSTRACTCMDREG ∈ adrs)
    (regdst : ℕ) (val : ℤ) (t : Rest) {Q : Unit → Rest → Prop} (hQ : Q () ⟨some 0x11, false⟩) :
    InOrder adrs (pushConst regdst val) t Q := by
  rw [pushConst]
  split_ifs <;> simp [pushins, h₁, h₂, hQ]

/-- **The calls of `ReveOCD` are in order.** -/
theorem inOrder_exec (self : ReveOCD) (op : Op) (t : Rest) :
    InOrder op.adrs (exec self op) t fun _ _ => True := by
  cases op with
  | resetdm => simp [exec, resetdm]
  | halt => simp [exec, halt, Op.adrs]
  | resume => simp [exec, resume, Op.adrs]
  | readreg regnr => simp [exec, readreg, Op.adrs]
  | writereg regnr val => simp [exec, writereg, Op.adrs]
  | setreg2 regnr val =>
    simp only [exec, setreg2, InOrder.bind_iff]
    exact inOrder_pushConst (by simp [Op.adrs]) (by simp [Op.adrs]) _ _ _ trivial
  | setpc val => simp [exec, setpc, writereg, pushins, Op.adrs]
  | readmem adr =>
    simp only [exec, readmem, InOrder.bind_iff]
    refine inOrder_pushConst (by simp [Op.adrs]) (by simp [Op.adrs]) _ _ _ ?_
    simp [pushins, readreg, Op.adrs]
  | writemem adr val =>
    simp only [exec, writemem, InOrder.bind_iff]
    refine inOrder_pushConst (by simp [Op.adrs]) (by simp [Op.adrs]) _ _ _ ?_
    have hfull (t : Rest) : InOrder [PROGBUFFERREG, ABSTRACTCMDREG]
        (do pushConst 2 adr; pushins (swWord 0)) t fun _ _ => True := by
      rw [InOrder.bind_iff]
      exact inOrder_pushConst (by simp) (by simp) _ _ _ (by simp [pushins])
    cases self.lastwradr with
    | none => exact hfull _
    | some lastwradr =>
      dsimp only
      split_ifs
      · simp [pushins, Op.adrs]
      · exact hfull _
  | writeapb adr data => simp [exec, Op.adrs]
  | readapb adr => simp [exec, Op.adrs]

end ReveOCD

end PyOcdRiscv.Ocd
