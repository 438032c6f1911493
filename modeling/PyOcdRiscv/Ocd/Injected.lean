import PyOcdRiscv.Lib.Runs
import PyOcdRiscv.Ocd.Reve
import PyOcdRiscv.Target.Halted

/-!
# Registers and memory by injected instructions

Murax and Reve have no access to memory of their own: the drivers write and read it, and
Murax its registers too, by having the hart run ADDI, LUI, SW and LW. `does_murax`
and `does_reve` say what each call does to the hart, and `onHart_correct` that every
value returned over a run of either driver is that of plain registers and a plain store of words, in
registers 3 to 31 and in memory; x1 and x2 are used up on the way.
-/

namespace PyOcdRiscv.Ocd

open Lib Rv32 Target

/-! ### Constants -/

/-- The words by which the drivers load a constant. -/
def constWords (rd : ℕ) (val : ℤ) : List ℕ :=
  if inrange val 12 then [addiWord val 0 rd]
  else [luiWord (luiCarry val) rd, addiWord (luiCarry val) rd rd]

theorem land_fff (val : ℤ) : land val 0xfff = (val % 2 ^ 12).toNat := land_ones val 12

theorem luiCarry_eq (val : ℤ) : luiCarry val = if val / 2 ^ 11 % 2 = 1 then val + 2 ^ 12 else val := by
  have h : land val 0x800 = (val / 2 ^ 11 % 2 ^ 1).toNat <<< 11 := land_mask val 1 11
  rw [luiCarry, h, Nat.shiftLeft_eq]
  split_ifs <;> omega

theorem addiWord_eq (val : ℤ) (rs rd : ℕ) : addiWord val rs rd =
    (val % 2 ^ 12).toNat * 2 ^ 20 + rs * 2 ^ 15 + rd * 2 ^ 7 + 0x13 := by
  rw [addiWord, land_fff, Nat.shiftLeft_eq, Nat.shiftLeft_eq, Nat.shiftLeft_eq]

theorem luiWord_eq (val : ℤ) (rd : ℕ) : luiWord val rd =
    (val / 2 ^ 12 % 2 ^ 20).toNat * 2 ^ 12 + rd * 2 ^ 7 + 0x37 := by
  have h : land val 0xfffff000 = (val / 2 ^ 12 % 2 ^ 20).toNat <<< 12 := land_mask val 20 12
  rw [luiWord, h, Nat.shiftLeft_eq, Nat.shiftLeft_eq]

variable {rd : ℕ} (hrd : rd < 2 ^ 5)
include hrd

theorem inject_addi (val : ℤ) {rs : ℕ} (hrs : rs < 2 ^ 5) (s : Halted) :
    s.inject (BitVec.ofInt 32 (addiWord val rs rd : ℕ)) =
      let v := s.hart.reg rs + BitVec.ofInt 32 (signed (val % 2 ^ 12).toNat)
      ⟨s.hart.setReg rd v, v, s.trapped⟩ := by
  have himm : (val % 2 ^ 12).toNat < 2 ^ 12 := by omega
  have hlt : addiWord val rs rd < 2 ^ 32 := by rw [addiWord_eq]; omega
  rw [Halted.inject, BitVec.ofInt_natCast, BitVec.toNat_ofNat, Nat.mod_eq_of_lt hlt, addiWord_eq,
    run_addi himm hrs hrd]
  rfl

theorem inject_lui (val : ℤ) (s : Halted) :
    s.inject (BitVec.ofInt 32 (luiWord val rd : ℕ)) =
      let v := BitVec.ofNat 32 ((val / 2 ^ 12 % 2 ^ 20).toNat * 2 ^ 12)
      ⟨s.hart.setReg rd v, v, s.trapped⟩ := by
  have himm : (val / 2 ^ 12 % 2 ^ 20).toNat < 2 ^ 20 := by omega
  have hlt : luiWord val rd < 2 ^ 32 := by rw [luiWord_eq]; omega
  rw [Halted.inject, BitVec.ofInt_natCast, BitVec.toNat_ofNat, Nat.mod_eq_of_lt hlt, luiWord_eq,
    run_lui himm hrd]
  rfl

/-- **A constant is loaded**, whatever integer it is. -/
theorem inject_constWords (hne : rd ≠ 0) (val : ℤ) (s : Halted) :
    (constWords rd val).foldl (fun s w => s.inject (BitVec.ofInt 32 (w : ℕ))) s =
      ⟨s.hart.setReg rd (BitVec.ofInt 32 val), BitVec.ofInt 32 val, s.trapped⟩ := by
  rw [constWords]
  split_ifs with hin
  · have hval : -2 ^ 11 ≤ val ∧ val < 2 ^ 11 := of_decide_eq_true hin
    simp only [List.foldl_cons, List.foldl_nil]
    rw [inject_addi hrd val (by decide), signed_emod hval]
    simp
  · simp only [List.foldl_cons, List.foldl_nil]
    rw [inject_lui hrd, inject_addi hrd _ hrd]
    simp only [Hart.reg_setReg hne, Hart.setReg_setReg, lui_add_signed (luiCarry_eq val)]

omit hrd

/-! ### Memory -/

theorem aligned_ofInt {a : ℤ} (ha : a % 4 = 0) : (BitVec.ofInt 32 a).toNat % 4 = 0 := by
  rw [BitVec.toNat_ofInt]
  omega

/-- SW of x1 to the word at x2. -/
theorem inject_sw {s : Halted} (h : (s.hart.reg 2).toNat % 4 = 0) :
    s.inject (BitVec.ofInt 32 (swWord 0 : ℕ)) =
      ⟨s.hart.store (s.hart.reg 2) (s.hart.reg 1), s.writeBack, s.trapped⟩ := by
  have hrun : Rv32.run (BitVec.ofInt 32 (swWord 0 : ℕ)).toNat s.hart = exec (.sw 1 2 0) s.hart := rfl
  have ha : s.hart.reg 2 + BitVec.ofInt 32 0 = s.hart.reg 2 := BitVec.add_zero _
  rw [Halted.inject, hrun, exec, ha, if_pos h]
  rfl

/-- LW of x1 from the word at x1. -/
theorem inject_lw {s : Halted} (h : (s.hart.reg 1).toNat % 4 = 0) :
    s.inject (BitVec.ofInt 32 (lwWord : ℕ)) =
      ⟨s.hart.setReg 1 (s.hart.mem (s.hart.reg 1)), s.hart.mem (s.hart.reg 1), s.trapped⟩ := by
  have hrun : Rv32.run (BitVec.ofInt 32 (lwWord : ℕ)).toNat s.hart = exec (.lw 1 1 0) s.hart := rfl
  have ha : s.hart.reg 1 + BitVec.ofInt 32 0 = s.hart.reg 1 := BitVec.add_zero _
  rw [Halted.inject, hrun, exec, ha, if_pos h]
  rfl

/-! ### What the calls do -/

/-- The calls on registers and memory. -/
inductive HartOp where
  | writereg (r : ℕ) (v : ℤ) | readreg (r : ℕ) | writemem (a v : ℤ) | readmem (a : ℤ)
  deriving DecidableEq, Repr

namespace HartOp

/-- A register that can be written, and an address of a word. -/
def Ok : HartOp → Prop
  | .writereg r _ | .readreg r => 1 ≤ r ∧ r ≤ 31
  | .writemem a _ | .readmem a => a % 4 = 0

instance : DecidablePred Ok
  | .writereg r _ | .readreg r => inferInstanceAs (Decidable (1 ≤ r ∧ r ≤ 31))
  | .writemem a _ | .readmem a => inferInstanceAs (Decidable (a % 4 = 0))

/-- The call on a `MuraxOCD`. -/
def onMurax : HartOp → DebugOCD.Op
  | .writereg r v => .writereg r v
  | .readreg r => .readreg r
  | .writemem a v => .writemem a v
  | .readmem a => .readmem a

/-- The call on a `ReveOCD`. -/
def onReve : HartOp → ReveOCD.Op
  | .writereg r v => .writereg r v
  | .readreg r => .readreg r
  | .writemem a v => .writemem a v
  | .readmem a => .readmem a

/-- What a call does, exactly: `writemem` uses x1 and x2, and `readmem` x1. -/
def step : HartOp → Hart → Option ℕ × Hart
  | .writereg r v, h => (none, h.setReg r (BitVec.ofInt 32 v))
  | .readreg r, h => (some (h.reg r).toNat, h)
  | .writemem a v, h =>
    (none, ((h.setReg 1 (BitVec.ofInt 32 v)).setReg 2 (BitVec.ofInt 32 a)).store
      (BitVec.ofInt 32 a) (BitVec.ofInt 32 v))
  | .readmem a, h =>
    (some (h.mem (BitVec.ofInt 32 a)).toNat, h.setReg 1 (h.mem (BitVec.ofInt 32 a)))

end HartOp

/-- A call on a `MuraxOCD`, with the hart behind it. -/
def MuraxOCD.onHart (op : HartOp) (s : Halted) : Option ℕ × Halted :=
  Prog.run Halted.onDebugBus (DebugOCD.exec DebugOCD.init op.onMurax) s

/-- A call on a `ReveOCD`, with the debug module behind it. -/
def ReveOCD.onHart (op : HartOp) (s : ReveModule) : Option ℕ × ReveModule :=
  let r := Prog.run ReveModule.onApb (ReveOCD.exec ReveOCD.init op.onReve) s
  (r.1.1, r.2)

/-- The hart has done what the call does, without an exception, and the answer is right. -/
structure Does (op : HartOp) (s : Halted) (r : Option ℕ × Halted) : Prop where
  answer : r.1 = (op.step s.hart).1
  hart : r.2.hart = (op.step s.hart).2
  trapped : r.2.trapped = s.trapped

/-! ### Murax -/

section Murax

variable (s : Halted)

theorem murax_pushins (ins : ℕ) : Prog.run Halted.onDebugBus (DebugOCD.pushins ins) s =
    ((), s.inject (BitVec.ofInt 32 ins)) := rfl

theorem murax_readrsp : Prog.run Halted.onDebugBus (DebugBus.readrsp 4) s =
    (s.writeBack.toNat, s) := rfl

theorem murax_pushConst {rd : ℕ} (hrd : 1 ≤ rd ∧ rd ≤ 31) (val : ℤ) :
    Prog.run Halted.onDebugBus (DebugOCD.pushConst rd val) s =
      ((), ⟨s.hart.setReg rd (BitVec.ofInt 32 val), BitVec.ofInt 32 val, s.trapped⟩) := by
  rw [← inject_constWords (by omega) (by omega) val s, DebugOCD.pushConst, constWords]
  split_ifs
  · rfl
  · rfl

/-- **Murax**: each call does what it should. -/
theorem does_murax {op : HartOp} (hop : op.Ok) : Does op s (MuraxOCD.onHart op s) := by
  cases op with
  | writereg r v =>
    simp only [MuraxOCD.onHart, HartOp.onMurax, DebugOCD.exec, DebugOCD.writereg, Prog.run_bind,
      murax_pushConst s hop]
    exact ⟨rfl, rfl, rfl⟩
  | readreg r =>
    have hr : r < 2 ^ 5 := Nat.lt_of_le_of_lt hop.2 (by decide)
    have hins : r <<< 15 + 0x13 = addiWord 0 r 0 := by simp [addiWord]
    simp only [MuraxOCD.onHart, HartOp.onMurax, DebugOCD.exec, DebugOCD.readreg, Prog.run_bind,
      murax_pushins, murax_readrsp, hins, inject_addi (show 0 < 2 ^ 5 by decide) 0 hr]
    have hv : s.hart.reg r + BitVec.ofInt 32 (signed ((0 : ℤ) % 2 ^ 12).toNat) = s.hart.reg r :=
      BitVec.add_zero _
    exact ⟨congrArg (fun v : Word => some v.toNat) hv, rfl, rfl⟩
  | writemem a v =>
    have h₁ (h : Hart) : ((h.setReg 1 (BitVec.ofInt 32 v)).setReg 2 (BitVec.ofInt 32 a)).reg 2 =
        BitVec.ofInt 32 a := Hart.reg_setReg (by decide) _ _
    simp only [MuraxOCD.onHart, HartOp.onMurax, DebugOCD.exec, DebugOCD.writemem, DebugOCD.init,
      Prog.run_bind, murax_pushConst _ (show 1 ≤ 1 ∧ 1 ≤ 31 by decide),
      murax_pushConst _ (show 1 ≤ 2 ∧ 2 ≤ 31 by decide), murax_pushins]
    rw [inject_sw (by rw [h₁]; exact aligned_ofInt hop)]
    exact ⟨rfl, rfl, rfl⟩
  | readmem a =>
    have h₁ (h : Hart) : (h.setReg 1 (BitVec.ofInt 32 a)).reg 1 = BitVec.ofInt 32 a :=
      Hart.reg_setReg (by decide) _ _
    simp only [MuraxOCD.onHart, HartOp.onMurax, DebugOCD.exec, DebugOCD.readmem, Prog.run_bind,
      murax_pushConst _ (show 1 ≤ 1 ∧ 1 ≤ 31 by decide), murax_pushins, murax_readrsp]
    rw [inject_lw (by rw [h₁]; exact aligned_ofInt hop)]
    simp only [h₁, Hart.mem_setReg, Hart.setReg_setReg]
    exact ⟨rfl, rfl, rfl⟩

end Murax

/-! ### Reve -/

section Reve

variable (s : ReveModule)

theorem reve_pushins (ins : ℕ) : Prog.run ReveModule.onApb (ReveOCD.pushins ins) s =
    ((), { s with
      progbuf0 := BitVec.ofInt 32 ins
      halted := s.halted.inject (BitVec.ofInt 32 ins) }) := rfl

/-- After a constant only the hart matters: what is left in the program buffer is run by
no other call. -/
theorem reve_pushConst {rd : ℕ} (hrd : 1 ≤ rd ∧ rd ≤ 31) (val : ℤ) :
    ∃ w, Prog.run ReveModule.onApb (ReveOCD.pushConst rd val) s =
      ((), ⟨⟨s.halted.hart.setReg rd (BitVec.ofInt 32 val), BitVec.ofInt 32 val, s.halted.trapped⟩,
        w, s.data0⟩) := by
  rw [← inject_constWords (by omega) (by omega) val s.halted, ReveOCD.pushConst, constWords]
  split_ifs
  · exact ⟨_, rfl⟩
  · exact ⟨_, rfl⟩

/-- The command of a register transfer. -/
theorem reve_command {r : ℕ} (hr : r < 2 ^ 5) {write : ℕ} (hw : write < 2) :
    s.command (2 * 2 ^ 20 + 2 ^ 17 + write * 2 ^ 16 + 0x1000 + r) =
      if write = 1 then
        { s with halted := { s.halted with hart := s.halted.hart.setReg r s.data0 } }
      else { s with data0 := s.halted.hart.reg r } := by
  generalize hn : 2 * 2 ^ 20 + 2 ^ 17 + write * 2 ^ 16 + 0x1000 + r = n
  have hcmd : ¬ (n / 2 ^ 24 % 2 ^ 8 ≠ 0 ∨ n / 2 ^ 20 % 2 ^ 3 ≠ 2) := by omega
  have htransfer : n / 2 ^ 17 % 2 = 1 := by omega
  have hexec : ¬ n / 2 ^ 18 % 2 = 1 := by omega
  have hgpr : ¬ n % 2 ^ 16 / 2 ^ 5 ≠ 0x1000 / 2 ^ 5 := by omega
  have hregno : n % 2 ^ 5 = r := by omega
  have hwrite : n / 2 ^ 16 % 2 = write := by omega
  rw [ReveModule.command, if_neg hcmd, if_pos htransfer, if_neg hexec, ReveModule.transfer, if_neg hgpr,
    hregno, hwrite]

/-- The command that `readreg` writes, with `WORDSIZE` and `REGTRANSFERBIT`, -/
theorem readregWord_eq (r : ℕ) : (r : ℤ) + (0x1000 : ℤ) + (2 <<< 20 : ℕ) + (1 <<< 17 : ℕ) =
    (2 * 2 ^ 20 + 2 ^ 17 + 0 * 2 ^ 16 + 0x1000 + r : ℕ) := by
  rw [Nat.shiftLeft_eq, Nat.shiftLeft_eq]
  omega

/-- and that of `writereg`, with `REGWRITEBIT`. -/
theorem writeregWord_eq (r : ℕ) : (r : ℤ) + (0x1000 : ℤ) + (1 <<< 16 : ℕ) + (1 <<< 17 : ℕ) + (2 <<< 20 : ℕ) =
    (2 * 2 ^ 20 + 2 ^ 17 + 1 * 2 ^ 16 + 0x1000 + r : ℕ) := by
  rw [Nat.shiftLeft_eq, Nat.shiftLeft_eq, Nat.shiftLeft_eq]
  omega

theorem toNat_ofInt {z : ℤ} {n : ℕ} (hz : z = n) (hn : n < 2 ^ 32) : (BitVec.ofInt 32 z).toNat = n := by
  rw [hz, BitVec.ofInt_natCast, BitVec.toNat_ofNat, Nat.mod_eq_of_lt hn]

@[simp] theorem reve_goIdle : Prog.run ReveModule.onApb Apb.goIdle s = ((), s) := rfl

/-- `readreg`, whatever the command is. -/
theorem reve_read (command : ℤ) :
    Prog.run ReveModule.onApb (do
      Apb.writeapb ReveOCD.ABSTRACTCMDREG command
      Apb.goIdle
      Apb.readapb ReveOCD.ABSTRACTDATAREG) s =
    ((s.command (BitVec.ofInt 32 command).toNat).data0.toNat,
      s.command (BitVec.ofInt 32 command).toNat) := rfl

/-- `writereg`, whatever the command is. -/
theorem reve_write (v command : ℤ) :
    Prog.run ReveModule.onApb (do
      Apb.writeapb ReveOCD.ABSTRACTDATAREG v
      Apb.goIdle
      Apb.writeapb ReveOCD.ABSTRACTCMDREG command) s =
    ((), ReveModule.command (BitVec.ofInt 32 command).toNat { s with data0 := BitVec.ofInt 32 v }) := rfl

theorem reve_readreg {r : ℕ} (hr : r < 2 ^ 5) : Prog.run ReveModule.onApb (ReveOCD.readreg r) s =
    ((s.halted.hart.reg r).toNat, { s with data0 := s.halted.hart.reg r }) := by
  have hw := reve_command s hr (show 0 < 2 by decide)
  rw [if_neg (by decide)] at hw
  rw [ReveOCD.readreg, reve_read, ReveOCD.WORDSIZE, ReveOCD.REGTRANSFERBIT,
    toNat_ofInt (readregWord_eq r) (by omega), hw]

theorem reve_writereg {r : ℕ} (hr : r < 2 ^ 5) (v : ℤ) :
    Prog.run ReveModule.onApb (ReveOCD.writereg r v) s =
      ((), ⟨{ s.halted with hart := s.halted.hart.setReg r (BitVec.ofInt 32 v) }, s.progbuf0,
        BitVec.ofInt 32 v⟩) := by
  have hw := reve_command { s with data0 := BitVec.ofInt 32 v } hr (show 1 < 2 by decide)
  rw [if_pos rfl] at hw
  rw [ReveOCD.writereg, reve_write, ReveOCD.WORDSIZE, ReveOCD.REGTRANSFERBIT, ReveOCD.REGWRITEBIT,
    toNat_ofInt (writeregWord_eq r) (by omega), hw]

/-- **Reve**: each call does what it should. -/
theorem does_reve {op : HartOp} (hop : op.Ok) :
    Does op s.halted ((ReveOCD.onHart op s).1, (ReveOCD.onHart op s).2.halted) := by
  cases op with
  | writereg r v =>
    have hr : r < 2 ^ 5 := Nat.lt_of_le_of_lt hop.2 (by decide)
    simp only [ReveOCD.onHart, HartOp.onReve, ReveOCD.exec, Prog.run_bind, reve_writereg s hr]
    exact ⟨rfl, rfl, rfl⟩
  | readreg r =>
    have hr : r < 2 ^ 5 := Nat.lt_of_le_of_lt hop.2 (by decide)
    simp only [ReveOCD.onHart, HartOp.onReve, ReveOCD.exec, Prog.run_bind, reve_readreg s hr]
    exact ⟨rfl, rfl, rfl⟩
  | writemem a v =>
    have h₂ (h : Hart) : ((h.setReg 1 (BitVec.ofInt 32 v)).setReg 2 (BitVec.ofInt 32 a)).reg 2 =
        BitVec.ofInt 32 a := Hart.reg_setReg (by decide) _ _
    obtain ⟨w, hv⟩ := reve_pushConst s (show 1 ≤ 1 ∧ 1 ≤ 31 by decide) v
    simp only [ReveOCD.onHart, HartOp.onReve, ReveOCD.exec, ReveOCD.writemem, ReveOCD.init, Prog.run_bind,
      hv]
    obtain ⟨w', ha⟩ := reve_pushConst ⟨⟨s.halted.hart.setReg 1 (BitVec.ofInt 32 v), BitVec.ofInt 32 v,
      s.halted.trapped⟩, w, s.data0⟩ (show 1 ≤ 2 ∧ 2 ≤ 31 by decide) a
    simp only [ha, reve_pushins]
    rw [inject_sw (by rw [h₂]; exact aligned_ofInt hop)]
    exact ⟨rfl, rfl, rfl⟩
  | readmem a =>
    have h₁ (h : Hart) : (h.setReg 1 (BitVec.ofInt 32 a)).reg 1 = BitVec.ofInt 32 a :=
      Hart.reg_setReg (by decide) _ _
    obtain ⟨w, ha⟩ := reve_pushConst s (show 1 ≤ 1 ∧ 1 ≤ 31 by decide) a
    simp only [ReveOCD.onHart, HartOp.onReve, ReveOCD.exec, ReveOCD.readmem, Prog.run_bind, ha,
      reve_pushins, reve_goIdle]
    rw [inject_lw (by rw [h₁]; exact aligned_ofInt hop)]
    simp only [h₁, Hart.mem_setReg, Hart.setReg_setReg]
    have hread := fun s => reve_readreg s (show 1 < 2 ^ 5 by decide)
    simp only [Nat.cast_one] at hread
    simp only [hread, Hart.reg_setReg one_ne_zero]
    exact ⟨rfl, rfl, rfl⟩

end Reve

/-! ### Plain registers and a plain store -/

/-- What a client may rely on: the register or the word that is written, and that the
others stay. Accesses to memory use x1, and `writemem` x2. -/
def Effect (op : HartOp) (s : Halted) (r : Option ℕ × Halted) : Prop :=
  r.2.trapped = s.trapped ∧ match op with
  | .writereg x v =>
    r.2.hart.reg x = BitVec.ofInt 32 v ∧ (∀ y ≠ x, r.2.hart.reg y = s.hart.reg y) ∧
      r.2.hart.mem = s.hart.mem
  | .readreg x =>
    r.1 = some (s.hart.reg x).toNat ∧ (∀ y, r.2.hart.reg y = s.hart.reg y) ∧ r.2.hart.mem = s.hart.mem
  | .writemem a v =>
    r.2.hart.mem = Function.update s.hart.mem (BitVec.ofInt 32 a) (BitVec.ofInt 32 v) ∧
      ∀ y, y ≠ 1 → y ≠ 2 → r.2.hart.reg y = s.hart.reg y
  | .readmem a =>
    r.1 = some (s.hart.mem (BitVec.ofInt 32 a)).toNat ∧ r.2.hart.mem = s.hart.mem ∧
      ∀ y ≠ 1, r.2.hart.reg y = s.hart.reg y

/-- **What a client may rely on holds.** -/
theorem Does.effect {op : HartOp} (hop : op.Ok) {s : Halted} {r : Option ℕ × Halted} (h : Does op s r) :
    Effect op s r := by
  obtain ⟨ha, hh, ht⟩ := h
  refine ⟨ht, ?_⟩
  cases op with
  | writereg x v =>
    have hx : x ≠ 0 := Nat.one_le_iff_ne_zero.mp hop.1
    dsimp only
    rw [hh]
    exact ⟨Hart.reg_setReg hx _ _, fun y hy => Hart.reg_setReg_of_ne hy _ _, Hart.mem_setReg ..⟩
  | readreg x => exact ⟨ha, fun y => by rw [hh]; rfl, by rw [hh]; rfl⟩
  | writemem a v =>
    refine ⟨by rw [hh]; simp [HartOp.step, Hart.store], fun y h₁ h₂ => ?_⟩
    rw [hh]
    exact (Hart.reg_setReg_of_ne h₂ _ _).trans (Hart.reg_setReg_of_ne h₁ _ _)
  | readmem a =>
    refine ⟨ha, by rw [hh]; exact Hart.mem_setReg .., fun y hy => ?_⟩
    rw [hh]
    exact Hart.reg_setReg_of_ne hy _ _

/-- **Plain registers and a plain store**: no call changes anything but what it writes. -/
def HartOp.plainStep : HartOp → Hart → Option ℕ × Hart
  | .writereg r v, h => (none, h.setReg r (BitVec.ofInt 32 v))
  | .readreg r, h => (some (h.reg r).toNat, h)
  | .writemem a v, h => (none, h.store (BitVec.ofInt 32 a) (BitVec.ofInt 32 v))
  | .readmem a, h => (some (h.mem (BitVec.ofInt 32 a)).toNat, h)

/-- What is compared of a call: the value it returns, but for a read of x1 or x2. -/
def returned {σ : Type} (op : HartOp) (r : Option ℕ × σ) : Option ℕ :=
  match op with
  | .readreg 1 | .readreg 2 => none
  | _ => r.1

/-- The same memory, and the same registers but for x1 and x2. -/
structure Agrees (h p : Hart) : Prop where
  mem : h.mem = p.mem
  regs : ∀ r, 3 ≤ r → h.reg r = p.reg r

theorem Agrees.store {h p : Hart} (hp : Agrees h p) (a v : Word) : Agrees (h.store a v) (p.store a v) :=
  ⟨congrArg (fun m : Word → Word => Function.update m a v) hp.mem, hp.regs⟩

theorem Agrees.setReg {h p : Hart} (hp : Agrees h p) {r : ℕ} (hr : r ≠ 0) (v : Word) :
    Agrees (h.setReg r v) (p.setReg r v) where
  mem := by rw [Hart.mem_setReg, Hart.mem_setReg, hp.mem]
  regs r' hr' := by
    by_cases hne : r' = r
    · rw [hne, Hart.reg_setReg hr, Hart.reg_setReg hr]
    · rw [Hart.reg_setReg_of_ne hne, Hart.reg_setReg_of_ne hne, hp.regs r' hr']

/-- A write of x1 or x2 does not matter. -/
theorem Agrees.scratch {h p : Hart} (hp : Agrees h p) {r : ℕ} (hr : r < 3) (v : Word) :
    Agrees (h.setReg r v) p where
  mem := (Hart.mem_setReg ..).trans hp.mem
  regs r' hr' := (Hart.reg_setReg_of_ne (by omega) _ _).trans (hp.regs r' hr')

theorem Agrees.step {h p : Hart} (hp : Agrees h p) {op : HartOp} (hop : op.Ok) :
    returned op (op.step h) = returned op (op.plainStep p) ∧ Agrees (op.step h).2 (op.plainStep p).2 := by
  cases op with
  | writereg r v => exact ⟨rfl, hp.setReg (Nat.one_le_iff_ne_zero.mp hop.1) _⟩
  | readreg r =>
    refine ⟨?_, hp⟩
    match r, hop with
    | 1, _ => rfl
    | 2, _ => rfl
    | r + 3, _ => exact congrArg (fun v : Word => some v.toNat) (hp.regs (r + 3) (by omega))
  | writemem a v => exact ⟨rfl, ((hp.scratch (by decide) _).scratch (by decide) _).store _ _⟩
  | readmem a =>
    exact ⟨congrArg (fun m : Word → Word => some (m (BitVec.ofInt 32 a)).toNat) hp.mem,
      hp.scratch (show 1 < 3 by decide) _⟩

/-- Any device that does what the calls should refines plain registers and a plain store. -/
theorem trace_eq_plain {σ : Type} {step : HartOp → σ → Option ℕ × σ} (halted : σ → Halted)
    (hstep : ∀ op s, op.Ok → Does op (halted s) ((step op s).1, halted (step op s).2))
    {ops : List HartOp} (hops : ∀ op ∈ ops, op.Ok) {s : σ} {p : Hart} (hp : Agrees (halted s).hart p) :
    trace step returned ops s = trace HartOp.plainStep returned ops p := by
  refine (along_of_forall_mem hops).trace_eq (R := fun _ s p => Agrees (halted s).hart p) ?_ hp
  intro _ op s p hp hop
  obtain ⟨ha, hh, -⟩ := hstep op s hop
  obtain ⟨hr, hn⟩ := hp.step hop
  refine ⟨?_, by rw [hh]; exact hn⟩
  have hret : returned op (step op s) = returned op (op.step (halted s).hart) := by
    unfold returned
    split
    · rfl
    · rfl
    · exact ha
  rw [hret, hr]

/-- **The drivers of Murax and Reve do what they are called for.** Each call has its effect
and no other; and over any run every value returned, of memory and of registers 3 to 31, is
that of plain registers and a plain store. -/
theorem onHart_correct (ops : List HartOp) (hops : ∀ op ∈ ops, op.Ok) :
    (∀ op ∈ ops, (∀ s, Effect op s (MuraxOCD.onHart op s)) ∧
      ∀ s, Effect op s.halted ((ReveOCD.onHart op s).1, (ReveOCD.onHart op s).2.halted)) ∧
    ∀ p, (∀ s : Halted, Agrees s.hart p →
        trace MuraxOCD.onHart returned ops s = trace HartOp.plainStep returned ops p) ∧
      ∀ s : ReveModule, Agrees s.halted.hart p →
        trace ReveOCD.onHart returned ops s = trace HartOp.plainStep returned ops p := by
  refine ⟨fun op hop => ⟨fun s => ?_, fun s => ?_⟩, fun p => ⟨fun s hs => ?_, fun s hs => ?_⟩⟩
  · exact (does_murax s (hops op hop)).effect (hops op hop)
  · exact (does_reve s (hops op hop)).effect (hops op hop)
  · exact trace_eq_plain (fun s => s) (fun op s h => does_murax s h) hops hs
  · exact trace_eq_plain ReveModule.halted (fun op s h => does_reve s h) hops hs

/-- A negative word, and an address and a register value whose bit 11 is set. -/
theorem onHart_correct_run :
    trace ReveOCD.onHart returned
        [.writemem 0x80000800 (-5), .readmem 0x80000800, .writereg 5 0x12345fff, .readreg 5]
        ⟨⟨⟨fun _ => 0, fun _ => 0⟩, 0, false⟩, 0, 0⟩ =
      [none, some 0xfffffffb, none, some 0x12345fff] :=
  (((onHart_correct [.writemem 0x80000800 (-5), .readmem 0x80000800, .writereg 5 0x12345fff, .readreg 5]
    (by decide)).2 ⟨fun _ => 0, fun _ => 0⟩).2 _ ⟨rfl, fun _ _ => rfl⟩).trans (by decide)

end PyOcdRiscv.Ocd
