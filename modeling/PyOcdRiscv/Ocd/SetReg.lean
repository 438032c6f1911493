import PyOcdRiscv.Ocd.Injected
import PyOcdRiscv.Ocd.Pulp
import PyOcdRiscv.Target.ProgramBuffer

/-!
# Two ways to write a register

`writereg` puts a value into data0 and has an abstract command transfer it. `setreg2`
builds it by ADDI, or by LUI and ADDI, in the program buffer. They do the same to the
hart, on Pulp and on Reve (`setreg2_eq_writereg`), whatever the value is and whatever
other calls left behind: on Pulp the program of a call ends at the `ebreak` that the call
itself puts after it, and on Reve no word is run that was not just written.
-/

namespace PyOcdRiscv.Ocd

open Lib Rv32 Target

/-- **A register is written**: the hart has no other register changed, and not its memory,
no exception was raised, and `readreg` reads the value back. -/
structure Writes {σ : Type} (onApb : (o : ApbCall) → σ → Apb.Res o × σ) (halted : σ → Halted)
    (readreg : Prog Apb ℕ) (call : Prog Apb Unit) (r : ℕ) (v : ℤ) (s : σ) : Prop where
  effect : Effect (.writereg r v) (halted s) (none, halted (Prog.run onApb call s).2)
  readback : (Prog.run onApb readreg (Prog.run onApb call s).2).1 = (v % 2 ^ 32).toNat

/-! ### The program that loads a constant -/

theorem ne_ebreak {n : ℕ} (hlt : n < 2 ^ 32) (hop : n % 2 ^ 7 ≠ 0x73) : BitVec.ofInt 32 (n : ℕ) ≠ ebreak := by
  intro he
  have hn := congrArg BitVec.toNat he
  rw [BitVec.ofInt_natCast, BitVec.toNat_ofNat, Nat.mod_eq_of_lt hlt] at hn
  exact hop (by rw [hn]; decide)

section

variable {rd : ℕ} (hrd : rd < 2 ^ 5)
include hrd

theorem runs_addi (val : ℤ) {rs : ℕ} (hrs : rs < 2 ^ 5) (s : Halted) :
    Runs [BitVec.ofInt 32 (addiWord val rs rd : ℕ)] s := by
  have himm : (val % 2 ^ 12).toNat < 2 ^ 12 := by omega
  have hlt : addiWord val rs rd < 2 ^ 32 := by rw [addiWord_eq]; omega
  refine ⟨ne_ebreak hlt (by rw [addiWord_eq]; omega), ?_, trivial⟩
  rw [BitVec.ofInt_natCast, BitVec.toNat_ofNat, Nat.mod_eq_of_lt hlt, addiWord_eq, run_addi himm hrs hrd]
  rfl

theorem runs_constWords (val : ℤ) (s : Halted) :
    Runs ((constWords rd val).map fun w : ℕ => BitVec.ofInt 32 w) s := by
  rw [constWords]
  split_ifs
  · exact runs_addi hrd val (by decide) s
  · have himm : (luiCarry val / 2 ^ 12 % 2 ^ 20).toNat < 2 ^ 20 := by omega
    have hlt : luiWord (luiCarry val) rd < 2 ^ 32 := by rw [luiWord_eq]; omega
    refine ⟨ne_ebreak hlt (by rw [luiWord_eq]; omega), ?_, runs_addi hrd _ hrd _⟩
    dsimp only
    rw [BitVec.ofInt_natCast, BitVec.toNat_ofNat, Nat.mod_eq_of_lt hlt, luiWord_eq, run_lui himm hrd]
    rfl

/-- A constant loaded by the program buffer, whatever comes after the program. -/
theorem runWords_constWords (hne : rd ≠ 0) (val : ℤ) (rest : List Word) (s : Halted) :
    runWords ((constWords rd val).map (fun w : ℕ => BitVec.ofInt 32 w) ++ ebreak :: rest) s =
      ⟨s.hart.setReg rd (BitVec.ofInt 32 val), BitVec.ofInt 32 val, s.trapped⟩ := by
  rw [runWords_append _ _ _ (runs_constWords hrd val s), List.foldl_map, inject_constWords hrd hne]

end

/-! ### Pulp -/

section Pulp

variable (s : PulpModule)

/-- A word written to the program buffer. -/
theorem pulp_pushins (ins : ℕ) {pos : ℤ} {k : ℕ} (hpos : pos = k) (hk : k < PulpModule.ProgBufSize) :
    Prog.run PulpModule.onApb (PulpOCD.pushins ins pos false) s =
      ((), { s with progbuf := Function.update s.progbuf k (BitVec.ofInt 32 ins) }) := by
  unfold PulpModule.ProgBufSize at hk
  have hadr : land (PulpOCD.PROGBUFFERREG + pos) 0x7f = 0x20 + k := by
    have hmod : land (PulpOCD.PROGBUFFERREG + pos) 0x7f = ((PulpOCD.PROGBUFFERREG + pos) % 2 ^ 7).toNat :=
      land_ones _ 7
    rw [hmod, PulpOCD.PROGBUFFERREG, hpos]
    omega
  have hwrite : s.write (0x20 + k) (BitVec.ofInt 32 ins) =
      { s with progbuf := Function.update s.progbuf k (BitVec.ofInt 32 ins) } := by
    have hin : 0x20 ≤ 0x20 + k ∧ 0x20 + k < 0x20 + PulpModule.ProgBufSize := by
      unfold PulpModule.ProgBufSize
      omega
    rw [PulpModule.write, if_neg (by omega), if_neg (by omega), if_pos hin, Nat.add_sub_cancel_left]
  rw [← hwrite, ← hadr]
  rfl

/-- The last word of a program is followed by its `ebreak`. -/
theorem pulp_pushins_last (ins : ℕ) {pos : ℤ} {k : ℕ} (hpos : pos = k)
    (hk : k + 1 < PulpModule.ProgBufSize) : Prog.run PulpModule.onApb (PulpOCD.pushins ins pos true) s =
      ((), { s with progbuf :=
        Function.update (Function.update s.progbuf k (BitVec.ofInt 32 ins)) (k + 1) ebreak }) := by
  have hword : (BitVec.ofInt 32 (0x00100073 : ℕ)) = ebreak := rfl
  have hpos' : pos + 1 = (k + 1 : ℕ) := by omega
  have hsplit : Prog.run PulpModule.onApb (PulpOCD.pushins ins pos true) s =
      Prog.run PulpModule.onApb (PulpOCD.pushins 0x00100073 (pos + 1) false)
        (Prog.run PulpModule.onApb (PulpOCD.pushins ins pos false) s).2 := by
    simp only [PulpOCD.pushins, ← add_assoc]
    rfl
  rw [hsplit, pulp_pushins s ins hpos (by omega), pulp_pushins _ _ hpos' hk, hword]

theorem pulp_execins : Prog.run PulpModule.onApb PulpOCD.execins s = ((), s.exec) := rfl

/-- **Pulp's `setreg2`**: words 0 and 1, or 0 to 2, are the program, and the words after it,
left by a longer one, are not run. -/
theorem pulp_setreg2 {rd : ℕ} (hrd : 1 ≤ rd ∧ rd ≤ 31) (val : ℤ) :
    ∃ p, Prog.run PulpModule.onApb (PulpOCD.setreg2 rd val) s =
      ((), ⟨⟨s.halted.hart.setReg rd (BitVec.ofInt 32 val), BitVec.ofInt 32 val, s.halted.trapped⟩,
        p, s.data0⟩) := by
  have hrun (rest : List Word) := runWords_constWords (show rd < 2 ^ 5 by omega) (by omega) val rest s.halted
  have h₀ : (0 : ℤ) = (0 : ℕ) := rfl
  have h₁ : (1 : ℤ) = (1 : ℕ) := rfl
  rw [constWords] at hrun
  by_cases hin : inrange val 12 = true
  · simp only [if_pos hin] at hrun
    refine ⟨Function.update (Function.update s.progbuf 0 (BitVec.ofInt 32 (addiWord val 0 rd : ℕ)))
      1 ebreak, ?_⟩
    rw [PulpOCD.setreg2, if_pos hin, Prog.run_bind, pulp_pushins_last s _ h₀ (by decide), pulp_execins,
      ← hrun ((List.range 6).map fun k => s.progbuf (k + 2))]
    rfl
  · simp only [if_neg hin] at hrun
    refine ⟨Function.update (Function.update (Function.update s.progbuf
      0 (BitVec.ofInt 32 (luiWord (luiCarry val) rd : ℕ)))
      1 (BitVec.ofInt 32 (addiWord (luiCarry val) rd rd : ℕ))) 2 ebreak, ?_⟩
    rw [PulpOCD.setreg2, if_neg hin]
    simp only [Prog.run_bind]
    rw [pulp_pushins s _ h₀ (by decide), pulp_pushins_last _ _ h₁ (by decide), pulp_execins,
      ← hrun ((List.range 5).map fun k => s.progbuf (k + 3))]
    rfl

/-- The command of a register transfer. -/
theorem pulp_command {r : ℕ} (hr : r < 2 ^ 5) {write : ℕ} (hw : write < 2) :
    s.command (2 * 2 ^ 20 + 2 ^ 17 + write * 2 ^ 16 + 0x1000 + r) =
      if write = 1 then
        { s with halted := { s.halted with hart := s.halted.hart.setReg r s.data0 } }
      else { s with data0 := s.halted.hart.reg r } := by
  generalize hn : 2 * 2 ^ 20 + 2 ^ 17 + write * 2 ^ 16 + 0x1000 + r = n
  have htype : ¬ n / 2 ^ 24 % 2 ^ 8 ≠ 0 := by omega
  have hsize : n / 2 ^ 20 % 2 ^ 3 = 2 := by omega
  have htransfer : n / 2 ^ 17 % 2 = 1 := by omega
  have hreserved : ¬ (PulpModule.MaxAar ≤ 2 ∨ n / 2 ^ 14 % 2 ^ 2 ≠ 0) := by
    unfold PulpModule.MaxAar
    omega
  have hexec : ¬ n / 2 ^ 18 % 2 = 1 := by omega
  have hgpr : n / 2 ^ 12 % 2 = 1 ∧ n / 2 ^ 5 % 2 = 0 := by omega
  have hregno : n % 2 ^ 5 = r := by omega
  have hwrite : n / 2 ^ 16 % 2 = write := by omega
  rw [PulpModule.command, if_neg htype, if_pos htransfer, hsize, if_neg hreserved, if_neg hexec,
    PulpModule.transfer, hsize, if_pos hgpr, hregno, hwrite, PulpModule.loaded_word, PulpModule.stored_word]

/-- `readreg`, whatever the command is. -/
theorem pulp_read (command : ℤ) :
    Prog.run PulpModule.onApb (do
      Apb.writeapb PulpOCD.ABSTRACTCMDREG command
      Apb.goIdle
      Apb.idleCycles 9 7
      Apb.readapb PulpOCD.ABSTRACTDATAREG) s =
    ((s.command (BitVec.ofInt 32 command).toNat).data0.toNat,
      s.command (BitVec.ofInt 32 command).toNat) := rfl

/-- `writereg`, whatever the command is. -/
theorem pulp_write (v command : ℤ) :
    Prog.run PulpModule.onApb (do
      Apb.writeapb PulpOCD.ABSTRACTDATAREG v
      Apb.goIdle
      Apb.writeapb PulpOCD.ABSTRACTCMDREG command) s =
    ((), PulpModule.command (BitVec.ofInt 32 command).toNat { s with data0 := BitVec.ofInt 32 v }) := rfl

theorem pulp_readreg {r : ℕ} (hr : r < 2 ^ 5) : Prog.run PulpModule.onApb (PulpOCD.readreg r) s =
    ((s.halted.hart.reg r).toNat, { s with data0 := s.halted.hart.reg r }) := by
  have hw := pulp_command s hr (show 0 < 2 by decide)
  rw [if_neg (by decide)] at hw
  rw [PulpOCD.readreg, pulp_read, PulpOCD.WORDSIZE, PulpOCD.REGTRANSFERBIT,
    toNat_ofInt (readregWord_eq r) (by omega), hw]

theorem pulp_writereg {r : ℕ} (hr : r < 2 ^ 5) (v : ℤ) :
    Prog.run PulpModule.onApb (PulpOCD.writereg r v) s =
      ((), ⟨{ s.halted with hart := s.halted.hart.setReg r (BitVec.ofInt 32 v) }, s.progbuf,
        BitVec.ofInt 32 v⟩) := by
  have hw := pulp_command { s with data0 := BitVec.ofInt 32 v } hr (show 1 < 2 by decide)
  rw [if_pos rfl] at hw
  rw [PulpOCD.writereg, PulpOCD.writeDebugReg, pulp_write, PulpOCD.WORDSIZE, PulpOCD.REGTRANSFERBIT,
    PulpOCD.REGWRITEBIT, toNat_ofInt (writeregWord_eq r) (by omega), hw]

end Pulp

/-! ### Both ways -/

/-- A call that leaves the hart with the register written has written it, if `readreg`
returns what is in the register. -/
theorem Writes.of {σ : Type} {onApb : (o : ApbCall) → σ → Apb.Res o × σ} {halted : σ → Halted}
    {readreg : Prog Apb ℕ} {call : Prog Apb Unit} {r : ℕ} {v : ℤ} {s : σ} (hr : 1 ≤ r)
    (hread : ∀ s, (Prog.run onApb readreg s).1 = ((halted s).hart.reg r).toNat)
    (hart : (halted (Prog.run onApb call s).2).hart = (halted s).hart.setReg r (BitVec.ofInt 32 v))
    (trapped : (halted (Prog.run onApb call s).2).trapped = (halted s).trapped) :
    Writes onApb halted readreg call r v s := by
  have hne : r ≠ 0 := Nat.one_le_iff_ne_zero.mp hr
  constructor
  · refine ⟨trapped, ?_⟩
    dsimp only
    rw [hart]
    exact ⟨Hart.reg_setReg hne _ _, fun y hy => Hart.reg_setReg_of_ne hy _ _, Hart.mem_setReg ..⟩
  · rw [hread, hart, Hart.reg_setReg hne, BitVec.toNat_ofInt]
    rfl

/-- **`setreg2` and `writereg` write the register**, and leave the hart the same, on either
device, for any integer and from any state. -/
theorem setreg2_eq_writereg {r : ℕ} (hr : 1 ≤ r ∧ r ≤ 31) (v : ℤ) :
    (∀ s : PulpModule,
      Writes PulpModule.onApb PulpModule.halted (PulpOCD.readreg r) (PulpOCD.setreg2 r v) r v s ∧
      Writes PulpModule.onApb PulpModule.halted (PulpOCD.readreg r) (PulpOCD.writereg r v) r v s ∧
      (Prog.run PulpModule.onApb (PulpOCD.setreg2 r v) s).2.halted.hart =
        (Prog.run PulpModule.onApb (PulpOCD.writereg r v) s).2.halted.hart) ∧
    ∀ s : ReveModule,
      Writes ReveModule.onApb ReveModule.halted (ReveOCD.readreg r) (ReveOCD.setreg2 r v) r v s ∧
      Writes ReveModule.onApb ReveModule.halted (ReveOCD.readreg r) (ReveOCD.writereg r v) r v s ∧
      (Prog.run ReveModule.onApb (ReveOCD.setreg2 r v) s).2.halted.hart =
        (Prog.run ReveModule.onApb (ReveOCD.writereg r v) s).2.halted.hart := by
  have hr5 : r < 2 ^ 5 := Nat.lt_of_le_of_lt hr.2 (by decide)
  constructor
  · intro s
    have hread (s : PulpModule) := congrArg Prod.fst (pulp_readreg s hr5)
    obtain ⟨p, hset⟩ := pulp_setreg2 s hr v
    have hwrite := pulp_writereg s hr5 v
    refine ⟨Writes.of hr.1 hread ?_ ?_, Writes.of hr.1 hread ?_ ?_, ?_⟩ <;> simp only [hset, hwrite]
  · intro s
    have hread (s : ReveModule) := congrArg Prod.fst (reve_readreg s hr5)
    obtain ⟨w, hset⟩ := reve_pushConst s hr v
    rw [← ReveOCD.setreg2] at hset
    have hwrite := reve_writereg s hr5 v
    refine ⟨Writes.of hr.1 hread ?_ ?_, Writes.of hr.1 hread ?_ ?_, ?_⟩ <;> simp only [hset, hwrite]

/-- A value below 0, in a buffer full of another program. -/
theorem setreg2_eq_writereg_five :
    (Prog.run PulpModule.onApb (PulpOCD.readreg 5) (Prog.run PulpModule.onApb (PulpOCD.setreg2 5 (-0x801))
      ⟨⟨⟨fun _ => 7, fun _ => 0⟩, 0, false⟩, fun _ => 0x00108093, 3⟩).2).1 = 0xfffff7ff :=
  ((setreg2_eq_writereg (show 1 ≤ 5 ∧ 5 ≤ 31 by decide) (-0x801)).1 _).1.readback

end PyOcdRiscv.Ocd
