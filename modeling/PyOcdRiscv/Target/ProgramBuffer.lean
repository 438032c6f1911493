import PyOcdRiscv.Target.Halted

/-!
# The program buffer of Pulp

What the debug module of Pulp (`dm_csrs.sv`, `dm_mem.sv`) makes of the driver's calls
while the hart is halted, with every command complete before the next request. A write
to the program buffer or to data0 only stores a word. A command transfers a register, and
then, if it says so, has the hart run the program buffer from its first word to the
first `ebreak`. What is in the buffer after that is not run, whoever left it there
(`runWords_append`).
-/

namespace PyOcdRiscv.Target

open Lib Rv32 Ocd

/-- `ebreak`. -/
def ebreak : Word := 0x00100073

/-- A program, run to its first `ebreak`. It stops at an instruction that raises an
exception, and what follows the last word is none of the program. -/
def runWords : List Word → Halted → Halted
  | [], s => { s with trapped := true }
  | w :: ws, s =>
    if w = ebreak then s
    else match Rv32.run w.toNat s.hart with
      | some (h, result) => runWords ws { s with hart := h, writeBack := result.getD s.writeBack }
      | none => { s with trapped := true }

/-- The debug module of Pulp. -/
structure PulpModule where
  /-- The hart. -/
  halted : Halted
  /-- `progbuf_q`, by the number of the word. -/
  progbuf : ℕ → Word
  /-- The first word of `data_q`. -/
  data0 : Word

namespace PulpModule

/-- `dm::ProgBufSize`. -/
def ProgBufSize : ℕ := 8

/-- `MaxAar`, on a bus of 32 bits. -/
def MaxAar : ℕ := 3

/-- What the hart loads from data0: `2 ^ size` bytes, with their sign extended. -/
def loaded (size : ℕ) (data0 : Word) : Word := (data0.setWidth (8 * 2 ^ size)).signExtend 32

/-- What data0 is after the hart has stored `2 ^ size` bytes of `v` in it. -/
def stored (size : ℕ) (v data0 : Word) : Word :=
  let w := 2 ^ (8 * 2 ^ size)
  BitVec.ofNat 32 (data0.toNat / w * w + v.toNat % w)

/-- The register transfer of a command. Bit 16 is set for a write, and bit 12 of the
number for the general registers, but that bit 5 is set for those of floating point.
Neither these nor the control registers are looked at here. -/
def transfer (w : ℕ) (s : PulpModule) : PulpModule :=
  let size := w / 2 ^ 20 % 2 ^ 3
  if w / 2 ^ 12 % 2 = 1 ∧ w / 2 ^ 5 % 2 = 0 then
    if w / 2 ^ 16 % 2 = 1 then
      { s with halted := { s.halted with
          hart := s.halted.hart.setReg (w % 2 ^ 5) (loaded size s.data0) } }
    else { s with data0 := stored size (s.halted.hart.reg (w % 2 ^ 5)) s.data0 }
  else s

/-- The program buffer run. -/
def exec (s : PulpModule) : PulpModule :=
  { s with halted := runWords ((List.range ProgBufSize).map s.progbuf) s.halted }

/-- A command: of type 0, else it is not supported. Bit 17 is set for a transfer, and
bit 18 if the program buffer is to be run after it. -/
def command (w : ℕ) (s : PulpModule) : PulpModule :=
  if w / 2 ^ 24 % 2 ^ 8 ≠ 0 then s
  else if w / 2 ^ 17 % 2 = 1 then
    -- not supported, and then the program buffer is not run either
    if MaxAar ≤ w / 2 ^ 20 % 2 ^ 3 ∨ w / 2 ^ 14 % 2 ^ 2 ≠ 0 then s
    else if w / 2 ^ 18 % 2 = 1 then (s.transfer w).exec
    else s.transfer w
  else if w / 2 ^ 18 % 2 = 1 then s.exec
  else s

/-- A DMI write. -/
def write (adr : ℕ) (v : Word) (s : PulpModule) : PulpModule :=
  if adr = 0x4 then { s with data0 := v }
  else if adr = 0x17 then s.command v.toNat
  else if 0x20 ≤ adr ∧ adr < 0x20 + ProgBufSize then
    { s with progbuf := Function.update s.progbuf (adr - 0x20) v }
  else s

/-- A call on it. What a read of another register returns is left open. -/
def onApb : (o : ApbCall) → PulpModule → Apb.Res o × PulpModule
  | .writeapb adr data, s => ((), s.write (land adr 0x7f) (BitVec.ofInt 32 data))
  | .readapb adr, s => (if land adr 0x7f = 0x4 then s.data0.toNat else 0, s)
  | .selectIr _, s => ((), s)
  | .writeDr _, s => ((), s)
  | .goIdle, s => ((), s)
  | .writeTms _, s => ((), s)

end PulpModule

/-! ### Programs -/

/-- Every word is an instruction other than `ebreak`, and raises no exception. -/
def Runs : List Word → Halted → Prop
  | [], _ => True
  | w :: ws, s => w ≠ ebreak ∧ (Rv32.run w.toNat s.hart).isSome ∧ Runs ws (s.inject w)

/-- **A program ends at its `ebreak`**: what comes after it does not matter, and its
instructions do what they do when injected one by one. -/
theorem runWords_append (ws rest : List Word) (s : Halted) (h : Runs ws s) :
    runWords (ws ++ ebreak :: rest) s = ws.foldl (fun s w => s.inject w) s := by
  induction ws generalizing s with
  | nil => simp [runWords]
  | cons w ws ih =>
    obtain ⟨hne, hrun, hws⟩ := h
    obtain ⟨⟨hart, result⟩, hr⟩ := Option.isSome_iff_exists.mp hrun
    have hinject : s.inject w = { s with hart := hart, writeBack := result.getD s.writeBack } := by
      simp only [Halted.inject, hr]
    rw [List.cons_append, runWords, if_neg hne, hr, List.foldl_cons, ← ih _ hws, hinject]

@[simp] theorem PulpModule.loaded_word (v : Word) : loaded 2 v = v := by
  change (v.setWidth 32).signExtend 32 = v
  simp

@[simp] theorem PulpModule.stored_word (v d : Word) : stored 2 v d = v := by
  have hv := v.isLt
  have hd := d.isLt
  have hdiv : d.toNat / 2 ^ 32 = 0 := Nat.div_eq_of_lt hd
  change BitVec.ofNat 32 (d.toNat / 2 ^ 32 * 2 ^ 32 + v.toNat % 2 ^ 32) = v
  rw [hdiv, Nat.mod_eq_of_lt hv, Nat.zero_mul, Nat.zero_add, BitVec.ofNat_toNat, BitVec.setWidth_eq]

end PyOcdRiscv.Target
