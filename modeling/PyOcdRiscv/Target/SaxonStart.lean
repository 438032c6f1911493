import PyOcdRiscv.Lib.Bits
import PyOcdRiscv.Lib.Mutex
import Mathlib.Tactic.IntervalCases

/-!
# The start-up code of Saxon

`crt1.s`, run by any number of harts at once: each sets up a stack of its own, takes the
lock in the word `UARTLOCK`, runs `main` and gives the lock back. A line of the source
is an instruction here, its address is its number, and the harts take turns instruction
by instruction in any order. Of `main`, which is not part of the start-up code, only that is
assumed which its caller relies on: it does not touch `UARTLOCK`, and if it returns, `ra` and
`sp` are what they were.

`assertion` is what holds of a hart at each line, whatever the others do. With it each
step comes to a step of a lock (`Lib.Mutex`), which is taken where the word is not 0
(`step_mutex`), and a run of the harts to a run of the lock.
-/

namespace PyOcdRiscv.Target.SaxonStart

open Lib

/-- The instructions that the code is made of. -/
inductive Instr where
  /-- `csrr rd, mhartid`. -/
  | csrrMhartid (rd : ℕ)
  /-- `bne rs1, x0, target`. -/
  | bnez (rs1 target : ℕ)
  /-- `li rd, imm`. -/
  | li (rd : ℕ) (imm : Word)
  /-- `la rd, UARTLOCK`. -/
  | laLock (rd : ℕ)
  /-- `jal rd, target`, and `j target` with `rd` 0. -/
  | jal (rd target : ℕ)
  /-- `jal rd, main`. -/
  | jalMain (rd : ℕ)
  /-- `addi rd, rs1, imm`. -/
  | addi (rd rs1 : ℕ) (imm : Word)
  /-- `mul rd, rs1, rs2`. -/
  | mul (rd rs1 rs2 : ℕ)
  /-- `add rd, rs1, rs2`. -/
  | add (rd rs1 rs2 : ℕ)
  /-- `amoswap.w.aq rd, rs2, (rs1)`. -/
  | amoswap (rd rs2 rs1 : ℕ)
  /-- `sw rs2, 0(rs1)`. -/
  | sw (rs2 rs1 : ℕ)
  /-- `jalr x0, rs1, 0`. -/
  | jr (rs1 : ℕ)
  deriving DecidableEq, Repr

def mloop : ℕ := 7
def slave : ℕ := 8
def sloop : ℕ := 17
def getlock : ℕ := 18
def loop : ℕ := 20
def unlock : ℕ := 23

/-- `crt1.s`. -/
def crt1 : List Instr :=
  [.csrrMhartid 10,
    .bnez 10 slave,
    .li 2 0x10a06000,
    .jal 1 getlock,
    .csrrMhartid 12,
    .jalMain 1,
    .jal 1 unlock,
    -- mloop:
    .jal 0 mloop,
    -- slave:
    .li 11 0x1000,
    .addi 10 10 (-1),
    .mul 10 10 11,
    .li 2 0x10a08000,
    .add 2 2 10,
    .jal 1 getlock,
    .csrrMhartid 12,
    .jalMain 1,
    .jal 1 unlock,
    -- sloop:
    .jal 0 sloop,
    -- getlock:
    .li 10 1,
    .laLock 11,
    -- loop:
    .amoswap 10 10 11,
    .bnez 10 loop,
    .jr 1,
    -- unlock:
    .laLock 10,
    .sw 0 10,
    .jr 1]

/-- Where a hart is: at a line of the start-up code, or in `main`, with what `ra` and `sp`
were when it was called. -/
inductive Pc where
  | line (k : ℕ)
  | main (ra sp : Word)
  deriving DecidableEq, Repr

/-- A hart. -/
structure Hart where
  /-- Where it is. -/
  pc : Pc
  /-- The registers. Register 0 is read as 0 whatever is here. -/
  regs : ℕ → Word
  /-- How many times it has entered `main`. -/
  entered : ℕ

namespace Hart

/-- The value of a register. -/
def reg (h : Hart) (r : ℕ) : Word := if r = 0 then 0 else h.regs r

/-- A register written, and on to line `k`. -/
def put (h : Hart) (r : ℕ) (v : Word) (k : ℕ) : Hart :=
  { h with pc := .line k, regs := Function.update h.regs r v }

end Hart

/-- The harts and the memory that they share. -/
structure State (n : ℕ) where
  /-- The harts, by their `mhartid`. -/
  harts : Fin n → Hart
  /-- The memory. -/
  mem : Word → Word

variable {n : ℕ} (UARTLOCK : Word)

/-- What an instruction at line `k` does to the hart whose `mhartid` is `id`, and to the
memory. -/
def Instr.exec (id : Word) (k : ℕ) (h : Hart) (mem : Word → Word) : Instr → Hart × (Word → Word)
  | .csrrMhartid rd => (h.put rd id (k + 1), mem)
  | .bnez rs1 target => ({ h with pc := .line (if h.reg rs1 = 0 then k + 1 else target) }, mem)
  | .li rd imm => (h.put rd imm (k + 1), mem)
  | .laLock rd => (h.put rd UARTLOCK (k + 1), mem)
  | .jal rd target => (h.put rd (BitVec.ofNat 32 (k + 1)) target, mem)
  | .jalMain rd =>
    let h := h.put rd (BitVec.ofNat 32 (k + 1)) k
    ({ h with pc := .main (h.reg 1) (h.reg 2), entered := h.entered + 1 }, mem)
  | .addi rd rs1 imm => (h.put rd (h.reg rs1 + imm) (k + 1), mem)
  | .mul rd rs1 rs2 => (h.put rd (h.reg rs1 * h.reg rs2) (k + 1), mem)
  | .add rd rs1 rs2 => (h.put rd (h.reg rs1 + h.reg rs2) (k + 1), mem)
  | .amoswap rd rs2 rs1 =>
    (h.put rd (mem (h.reg rs1)) (k + 1), Function.update mem (h.reg rs1) (h.reg rs2))
  | .sw rs2 rs1 => ({ h with pc := .line (k + 1) }, Function.update mem (h.reg rs1) (h.reg rs2))
  | .jr rs1 => ({ h with pc := .line (h.reg rs1).toNat }, mem)

/-- The `mhartid` of a hart. -/
def mhartid (i : Fin n) : Word := BitVec.ofNat 32 i

/-- A step of one hart. -/
inductive Step : State n → State n → Prop where
  /-- A line of the start-up code. -/
  | instr (i : Fin n) (k : ℕ) (ins : Instr) {s : State n} : (s.harts i).pc = .line k → crt1[k]? = some ins →
      Step s ⟨Function.update s.harts i (ins.exec UARTLOCK (mhartid i) k (s.harts i) s.mem).1,
        (ins.exec UARTLOCK (mhartid i) k (s.harts i) s.mem).2⟩
  /-- Something that `main` does. -/
  | work (i : Fin n) (ra sp : Word) (regs : ℕ → Word) (mem : Word → Word) {s : State n} :
      (s.harts i).pc = .main ra sp → mem UARTLOCK = s.mem UARTLOCK →
      Step s ⟨Function.update s.harts i { s.harts i with regs := regs }, mem⟩
  /-- `main` returns. -/
  | ret (i : Fin n) (ra sp : Word) (regs : ℕ → Word) {s : State n} :
      (s.harts i).pc = .main ra sp → regs 1 = ra → regs 2 = sp →
      Step s ⟨Function.update s.harts i { s.harts i with pc := .line ra.toNat, regs := regs }, s.mem⟩

/-- All harts at the entry, and the lock word 0. -/
def Entry (s : State n) : Prop :=
  (∀ i, (s.harts i).pc = .line 0 ∧ (s.harts i).entered = 0) ∧ s.mem UARTLOCK = 0

/-- The states the harts can get to. -/
def Reachable (s : State n) : Prop := ∃ s₀, Entry UARTLOCK s₀ ∧ Relation.ReflTransGen (Step UARTLOCK) s₀ s

/-! ### What holds at each line -/

/-- The stack pointer that the code computes for a hart. -/
def stackPointer (id : Word) : Word :=
  if id = 0 then 0x10a06000 else 0x10a08000 + (id + -1) * 0x1000

/-- **What holds of a hart** whose `mhartid` is `id`, at line `k`. -/
def assertion (id : Word) (h : Hart) (k : ℕ) : Prop :=
  let new := h.entered = 0
  let old := h.entered = 1
  let stack := h.reg 2 = stackPointer id
  -- where `getlock` and `unlock` were called from
  let back := h.reg 1 = 4 ∨ h.reg 1 = 14
  let back' := h.reg 1 = 7 ∨ h.reg 1 = 17
  match k with
  | 0 => new
  | 1 => new ∧ h.reg 10 = id
  | 2 => new ∧ id = 0
  | 3 | 4 | 5 => new ∧ stack
  | 6 | 7 => old ∧ stack
  | 8 => new ∧ id ≠ 0 ∧ h.reg 10 = id
  | 9 => new ∧ id ≠ 0 ∧ h.reg 10 = id ∧ h.reg 11 = 0x1000
  | 10 => new ∧ id ≠ 0 ∧ h.reg 10 = id + -1 ∧ h.reg 11 = 0x1000
  | 11 => new ∧ id ≠ 0 ∧ h.reg 10 = (id + -1) * 0x1000
  | 12 => new ∧ id ≠ 0 ∧ h.reg 10 = (id + -1) * 0x1000 ∧ h.reg 2 = 0x10a08000
  | 13 | 14 | 15 => new ∧ stack
  | 16 | 17 => old ∧ stack
  | 18 => new ∧ stack ∧ back
  | 19 => new ∧ stack ∧ back ∧ h.reg 10 = 1
  -- x10 is what is stored, and 1 whether this is the first try or not
  | 20 => new ∧ stack ∧ back ∧ h.reg 10 = 1 ∧ h.reg 11 = UARTLOCK
  | 21 => new ∧ stack ∧ back ∧ (h.reg 10 = 0 ∨ h.reg 10 = 1) ∧ h.reg 11 = UARTLOCK
  | 22 => new ∧ stack ∧ back
  | 23 => old ∧ stack ∧ back'
  | 24 => old ∧ stack ∧ back' ∧ h.reg 10 = UARTLOCK
  | 25 => old ∧ stack ∧ back'
  | _ => False

/-- The assertion where the hart is. -/
def Asserted (id : Word) (h : Hart) : Prop :=
  match h.pc with
  | .line k => assertion UARTLOCK id h k
  | .main ra sp => h.entered = 1 ∧ sp = stackPointer id ∧ (ra = 6 ∨ ra = 16)

/-- **Who holds the lock**: a hart whose `amoswap` has found 0, until its store in `unlock`. -/
def Hart.phase (h : Hart) : Phase :=
  match h.pc with
  | .main _ _ => .holding
  | .line k =>
    if k ∈ [7, 17, 25] then .after
    else if k ∈ [4, 5, 6, 14, 15, 16, 22, 23, 24] ∨ k = 21 ∧ h.reg 10 = 0 then .holding
    else .before

/-- The lock that the harts share. -/
def State.mutex (s : State n) : Mutex (Fin n) where
  phase i := (s.harts i).phase
  taken := s.mem UARTLOCK ≠ 0

namespace Hart

@[simp] theorem pc_put (h : Hart) (r : ℕ) (v : Word) (k : ℕ) : (h.put r v k).pc = .line k := rfl

@[simp] theorem entered_put (h : Hart) (r : ℕ) (v : Word) (k : ℕ) : (h.put r v k).entered = h.entered := rfl

@[simp] theorem reg_zero (h : Hart) : h.reg 0 = 0 := rfl

theorem reg_put (h : Hart) (r r' : ℕ) (v : Word) (k : ℕ) :
    (h.put r v k).reg r' = if r' = 0 then 0 else if r' = r then v else h.reg r' := by
  simp only [reg, put, Function.update_apply]
  split_ifs <;> rfl

end Hart

/-- What a line does, as the other harts see it: nothing to the lock, or an `amoswap` that
finds 0, or the store of `unlock`. -/
inductive Effect (h h' : Hart) (mem mem' : Word → Word) : Prop where
  | quiet : h'.phase = h.phase → mem' UARTLOCK = mem UARTLOCK → Effect h h' mem mem'
  | acquire : h.phase = .before → h'.phase = .holding → mem UARTLOCK = 0 → mem' UARTLOCK = 1 →
      Effect h h' mem mem'
  | release : h.phase = .holding → h'.phase = .after → mem' UARTLOCK = 0 → Effect h h' mem mem'

/-- **A line** leads from its assertion to that of the next. -/
theorem exec_asserted {id : Word} {k : ℕ} {ins : Instr} (hins : crt1[k]? = some ins) {h : Hart}
    (ha : assertion UARTLOCK id h k) {mem : Word → Word} (hmem : mem UARTLOCK = 0 ∨ mem UARTLOCK = 1) :
    Asserted UARTLOCK id (ins.exec UARTLOCK id k h mem).1 := by
  have hk : k < crt1.length := (List.getElem?_eq_some_iff.mp hins).1
  change k < 26 at hk
  interval_cases k <;> obtain rfl := Option.some.inj hins
  -- the lines that only compute, or call
  all_goals try
    simpa [Instr.exec, Asserted, assertion, Hart.reg_put, slave, getlock, unlock, mloop, sloop] using ha
  case «1» =>
    obtain ⟨hnew, hid⟩ := ha
    by_cases h0 : id = 0
    · simp [Instr.exec, Asserted, hid, h0, assertion, hnew]
    · simp only [Instr.exec, Asserted, hid, if_neg h0]
      exact ⟨hnew, h0, hid⟩
  case «2» =>
    obtain ⟨hnew, rfl⟩ := ha
    exact ⟨hnew, rfl⟩
  case «10» =>
    obtain ⟨hnew, hid, hx10, hx11⟩ := ha
    refine ⟨hnew, hid, ?_⟩
    simp [Instr.exec, Hart.reg_put, hx10, hx11]
  case «12» =>
    obtain ⟨hnew, hid, hx10, hx2⟩ := ha
    refine ⟨hnew, ?_⟩
    simp only [Instr.exec, Hart.reg_put, hx10, hx2]
    rw [stackPointer, if_neg hid]
    rfl
  case «20» =>
    obtain ⟨hnew, hstack, hback, -, hlock⟩ := ha
    refine ⟨hnew, hstack, hback, ?_, hlock⟩
    rw [← hlock] at hmem
    exact hmem
  case «21» =>
    obtain ⟨hnew, hstack, hback, hx10 | hx10, hlock⟩ := ha
    · simp only [Instr.exec, Asserted, hx10]
      exact ⟨hnew, hstack, hback⟩
    · simp only [Instr.exec, Asserted, hx10]
      exact ⟨hnew, hstack, hback, hx10, hlock⟩
  case «22» =>
    obtain ⟨hnew, hstack, hra | hra⟩ := ha
    · simp only [Instr.exec, Asserted, hra]
      exact ⟨hnew, hstack⟩
    · simp only [Instr.exec, Asserted, hra]
      exact ⟨hnew, hstack⟩
  case «24» =>
    obtain ⟨hold, hstack, hback, -⟩ := ha
    exact ⟨hold, hstack, hback⟩
  case «25» =>
    obtain ⟨hold, hstack, hra | hra⟩ := ha
    · simp only [Instr.exec, Asserted, hra]
      exact ⟨hold, hstack⟩
    · simp only [Instr.exec, Asserted, hra]
      exact ⟨hold, hstack⟩

/-- **What a line does to the lock.** -/
theorem exec_effect {id : Word} {k : ℕ} {ins : Instr} (hins : crt1[k]? = some ins) {h : Hart}
    (hpc : h.pc = .line k) (ha : assertion UARTLOCK id h k) {mem : Word → Word}
    (hmem : mem UARTLOCK = 0 ∨ mem UARTLOCK = 1) :
    Effect UARTLOCK h (ins.exec UARTLOCK id k h mem).1 mem (ins.exec UARTLOCK id k h mem).2 := by
  have hk : k < crt1.length := (List.getElem?_eq_some_iff.mp hins).1
  change k < 26 at hk
  have hquiet (h' : Hart) : h'.phase = h.phase → Effect UARTLOCK h h' mem mem := fun hp => .quiet hp rfl
  interval_cases k <;> obtain rfl := Option.some.inj hins
  all_goals try
    refine hquiet _ ?_
    simp [Instr.exec, Hart.phase, hpc, slave, getlock, unlock, mloop, sloop]
    done
  case «1» =>
    refine hquiet _ ?_
    by_cases h0 : h.reg 10 = 0#32
    · simp [Instr.exec, Hart.phase, hpc, h0]
    · simp [Instr.exec, Hart.phase, hpc, h0, slave]
  case «20» =>
    obtain ⟨-, -, -, hx10, hlock⟩ := ha
    have hstored : Function.update mem (h.reg 11) (h.reg 10) UARTLOCK = 1 := by
      rw [hlock, Function.update_self, hx10]
    rcases hmem with hmem | hmem
    · refine .acquire (by simp [Hart.phase, hpc]) ?_ hmem hstored
      simp [Instr.exec, Hart.phase, Hart.reg_put, hlock, hmem]
    · refine .quiet ?_ (hstored.trans hmem.symm)
      simp [Instr.exec, Hart.phase, hpc, Hart.reg_put, hlock, hmem]
  case «21» =>
    refine hquiet _ ?_
    by_cases h0 : h.reg 10 = 0#32
    · simp [Instr.exec, Hart.phase, hpc, h0]
    · simp [Instr.exec, Hart.phase, hpc, h0, loop]
  case «22» =>
    refine hquiet _ ?_
    rcases ha.2.2 with hra | hra <;> simp [Instr.exec, Hart.phase, hpc, hra]
  case «24» =>
    refine .release (by simp [Hart.phase, hpc]) (by simp [Instr.exec, Hart.phase]) ?_
    rw [← ha.2.2.2]
    exact Function.update_self ..
  case «25» =>
    refine hquiet _ ?_
    rcases ha.2.2 with hra | hra <;> simp [Instr.exec, Hart.phase, hpc, hra]

/-! ### Runs -/

/-- **The invariant** of the harts: each is where its assertion holds, and the lock word is 0
or 1. -/
structure Inv (s : State n) : Prop where
  asserted : ∀ i, Asserted UARTLOCK (mhartid i) (s.harts i)
  word : s.mem UARTLOCK = 0 ∨ s.mem UARTLOCK = 1

variable {UARTLOCK} {s s' : State n}

theorem Entry.inv (h : Entry UARTLOCK s) : Inv UARTLOCK s where
  asserted i := by
    obtain ⟨hpc, hnew⟩ := h.1 i
    rw [Asserted, hpc]
    exact hnew
  word := Or.inl h.2

theorem Entry.free (h : Entry UARTLOCK s) : (s.mutex UARTLOCK).Free := by
  refine ⟨fun i => ?_, by simp [State.mutex, h.2]⟩
  change (s.harts i).phase = .before
  rw [Hart.phase, (h.1 i).1]
  rfl

/-- A hart that has moved is where its assertion holds, and the others still are. -/
theorem Inv.update (h : Inv UARTLOCK s) {i : Fin n} {hart : Hart} {mem : Word → Word}
    (ha : Asserted UARTLOCK (mhartid i) hart) (hmem : mem UARTLOCK = 0 ∨ mem UARTLOCK = 1) :
    Inv UARTLOCK ⟨Function.update s.harts i hart, mem⟩ where
  asserted j := by
    by_cases hji : j = i
    · subst hji
      simpa using ha
    · simpa [Function.update_of_ne hji] using h.asserted j
  word := hmem

/-- What a line does to the lock word keeps it 0 or 1. -/
theorem Effect.word {h h' : Hart} {mem mem' : Word → Word} (he : Effect UARTLOCK h h' mem mem')
    (hmem : mem UARTLOCK = 0 ∨ mem UARTLOCK = 1) : mem' UARTLOCK = 0 ∨ mem' UARTLOCK = 1 := by
  cases he with
  | quiet _ hw => rwa [hw]
  | acquire _ _ _ hw => exact Or.inr hw
  | release _ _ hw => exact Or.inl hw

theorem Inv.step (h : Inv UARTLOCK s) (hstep : Step UARTLOCK s s') : Inv UARTLOCK s' := by
  cases hstep with
  | instr i k ins hpc hins =>
    have ha := h.asserted i
    rw [Asserted, hpc] at ha
    exact h.update (exec_asserted UARTLOCK hins ha h.word) ((exec_effect UARTLOCK hins hpc ha h.word).word h.word)
  | work i ra sp regs mem hpc hmem =>
    have ha := h.asserted i
    simp only [Asserted, hpc] at ha
    refine h.update ?_ (by rw [hmem]; exact h.word)
    simp only [Asserted, hpc]
    exact ha
  | ret i ra sp regs hpc hra hsp =>
    have ha := h.asserted i
    simp only [Asserted, hpc] at ha
    obtain ⟨hold, rfl, hback⟩ := ha
    refine h.update ?_ h.word
    rcases hback with rfl | rfl
    · exact ⟨hold, hsp⟩
    · exact ⟨hold, hsp⟩

/-- The phases after a hart has moved. -/
theorem mutex_update (i : Fin n) (hart : Hart) (mem : Word → Word) :
    State.mutex UARTLOCK ⟨Function.update s.harts i hart, mem⟩ =
      ⟨Function.update (s.mutex UARTLOCK).phase i hart.phase, mem UARTLOCK ≠ 0⟩ := by
  refine congrArg (fun p => Mutex.mk p _) (funext fun j => ?_)
  by_cases hji : j = i
  · subst hji
    simp
  · simp [Function.update_of_ne hji, State.mutex]

/-- A hart that has moved within its phase, with the lock word as it was. -/
theorem mutex_quiet {i : Fin n} {hart : Hart} {mem : Word → Word} (hp : hart.phase = (s.harts i).phase)
    (hw : mem UARTLOCK = s.mem UARTLOCK) :
    State.mutex UARTLOCK ⟨Function.update s.harts i hart, mem⟩ = s.mutex UARTLOCK := by
  rw [mutex_update, hp, hw]
  exact congrArg (fun p => Mutex.mk p _) (Function.update_eq_self i _)

/-- **A step of the harts is one of the lock**, or leaves it alone. -/
theorem step_mutex (h : Inv UARTLOCK s) (hstep : Step UARTLOCK s s') :
    s'.mutex UARTLOCK = s.mutex UARTLOCK ∨ Mutex.Step (s.mutex UARTLOCK) (s'.mutex UARTLOCK) := by
  cases hstep with
  | instr i k ins hpc hins =>
    have ha := h.asserted i
    rw [Asserted, hpc] at ha
    cases exec_effect UARTLOCK hins hpc ha h.word with
    | quiet hp hw => exact Or.inl (mutex_quiet hp hw)
    | acquire hbefore hholding hfree htaken =>
      right
      rw [mutex_update, hholding, htaken]
      exact .acquire i hbefore (by simp [State.mutex, hfree])
    | release hholding hafter hfree =>
      right
      rw [mutex_update, hafter, hfree]
      simpa using Mutex.Step.release i hholding
  | work i ra sp regs mem hpc hmem =>
    exact Or.inl (mutex_quiet (by simp only [Hart.phase, hpc]) hmem)
  | ret i ra sp regs hpc hra hsp =>
    have ha := h.asserted i
    simp only [Asserted, hpc] at ha
    refine Or.inl (mutex_quiet ?_ rfl)
    rcases ha.2.2 with rfl | rfl <;> simp [Hart.phase, hpc]

/-- **A run of the harts is a run of the lock.** -/
theorem Reachable.run (h : Reachable UARTLOCK s) :
    Inv UARTLOCK s ∧ ∃ m : Mutex (Fin n), m.Free ∧ Relation.ReflTransGen Mutex.Step m (s.mutex UARTLOCK) := by
  obtain ⟨s₀, hentry, hrun⟩ := h
  induction hrun with
  | refl => exact ⟨hentry.inv, _, hentry.free, .refl⟩
  | tail _ hstep ih =>
    obtain ⟨hinv, m, hfree, hm⟩ := ih
    refine ⟨hinv.step hstep, m, hfree, ?_⟩
    rcases step_mutex hinv hstep with heq | hmutex
    · rw [heq]
      exact hm
    · exact hm.tail hmutex

/-! ### What the code is for -/

/-- The hart is between its return from `getlock` and the store in `unlock`. -/
def Hart.Holds (h : Hart) : Prop := h.phase = .holding

/-- The stack pointer that the hart was given, from its call of `getlock` on. -/
def Hart.stack (h : Hart) : Option Word :=
  match h.pc with
  | .main _ sp => some sp
  | .line k => if k ∈ [0, 1, 2, 8, 9, 10, 11, 12] then none else some (h.reg 2)

/-- There is no assertion beyond the last line. -/
theorem assertion_lt {id : Word} {h : Hart} {k : ℕ} (ha : assertion UARTLOCK id h k) : k < 26 := by
  by_contra hk
  obtain ⟨j, rfl⟩ := Nat.exists_eq_add_of_le' (Nat.le_of_not_lt hk)
  exact ha

theorem Asserted.entered {id : Word} {h : Hart} (ha : Asserted UARTLOCK id h) : h.entered ≤ 1 := by
  unfold Asserted at ha
  split at ha
  · next k _ =>
    have hk := assertion_lt ha
    interval_cases k
    case «0» => exact (Nat.le_of_eq ha).trans (Nat.zero_le 1)
    all_goals exact (Nat.le_of_eq ha.1).trans (by decide)
  · exact Nat.le_of_eq ha.1

theorem Asserted.stack {id : Word} {h : Hart} (ha : Asserted UARTLOCK id h) :
    ∀ sp ∈ h.stack, sp = stackPointer id := by
  intro sp hsp
  unfold Hart.stack at hsp
  unfold Asserted at ha
  split at ha
  · next k hpc =>
    rw [hpc] at hsp
    have hk := assertion_lt ha
    by_cases hset : k ∈ [0, 1, 2, 8, 9, 10, 11, 12]
    · simp [hset] at hsp
    · simp only [if_neg hset, Option.mem_def, Option.some.injEq] at hsp
      subst hsp
      interval_cases k <;> first | exact absurd (by decide) hset | exact ha.2 | exact ha.2.1
  · next ra sp' hpc =>
    rw [hpc] at hsp
    obtain rfl := Option.some.inj hsp
    exact ha.2.1

/-- The stack pointers as numbers: nothing wraps around. -/
theorem toNat_stackPointer {k : ℕ} (hk : k < 65536) : (stackPointer (BitVec.ofNat 32 k)).toNat =
    if k = 0 then 0x10a06000 else 0x10a08000 + (k - 1) * 0x1000 := by
  rw [stackPointer]
  by_cases h0 : k = 0
  · simp [h0]
  · have hne : BitVec.ofNat 32 k ≠ 0 := by
      intro he
      have hval := congrArg BitVec.toNat he
      rw [BitVec.toNat_ofNat, Nat.mod_eq_of_lt (by omega)] at hval
      exact h0 hval
    have hsub : (BitVec.ofNat 32 k + -1).toNat = k - 1 := by
      have hminus : (-1 : Word).toNat = 2 ^ 32 - 1 := by decide
      rw [BitVec.toNat_add, hminus, BitVec.toNat_ofNat, Nat.mod_eq_of_lt (show k < 2 ^ 32 by omega)]
      omega
    have hbase : (0x10a08000 : Word).toNat = 0x10a08000 := by decide
    have hstep : (0x1000 : Word).toNat = 0x1000 := by decide
    rw [if_neg hne, if_neg h0, BitVec.toNat_add, BitVec.toNat_mul, hsub, hbase, hstep]
    omega

variable (UARTLOCK) in
/-- **What the start-up code is for.** -/
structure Safe (s : State n) : Prop where
  /-- At most one hart holds the lock. -/
  one : ∀ i j, (s.harts i).Holds → (s.harts j).Holds → i = j
  /-- A hart that is in `main` holds it. -/
  main : ∀ i ra sp, (s.harts i).pc = .main ra sp → (s.harts i).Holds
  /-- The word is 0 exactly when nobody holds it, -/
  free : s.mem UARTLOCK = 0 ↔ ∀ i, ¬ (s.harts i).Holds
  /-- and 1 otherwise. -/
  taken : s.mem UARTLOCK = 1 ↔ ∃ i, (s.harts i).Holds
  /-- No hart enters `main` twice. -/
  once : ∀ i, (s.harts i).entered ≤ 1
  /-- Each hart has the stack pointer that is meant for it, -/
  stack : ∀ i, ∀ sp ∈ (s.harts i).stack, sp = stackPointer (mhartid i)
  /-- and those of two harts are far apart. -/
  apart : n ≤ 65536 → ∀ i j : Fin n, i ≠ j →
    0x1000 ≤ |((stackPointer (mhartid i)).toNat : ℤ) - (stackPointer (mhartid j)).toNat|

/-- **Safe on every run**: any number of harts, in any order of their instructions. -/
theorem start_up_safe (h : Reachable UARTLOCK s) : Safe UARTLOCK s := by
  obtain ⟨hinv, m, hfree, hrun⟩ := h.run
  obtain ⟨hone, htaken⟩ := Mutex.safe hfree hrun
  have hword : s.mem UARTLOCK ≠ 0 ↔ ∃ i, (s.harts i).Holds := by
    simpa [State.mutex, Hart.Holds] using htaken
  refine ⟨hone, ?_, ?_, ?_, fun i => (hinv.asserted i).entered, fun i => (hinv.asserted i).stack, ?_⟩
  · intro i ra sp hpc
    rw [Hart.Holds, Hart.phase, hpc]
  · rw [← not_exists, ← hword, not_not]
  · rw [← hword]
    rcases hinv.word with hw | hw
    · rw [hw]
      decide
    · rw [hw]
      decide
  · intro hn i j hne
    have hi := toNat_stackPointer (i.isLt.trans_le hn)
    have hj := toNat_stackPointer (j.isLt.trans_le hn)
    have hval : (i : ℕ) ≠ j := fun he => hne (Fin.ext he)
    rw [mhartid, mhartid, hi, hj, le_abs]
    split_ifs <;> omega

/-! ### A schedule -/

/-- The next line of hart `i`. -/
def State.next (UARTLOCK : Word) (s : State n) (i : Fin n) : State n :=
  match (s.harts i).pc with
  | .main _ _ => s
  | .line k =>
    match crt1[k]? with
    | none => s
    | some ins =>
      ⟨Function.update s.harts i (ins.exec UARTLOCK (mhartid i) k (s.harts i) s.mem).1,
        (ins.exec UARTLOCK (mhartid i) k (s.harts i) s.mem).2⟩

theorem Reachable.next (h : Reachable UARTLOCK s) (i : Fin n) : Reachable UARTLOCK (s.next UARTLOCK i) := by
  obtain ⟨s₀, hentry, hrun⟩ := h
  unfold State.next
  split
  · exact ⟨s₀, hentry, hrun⟩
  · next k hpc =>
    split
    · exact ⟨s₀, hentry, hrun⟩
    · next ins hins => exact ⟨s₀, hentry, hrun.tail (.instr i k ins hpc hins)⟩

theorem Reachable.schedule (h : Reachable UARTLOCK s) (is : List (Fin n)) :
    Reachable UARTLOCK (is.foldl (State.next UARTLOCK) s) := by
  induction is generalizing s with
  | nil => exact h
  | cons i is ih => exact ih (h.next i)

/-- Harts at the entry. -/
def entry (n : ℕ) : State n := ⟨fun _ => ⟨.line 0, fun _ => 0, 0⟩, fun _ => 0⟩

/-- Hart 2 comes first: it is in `main`, and hart 0 tries in vain. -/
theorem start_up_safe_three :
    (((List.replicate 16 (2 : Fin 3) ++ List.replicate 9 0).foldl (State.next 0x100) (entry 3)).harts 2).pc =
        .main 16 0x10a09000 ∧
      Safe 0x100 ((List.replicate 16 (2 : Fin 3) ++ List.replicate 9 0).foldl (State.next 0x100) (entry 3)) :=
  ⟨by decide +kernel,
    start_up_safe (Reachable.schedule ⟨entry 3, ⟨fun _ => ⟨rfl, rfl⟩, rfl⟩, .refl⟩ _)⟩

end PyOcdRiscv.Target.SaxonStart
