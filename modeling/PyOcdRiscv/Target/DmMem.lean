import PyOcdRiscv.Lib.DebugHart

/-!
# The memory of the debug module

`dm_mem.sv` for one hart and a bus of 32 bits: what a hart in debug mode finds when it reads and writes
the page of the debug module. There are the debug ROM, in which a halted hart waits (`debug_rom.sv`),
the flags it polls, the code of the abstract command that it is to run, the program buffer, and the
data registers. A state machine tells it to go on or to resume, and knows from what it writes how far it
is.
-/

namespace PyOcdRiscv.Target

open Lib Debug

namespace Dm

/-! ### Addresses in the page -/

def HaltAddress : ℕ := 0x800
def ResumeAddress : ℕ := HaltAddress + 4
def DataAddr : ℕ := 0x380
def DataEnd : ℕ := DataAddr + 8
def ProgBufBase : ℕ := 0x360
def ProgBufEnd : ℕ := 0x37f
def AbstractCmdBase : ℕ := 0x338
def AbstractCmdEnd : ℕ := 0x35f
def WhereTo : ℕ := 0x300
def FlagsBase : ℕ := 0x400
def FlagsEnd : ℕ := 0x7ff
def Halted : ℕ := 0x100
def Going : ℕ := 0x104
def Resuming : ℕ := 0x108
def Exception : ℕ := 0x10c

/-! ### Instructions -/

def CSR_DSCRATCH0 : ℕ := 0x7b2
def CSR_DSCRATCH1 : ℕ := 0x7b3

def jal (rd imm : ℕ) : ℕ :=
  imm / 2 ^ 20 % 2 * 2 ^ 31 + imm / 2 % 2 ^ 10 * 2 ^ 21 + imm / 2 ^ 11 % 2 * 2 ^ 20 + imm / 2 ^ 12 % 2 ^ 8 * 2 ^ 12 +
    rd * 2 ^ 7 + 0x6f

def auipc (rd : ℕ) : ℕ := rd * 2 ^ 7 + 0x17

def slli (rd rs1 shamt : ℕ) : ℕ := shamt * 2 ^ 20 + rs1 * 2 ^ 15 + 1 * 2 ^ 12 + rd * 2 ^ 7 + 0x13

def srli (rd rs1 shamt : ℕ) : ℕ := shamt * 2 ^ 20 + rs1 * 2 ^ 15 + 5 * 2 ^ 12 + rd * 2 ^ 7 + 0x13

def load (size dest base offset : ℕ) : ℕ :=
  offset * 2 ^ 20 + base * 2 ^ 15 + size * 2 ^ 12 + dest * 2 ^ 7 + 0x03

def store (size src base offset : ℕ) : ℕ :=
  offset / 2 ^ 5 * 2 ^ 25 + src * 2 ^ 20 + base * 2 ^ 15 + size * 2 ^ 12 + offset % 2 ^ 5 * 2 ^ 7 + 0x23

def floatLoad (size dest base offset : ℕ) : ℕ :=
  offset * 2 ^ 20 + base * 2 ^ 15 + size * 2 ^ 12 + dest * 2 ^ 7 + 0x07

def floatStore (size src base offset : ℕ) : ℕ :=
  offset / 2 ^ 5 * 2 ^ 25 + src * 2 ^ 20 + base * 2 ^ 15 + size * 2 ^ 12 + offset % 2 ^ 5 * 2 ^ 7 + 0x27

def csrw (csr rs1 : ℕ) : ℕ := csr * 2 ^ 20 + rs1 * 2 ^ 15 + 1 * 2 ^ 12 + 0x73

def csrr (csr dest : ℕ) : ℕ := csr * 2 ^ 20 + 2 * 2 ^ 12 + dest * 2 ^ 7 + 0x73

def ebreak : ℕ := 0x00100073

def nop : ℕ := 0x00000013

def illegal : ℕ := 0x00000000

/-! ### Commands -/

/-- `cmdtype`. -/
def cmdtype (cmd : Word) : ℕ := cmd.toNat / 2 ^ 24

/-- `aarsize`. -/
def aarsize (cmd : Word) : ℕ := cmd.toNat / 2 ^ 20 % 2 ^ 3

/-- `aarpostincrement`. -/
def aarpostincrement (cmd : Word) : Bool := cmd.getLsbD 19

/-- `postexec`. -/
def postexec (cmd : Word) : Bool := cmd.getLsbD 18

/-- `transfer`. -/
def transfer (cmd : Word) : Bool := cmd.getLsbD 17

/-- `write`. -/
def write (cmd : Word) : Bool := cmd.getLsbD 16

/-- `regno`. -/
def regno (cmd : Word) : ℕ := cmd.toNat % 2 ^ 16

/-- `MaxAar`. -/
def MaxAar : ℕ := 3

/-- `AccessRegister`. -/
def AccessRegister : ℕ := 0

/-- Register a0 is accessed, whose value is in dscratch1. -/
def isA0 (cmd : Word) : Prop := regno cmd / 2 ^ 12 % 2 = 1 ∧ regno cmd / 2 ^ 5 % 2 = 0 ∧ regno cmd % 2 ^ 5 = 10

instance (cmd : Word) : Decidable (isA0 cmd) := inferInstanceAs (Decidable (_ ∧ _ ∧ _))

/-- The transfer of a register, four instructions, from a register to data0 or the other way. -/
def transferCode (cmd : Word) : List ℕ :=
  if write cmd then
    if isA0 cmd then
      [csrw CSR_DSCRATCH0 8, load (aarsize cmd) 8 10 DataAddr, csrw CSR_DSCRATCH1 8, csrr CSR_DSCRATCH0 8]
    else if regno cmd / 2 ^ 12 % 2 = 1 then
      if regno cmd / 2 ^ 5 % 2 = 1 then [floatLoad (aarsize cmd) (regno cmd % 2 ^ 5) 10 DataAddr, nop, nop, nop]
      else [load (aarsize cmd) (regno cmd % 2 ^ 5) 10 DataAddr, nop, nop, nop]
    else
      [csrw CSR_DSCRATCH0 8, load (aarsize cmd) 8 10 DataAddr, csrw (regno cmd % 2 ^ 12) 8, csrr CSR_DSCRATCH0 8]
  else
    if isA0 cmd then
      [csrw CSR_DSCRATCH0 8, csrr CSR_DSCRATCH1 8, store (aarsize cmd) 8 10 DataAddr, csrr CSR_DSCRATCH0 8]
    else if regno cmd / 2 ^ 12 % 2 = 1 then
      if regno cmd / 2 ^ 5 % 2 = 1 then [floatStore (aarsize cmd) (regno cmd % 2 ^ 5) 10 DataAddr, nop, nop, nop]
      else [store (aarsize cmd) (regno cmd % 2 ^ 5) 10 DataAddr, nop, nop, nop]
    else
      [csrw CSR_DSCRATCH0 8, csrr (regno cmd % 2 ^ 12) 8, store (aarsize cmd) 8 10 DataAddr, csrr CSR_DSCRATCH0 8]

/-- The command moves a register. -/
def transfers (cmd : Word) : Prop := aarsize cmd < MaxAar ∧ transfer cmd = true

instance (cmd : Word) : Decidable (transfers cmd) := inferInstanceAs (Decidable (_ ∧ _))

/-- `unsupported_command`. -/
def unsupported (cmd : Word) : Prop :=
  cmdtype cmd ≠ AccessRegister ∨
    if transfers cmd then regno cmd / 2 ^ 14 ≠ 0 else MaxAar ≤ aarsize cmd ∨ aarpostincrement cmd = true

instance (cmd : Word) : Decidable (unsupported cmd) := inferInstanceAs (Decidable (_ ∨ ite _ _ _))

/-- `abstract_cmd`: the ten instructions of a command. -/
def abstractCmd (cmd : Word) : List ℕ :=
  let first := if unsupported cmd then ebreak else if transfers cmd then csrw CSR_DSCRATCH1 10 else illegal
  let middle := if unsupported cmd ∨ ¬ transfers cmd then [nop, nop, nop, nop] else transferCode cmd
  let last := if postexec cmd = true ∧ ¬ unsupported cmd then nop else ebreak
  [first, auipc 10, srli 10 10 12, slli 10 10 12] ++ middle ++ [csrr CSR_DSCRATCH1 10, last]

end Dm

/-! ### The debug ROM -/

/-- `mem` of `debug_rom`, the lower half of each double word first. -/
def debugRom : List ℕ :=
  [0x00c0006f, 0x07c0006f, 0x04c0006f, 0x0ff0000f, 0x7b241073, 0x7b351073, 0x00000517, 0x00c55513,
    0x00c51513, 0xf1402473, 0x10852023, 0x00a40433, 0x40044403, 0x00147413, 0x02041c63, 0xf1402473,
    0x00a40433, 0x40044403, 0x00247413, 0xfa041ce3, 0xfd5ff06f, 0x7b351073, 0x00000517, 0x00c55513,
    0x00c51513, 0x10052623, 0x7b302573, 0x00100073, 0x10052223, 0x7b202473, 0x7b302573, 0xa85ff06f,
    0xf1402473, 0x10852423, 0x7b202473, 0x7b302573, 0x7b200073, 0x00000000]

/-! ### The module -/

/-- `state_e`. -/
inductive DmMemState where
  | idle | go | resume | cmdExecuting
  deriving DecidableEq, Repr

/-- The registers of `dm_mem`. -/
structure DmMem where
  /-- `state_q`. -/
  state : DmMemState
  /-- `halted_q`. -/
  halted : Bool
  /-- `resuming_q`. -/
  resuming : Bool
  /-- `rdata_q`. -/
  rdata : BitVec 64

/-- What `dm_csrs` tells `dm_mem`. -/
structure DmMemIn where
  /-- `hartsel_i`. -/
  hartsel : ℕ
  /-- `haltreq_i`. -/
  haltreq : Bool
  /-- `resumereq_i`. -/
  resumereq : Bool
  /-- `clear_resumeack_i`. -/
  clearResumeack : Bool
  /-- `progbuf_i`. -/
  progbuf : ℕ → Word
  /-- `data_i`. -/
  data : ℕ → Word
  /-- `cmd_valid_i`. -/
  cmdValid : Bool
  /-- `cmd_i`. -/
  cmd : Word

namespace DmMem

open Dm (HaltAddress ResumeAddress DataAddr DataEnd ProgBufBase ProgBufEnd AbstractCmdBase AbstractCmdEnd WhereTo
  FlagsBase FlagsEnd Halted Going Resuming Exception)

/-- After a reset. -/
def fresh : DmMem := ⟨.idle, false, false, 0⟩

/-- `addr_i[DbgAddressBits-1:0]`. -/
def offset (a : Access) : ℕ := a.addr.toNat % 2 ^ 12

/-- The hart writes at `addr`. -/
def writes (addr : ℕ) (a : Option Access) : Bool := a.any fun a => a.we && offset a = addr

/-- The hart writes its own number, which is 0, at `addr`. -/
def writesHart (addr : ℕ) (a : Option Access) : Bool := a.any fun a => a.we && offset a = addr && !a.wdata.getLsbD 0

/-- `cmdbusy_o`. -/
def cmdbusy (s : DmMem) : Bool := s.state ≠ .idle

/-- `halted_q[hartsel_i]`. -/
def haltedSel (s : DmMem) (i : DmMemIn) : Bool := s.halted && i.hartsel = 0

/-- `state_d`. -/
def nextState (s : DmMem) (i : DmMemIn) (a : Option Access) : DmMemState :=
  match s.state with
  | .idle =>
    if (i.resumereq && i.hartsel = 0) && !(s.resuming && i.hartsel = 0) && !(i.haltreq && i.hartsel = 0) &&
        s.haltedSel i then .resume
    else if i.cmdValid && s.haltedSel i then .go
    else .idle
  | .go => if writes Going a then .cmdExecuting else .go
  | .resume => if s.resuming && i.hartsel = 0 then .idle else .resume
  | .cmdExecuting => if writesHart Halted a && i.hartsel = 0 then .idle else .cmdExecuting

/-- `cmderror_o`, if `cmderror_valid_o`. -/
def cmderror (s : DmMem) (i : DmMemIn) (a : Option Access) : Option ℕ :=
  if writes Exception a then some 3
  else if i.cmdValid ∧ Dm.unsupported i.cmd then some 2
  else if s.state = .idle ∧ i.cmdValid = true ∧ s.haltedSel i = false then some 4
  else none

/-- `data_o`, if `data_valid_o`. Whatever the address is, the data go to data0. -/
def dataO (i : DmMemIn) (a : Option Access) (merge : BitVec 4 → Word → Word → Word) : Option (ℕ → Word) :=
  match a with
  | some a =>
    if a.we ∧ DataAddr ≤ offset a ∧ offset a ≤ DataEnd then
      some (Function.update i.data 0 (merge a.be (i.data 0) a.wdata))
    else none
  | none => none

/-- The flags, byte by byte. -/
def flags (s : DmMem) (i : DmMemIn) (adr : ℕ) : BitVec 64 :=
  if adr / 8 * 8 - FlagsBase = i.hartsel / 8 * 8 % 2 ^ 12 then
    (BitVec.ofBool (s.state = .resume) ++ BitVec.ofBool (s.state = .go)).setWidth 64 <<< (8 * (i.hartsel % 8))
  else 0

/-- `rdata_d`. -/
def rdataD (s : DmMem) (i : DmMemIn) (a : Option Access) : BitVec 64 :=
  match a with
  | none => s.rdata
  | some a =>
    let adr := offset a
    if a.we then s.rdata
    else if adr = WhereTo then
      if s.cmdbusy then
        if Dm.cmdtype i.cmd = Dm.AccessRegister ∧ Dm.transfer i.cmd = false ∧ Dm.postexec i.cmd = true then
          .ofNat 64 (Dm.jal 0 (ProgBufBase - WhereTo))
        else .ofNat 64 (Dm.jal 0 (AbstractCmdBase - WhereTo))
      else if i.resumereq then .ofNat 64 (Dm.jal 0 (ResumeAddress - WhereTo))
      else s.rdata
    else if DataAddr ≤ adr ∧ adr ≤ DataEnd then
      let k := adr / 8 - DataAddr / 8
      i.data (k + 1) ++ i.data k
    else if ProgBufBase ≤ adr ∧ adr ≤ ProgBufEnd then
      let k := adr / 8 - ProgBufBase / 8
      i.progbuf (2 * k + 1) ++ i.progbuf (2 * k)
    else if AbstractCmdBase ≤ adr ∧ adr ≤ AbstractCmdEnd then
      let k := adr / 8 - AbstractCmdBase / 8
      let word (j : ℕ) : Word := .ofNat 32 ((Dm.abstractCmd i.cmd).getD j 0)
      word (2 * k + 1) ++ word (2 * k)
    else if FlagsBase ≤ adr ∧ adr ≤ FlagsEnd then s.flags i adr
    else s.rdata

/-- `rdata_o`, which the hart sees at the end of the access. -/
def rdataO (s : DmMem) (i : DmMemIn) (a : Access) : Word :=
  if HaltAddress ≤ offset a then .ofNat 32 (debugRom.getD (offset a % 2 ^ 8 / 4) 0)
  else if (offset a / 4) % 2 = 1 then (s.rdataD i (some a)).extractLsb' 32 32
  else (s.rdataD i (some a)).setWidth 32

/-- An edge of the clock, with the access of the hart. -/
def edge (s : DmMem) (i : DmMemIn) (a : Option Access) : DmMem where
  state := s.nextState i a
  halted := if writesHart Halted a then true else if writesHart Resuming a then false else s.halted
  resuming :=
    if writesHart Resuming a then true else if i.clearResumeack && i.hartsel = 0 then false else s.resuming
  rdata := s.rdataD i a

end DmMem

end PyOcdRiscv.Target
