import PyOcdRiscv.Target.DmiJtag
import PyOcdRiscv.Target.SystemBus
import PyOcdRiscv.Lib.Runs

/-!
# System bus access, clock by clock

`dm_sba.sv` and the registers of `dm_csrs.sv` that drive it, for a bus of 32 bits: SBCS, SBADDRESS and
SBDATA. An access takes as long as the bus takes to grant and to answer it, and while it lasts a request
to SBADDRESS or SBDATA, or a write of SBCS, is refused: it does nothing but set `sbbusyerror`, and a read
is answered with zero.

The registers are held at zero until the module is made active, by a write of DMCONTROL. `dm_sba` is not:
an access that is begun before that is made all the same (`begins_edge`), with what the registers then say.

`SystemBus` is what the debugger sees if every access is over before the next request. Here it is
shown to be what the requests that are not refused see (`Settles`, `serves_unless_refused`), whatever the bus
does, as long as no access is begun while the module is not active, and it is not made inactive during one.
-/

namespace PyOcdRiscv.Target

open Lib

/-! ### SBCS -/

/-- `sbcs_t`. -/
structure Sbcs where
  version : BitVec 3
  zero0 : BitVec 6
  busyerror : Bool
  busy : Bool
  readonaddr : Bool
  access : BitVec 3
  autoincrement : Bool
  readondata : Bool
  error : BitVec 3
  asize : BitVec 7
  access128 : Bool
  access64 : Bool
  access32 : Bool
  access16 : Bool
  access8 : Bool
  deriving DecidableEq

namespace Sbcs

/-- A word, field by field. -/
def ofWord (w : Word) : Sbcs where
  version := w.extractLsb' 29 3
  zero0 := w.extractLsb' 23 6
  busyerror := w.getLsbD 22
  busy := w.getLsbD 21
  readonaddr := w.getLsbD 20
  access := w.extractLsb' 17 3
  autoincrement := w.getLsbD 16
  readondata := w.getLsbD 15
  error := w.extractLsb' 12 3
  asize := w.extractLsb' 5 7
  access128 := w.getLsbD 4
  access64 := w.getLsbD 3
  access32 := w.getLsbD 2
  access16 := w.getLsbD 1
  access8 := w.getLsbD 0

/-- The word. -/
def toWord (s : Sbcs) : Word :=
  s.version ++ s.zero0 ++ BitVec.ofBool s.busyerror ++ BitVec.ofBool s.busy ++ BitVec.ofBool s.readonaddr ++ s.access ++
    BitVec.ofBool s.autoincrement ++ BitVec.ofBool s.readondata ++ s.error ++ s.asize ++ BitVec.ofBool s.access128 ++
    BitVec.ofBool s.access64 ++ BitVec.ofBool s.access32 ++ BitVec.ofBool s.access16 ++ BitVec.ofBool s.access8

/-- The fields that nobody can write. -/
def static (s : Sbcs) (busy : Bool) : Sbcs :=
  { s with
    version := 1
    busy := busy
    asize := 32
    access128 := false
    access64 := false
    access32 := true
    access16 := false
    access8 := false
    access := 2 }

end Sbcs

/-! ### `dm_sba` -/

/-- `state_e`. -/
inductive SbaState where
  | idle | read | write | waitRead | waitWrite
  deriving DecidableEq, Repr

/-- What `dm_csrs` tells `dm_sba`. -/
structure SbaIn where
  /-- `sbaddress_i`. -/
  address : Word
  /-- `sbaddress_write_valid_i`. -/
  addressWriteValid : Bool
  /-- `sbreadonaddr_i`. -/
  readonaddr : Bool
  /-- `sbautoincrement_i`. -/
  autoincrement : Bool
  /-- `sbaccess_i`. -/
  access : BitVec 3
  /-- `sbreadondata_i`. -/
  readondata : Bool
  /-- `sbdata_i`. -/
  data : Word
  /-- `sbdata_read_valid_i`. -/
  dataReadValid : Bool
  /-- `sbdata_write_valid_i`. -/
  dataWriteValid : Bool

/-- What the bus tells `dm_sba`. -/
structure SbaBus where
  /-- `master_gnt_i`. -/
  gnt : Bool
  /-- `master_r_valid_i`. -/
  rValid : Bool
  /-- `master_r_rdata_i`. -/
  rData : Word

namespace SbaState

/-- `sbbusy_o`. -/
def busy (s : SbaState) : Bool := s ≠ .idle

/-- `sberror_valid_o`: the access is too wide. -/
def errorValid (s : SbaState) (i : SbaIn) : Bool := 3 < i.access.toNat ∧ s ≠ .idle

/-- `master_req_o`. -/
def req (s : SbaState) (i : SbaIn) : Bool := (s = .read ∨ s = .write) ∧ s.errorValid i = false

/-- `master_we_o`. -/
def we (s : SbaState) : Bool := s = .write

/-- `master_be_o`. -/
def be (s : SbaState) (i : SbaIn) : BitVec 4 :=
  if s = .write then
    match i.access.toNat with
    | 0 => (1 : BitVec 4) <<< (i.address.toNat % 4)
    | 1 => (3 : BitVec 4) <<< (2 * (i.address.toNat / 2 % 2))
    | 2 => 0b1111
    | 3 => 0b1111
    | _ => 0
  else 0

/-- `sbaddress_o`. -/
def addressO (s : SbaState) (i : SbaIn) (b : SbaBus) : Word :=
  if (s = .waitRead ∨ s = .waitWrite) ∧ b.rValid = true ∧ i.autoincrement = true then
    i.address + (1 : Word) <<< i.access.toNat
  else i.address

/-- `state_d`. -/
def next (s : SbaState) (i : SbaIn) (b : SbaBus) : SbaState :=
  if s.errorValid i then .idle
  else
    match s with
    | .idle =>
      if i.dataReadValid ∧ i.readondata then .read
      else if i.dataWriteValid then .write
      else if i.addressWriteValid ∧ i.readonaddr then .read
      else .idle
    | .read => if b.gnt then .waitRead else .read
    | .write => if b.gnt then .waitWrite else .write
    | .waitRead => if b.rValid then .idle else .waitRead
    | .waitWrite => if b.rValid then .idle else .waitWrite

end SbaState

/-! ### The registers -/

/-- `sbcs_q`, `sbaddr_q` and `sbdata_q`. -/
structure SbRegs where
  sbcs : Sbcs
  sbaddr : BitVec 64
  sbdata : BitVec 64

namespace SbRegs

/-- After a reset. -/
def fresh : SbRegs := ⟨.ofWord 0, 0, 0⟩

/-- `resp_queue_data` of a read of register `adr`. -/
def respData (s : SbRegs) (busy : Bool) (adr : ℕ) : Word :=
  if adr = 0x38 then s.sbcs.toWord
  else if adr = 0x39 then if busy then 0 else s.sbaddr.setWidth 32
  else if adr = 0x3a then if busy then 0 else s.sbaddr.extractLsb' 32 32
  else if adr = 0x3c then if busy then 0 else s.sbdata.setWidth 32
  else if adr = 0x3d then if busy then 0 else s.sbdata.extractLsb' 32 32
  else 0

/-- A request is turned away because an access is under way. -/
def Refuses (busy : Bool) (r : Request) : Prop :=
  busy = true ∧ (r.op = DTM_READ ∧ r.adr ∈ [0x39, 0x3a, 0x3c, 0x3d] ∨
    r.op = DTM_WRITE ∧ r.adr ∈ [0x38, 0x39, 0x3a, 0x3c, 0x3d])

instance (busy : Bool) (r : Request) : Decidable (Refuses busy r) :=
  inferInstanceAs (Decidable (_ ∧ (_ ∧ _ ∨ _ ∧ _)))

/-- SBCS written. -/
def writeSbcs (s : Sbcs) (w : Word) : Sbcs :=
  let sbcs := Sbcs.ofWord w
  { sbcs with
    busyerror := s.busyerror && !sbcs.busyerror
    error := s.error &&& ~~~sbcs.error }

/-- What a request does to the registers. -/
def request (s : SbRegs) (busy : Bool) (r : Request) : SbRegs :=
  if Refuses busy r then { s with sbcs := { s.sbcs with busyerror := true } }
  else if r.op = DTM_WRITE then
    if r.adr = 0x38 then { s with sbcs := writeSbcs s.sbcs (.ofNat 32 r.data) }
    else if r.adr = 0x39 then { s with sbaddr := s.sbaddr.extractLsb' 32 32 ++ BitVec.ofNat 32 r.data }
    else if r.adr = 0x3a then { s with sbaddr := BitVec.ofNat 32 r.data ++ s.sbaddr.extractLsb' 0 32 }
    else if r.adr = 0x3c then { s with sbdata := s.sbdata.extractLsb' 32 32 ++ BitVec.ofNat 32 r.data }
    else if r.adr = 0x3d then { s with sbdata := BitVec.ofNat 32 r.data ++ s.sbdata.extractLsb' 0 32 }
    else s
  else s

/-- The request, if there is one, is this one and is not refused, and no error is noted. -/
def valid (s : SbRegs) (busy : Bool) (op adr : ℕ) (r : Option Request) : Bool :=
  match r with
  | some r => r.op = op ∧ r.adr = adr ∧ busy = false ∧ s.sbcs.error = 0
  | none => false

/-- What `dm_sba` is told. -/
def sbaIn (s : SbRegs) (busy : Bool) (r : Option Request) : SbaIn where
  address := s.sbaddr.setWidth 32
  addressWriteValid := s.valid busy DTM_WRITE 0x39 r
  readonaddr := s.sbcs.readonaddr
  autoincrement := s.sbcs.autoincrement
  access := s.sbcs.access
  readondata := s.sbcs.readondata
  data := s.sbdata.setWidth 32
  dataReadValid := s.valid busy DTM_READ 0x3c r
  dataWriteValid := s.valid busy DTM_WRITE 0x3c r

/-- The registers after an edge. -/
def edge (s : SbRegs) (sba : SbaState) (b : SbaBus) (r : Option Request) : SbRegs :=
  let i := s.sbaIn sba.busy r
  let s := { s with sbaddr := (sba.addressO i b).setWidth 64 }
  let s := r.elim s (s.request sba.busy)
  let s := if sba.errorValid i then { s with sbcs := { s.sbcs with error := 3 } } else s
  let s := if b.rValid then { s with sbdata := b.rData.setWidth 64 } else s
  { s with sbcs := s.sbcs.static sba.busy }

end SbRegs

/-! ### With the bus -/

/-- What a memory on the bus does at an edge: it grants a request if there is one, and answers the one
it has granted. `data` is what is on its data lines if it does not answer a read. -/
structure BusIn where
  grant : Bool
  answer : Bool
  data : Word

/-- The bytes that are written. -/
def merge (be : BitVec 4) (old new : Word) : Word :=
  let byte (k : ℕ) : BitVec 8 := (if be.getLsbD k then new else old).extractLsb' (8 * k) 8
  byte 3 ++ byte 2 ++ byte 1 ++ byte 0

/-- What is written to register `adr`. -/
def written (adr : ℕ) : Option Request → Option Word
  | some r => if r.op = DTM_WRITE ∧ r.adr = adr then some (.ofNat 32 r.data) else none
  | none => none

/-- The registers, `dm_sba`, and a memory on the bus. -/
structure SbPort where
  regs : SbRegs
  /-- `dmcontrol_q.dmactive`. -/
  dmactive : Bool
  /-- `state_q`. -/
  sba : SbaState
  /-- The memory, word by word. -/
  mem : Word → Word
  /-- The answer that is owed. -/
  owed : Option Word

namespace SbPort

/-- What `dm_sba` is told. -/
def sbaIn (s : SbPort) (r : Option Request) : SbaIn := s.regs.sbaIn s.sba.busy r

/-- What the memory tells `dm_sba`. -/
def bus (s : SbPort) (i : BusIn) (r : Option Request) : SbaBus where
  gnt := i.grant && s.sba.req (s.sbaIn r)
  rValid := i.answer && s.owed.isSome
  rData := if i.answer then s.owed.getD i.data else i.data

/-- An edge of the clock, with the request that is accepted. -/
def edge (s : SbPort) (i : BusIn) (r : Option Request) : SbPort :=
  let b := s.bus i r
  let adr := (s.sbaIn r).address
  { regs := if s.dmactive then s.regs.edge s.sba b r else .fresh
    dmactive := (written 0x10 r).elim s.dmactive (·.getLsbD 0)
    sba := s.sba.next (s.sbaIn r) b
    mem :=
      if b.gnt ∧ s.sba.we = true then
        Function.update s.mem adr (merge (s.sba.be (s.sbaIn r)) (s.mem adr) (s.sbaIn r).data)
      else s.mem
    owed :=
      if b.gnt then some (if s.sba.we then i.data else s.mem adr)
      else if b.rValid then none
      else s.owed }

end SbPort

/-! ### What the debugger sees -/

/-- A request with which an access begins. -/
def BeginsAccess (readonaddr readondata : Bool) (r : Request) : Prop :=
  r.op = DTM_READ ∧ r.adr = 0x3c ∧ readondata = true ∨
    r.op = DTM_WRITE ∧ (r.adr = 0x3c ∨ r.adr = 0x39 ∧ readonaddr = true)

instance (readonaddr readondata : Bool) (r : Request) : Decidable (BeginsAccess readonaddr readondata r) :=
  inferInstanceAs (Decidable (_ ∧ _ ∧ _ ∨ _ ∧ (_ ∨ _ ∧ _)))

/-- The registers and the memory as the debugger sees them. After a write SBDATA0 holds whatever was on
the data lines of the bus: it is not `known` then. -/
structure BusView where
  bus : SystemBus
  known : Bool

namespace BusView

/-- A request that is not refused. -/
def serve (v : BusView) (r : Request) : BusView :=
  if r.op = DTM_READ then
    ⟨(v.bus.read r.adr).2, v.known || (r.adr = 0x3c && v.bus.readondata)⟩
  else if r.op = DTM_WRITE then
    ⟨v.bus.write r.adr (.ofNat 32 r.data),
      if r.adr = 0x3c then false else v.known || (r.adr = 0x39 && v.bus.readonaddr)⟩
  else v

/-- The module is not active: the registers are zero. -/
def asleep (v : BusView) : BusView where
  bus := { v.bus with autoincrement := false, readonaddr := false, readondata := false, address := 0, data := 0 }
  known := true

end BusView

/-- What else is read of the registers. -/
structure BusRest where
  /-- SBCS says what the bus can do: it does so from the first edge on at which the module is active. -/
  awake : Bool
  zero0 : BitVec 6
  /-- `sbbusy`, which comes an edge late. -/
  busy : Bool
  /-- SBADDRESS1, which is gone after the next edge. -/
  address1 : Word
  /-- SBDATA1, which is gone after the next access. -/
  data1 : Word

/-- What a run has done: the debugger's view, whether a request has been refused that the debugger has
not been told of, and the rest. -/
structure BusAccount where
  view : BusView
  missed : Bool
  rest : BusRest

namespace BusAccount

/-- SBCS. -/
def sbcs (a : BusAccount) : Sbcs :=
  let s : Sbcs :=
    { Sbcs.ofWord 0 with
      zero0 := a.rest.zero0
      busyerror := a.missed
      readonaddr := a.view.bus.readonaddr
      autoincrement := a.view.bus.autoincrement
      readondata := a.view.bus.readondata }
  if a.rest.awake then s.static a.rest.busy else s

/-- What is answered to a read of register `adr` that is not refused, if that does not depend on the bus. -/
def answer (a : BusAccount) (adr : ℕ) : Option Word :=
  if adr = 0x38 then some a.sbcs.toWord
  else if adr = 0x39 then some a.view.bus.address
  else if adr = 0x3a then some a.rest.address1
  else if adr = 0x3c then if a.view.known then some a.view.bus.data else none
  else if adr = 0x3d then some a.rest.data1
  else none

end BusAccount

namespace SbPort

/-- SBADDRESS0. -/
def address (s : SbPort) : Word := s.regs.sbaddr.setWidth 32

/-- SBDATA0. -/
def data (s : SbPort) : Word := s.regs.sbdata.setWidth 32

/-- What SBDATA0 will hold when the access is over, if that does not depend on the bus. -/
def held (s : SbPort) : Option Word :=
  match s.sba with
  | .idle => some s.data
  | .read => some (s.mem s.address)
  | .waitRead => s.owed
  | .write | .waitWrite => none

/-- What a request may not do: begin an access while the module is not active, or make it inactive during
one. -/
def Orderly (s : SbPort) (r : Option Request) : Prop :=
  (s.dmactive = false → ∀ q ∈ r, ¬ BeginsAccess s.regs.sbcs.readonaddr s.regs.sbcs.readondata q) ∧
    ((written 0x10 r).any (!·.getLsbD 0) = true → s.sba = .idle)

instance (s : SbPort) (r : Option Request) : Decidable (s.Orderly r) :=
  inferInstanceAs (Decidable (_ ∧ _))

/-- The debugger sees what will be there when the access is over. -/
structure Settles (s : SbPort) (v : BusView) : Prop where
  active : s.sba ≠ .idle → s.dmactive = true ∧ s.regs.sbcs.access = 2
  error : s.regs.sbcs.error = 0
  owed : s.owed.isSome = true ↔ s.sba = .waitRead ∨ s.sba = .waitWrite
  autoincrement : v.bus.autoincrement = s.regs.sbcs.autoincrement
  readonaddr : v.bus.readonaddr = s.regs.sbcs.readonaddr
  readondata : v.bus.readondata = s.regs.sbcs.readondata
  address : v.bus.address =
    if s.sba ≠ .idle ∧ s.regs.sbcs.autoincrement = true then s.address + 4 else s.address
  mem : v.bus.mem = if s.sba = .write then Function.update s.mem s.address s.data else s.mem
  data : v.known = true → s.held = some v.bus.data

/-- The rest is what the registers hold. -/
structure Shows (s : SbPort) (t : BusRest) : Prop where
  awake : t.awake = true → s.regs.sbcs.static t.busy = s.regs.sbcs
  asleep : t.awake = false → s.regs.sbcs = .ofWord 0
  zero0 : s.regs.sbcs.zero0 = t.zero0
  address1 : s.regs.sbaddr.extractLsb' 32 32 = t.address1
  data1 : t.data1 = if s.sba = .idle then s.regs.sbdata.extractLsb' 32 32 else 0

end SbPort

/-! ### While an access lasts -/

theorem merge_all (old new : Word) : merge 0b1111 old new = new := by
  change new.extractLsb' (8 * 3) 8 ++ new.extractLsb' (8 * 2) 8 ++ new.extractLsb' (8 * 1) 8 ++
    new.extractLsb' (8 * 0) 8 = new
  apply BitVec.eq_of_getLsbD_eq
  intro i hi
  simp only [BitVec.getLsbD_append, BitVec.getLsbD_extractLsb']
  grind

namespace SbRegs

/-- A request that finds `dm_sba` busy changes at most `sbbusyerror`. -/
theorem request_busy (s : SbRegs) (r : Request) :
    s.request true r = { s with sbcs := { s.sbcs with busyerror := Refuses true r || s.sbcs.busyerror } } := by
  by_cases h : Refuses true r
  · simp [request, h]
  · have hkeep : (decide (Refuses true r) || s.sbcs.busyerror) = s.sbcs.busyerror := by simp [h]
    rw [request, if_neg h, hkeep]
    by_cases hop : r.op = DTM_WRITE
    · have hadr : r.adr ∉ [0x38, 0x39, 0x3a, 0x3c, 0x3d] := fun hadr => h ⟨rfl, Or.inr ⟨hop, hadr⟩⟩
      simp only [List.mem_cons, List.not_mem_nil, or_false, not_or] at hadr
      rw [if_pos hop, if_neg hadr.1, if_neg hadr.2.1, if_neg hadr.2.2.1, if_neg hadr.2.2.2.1, if_neg hadr.2.2.2.2]
    · rw [if_neg hop]

@[simp] theorem valid_busy (s : SbRegs) (op adr : ℕ) (r : Option Request) : s.valid true op adr r = false := by
  cases r <;> simp [valid]

end SbRegs

namespace SbPort

variable {s : SbPort} {v : BusView} {i : BusIn} {r : Option Request}

theorem errorValid_eq (h : s.sba ≠ .idle → s.regs.sbcs.access = 2) (r : Option Request) :
    s.sba.errorValid (s.sbaIn r) = false := by
  by_cases hs : s.sba = .idle
  · simp [SbaState.errorValid, hs]
  · simp [SbaState.errorValid, sbaIn, SbRegs.sbaIn, h hs]

/-- The module stays active, unless it is made inactive. -/
theorem dmactive_edge (hact : s.dmactive = true) (hr : (written 0x10 r).any (!·.getLsbD 0) ≠ true) (i : BusIn) :
    (s.edge i r).dmactive = true := by
  change (written 0x10 r).elim s.dmactive (·.getLsbD 0) = true
  cases hw : written 0x10 r with
  | none => exact hact
  | some w => simpa [hw] using hr

/-- The registers before the request is looked at. -/
def regsBefore (s : SbPort) (i : BusIn) (r : Option Request) : SbRegs :=
  { s.regs with sbaddr := (s.sba.addressO (s.sbaIn r) (s.bus i r)).setWidth 64 }

/-- The registers after an edge. -/
theorem regs_edge (hact : s.dmactive = true) (h : s.sba ≠ .idle → s.regs.sbcs.access = 2) (i : BusIn)
    (r : Option Request) :
    (s.edge i r).regs =
      let t := r.elim (s.regsBefore i r) ((s.regsBefore i r).request s.sba.busy)
      { sbcs := t.sbcs.static s.sba.busy
        sbaddr := t.sbaddr
        sbdata := if (s.bus i r).rValid then (s.bus i r).rData.setWidth 64 else t.sbdata } := by
  change (if s.dmactive = true then s.regs.edge s.sba (s.bus i r) r else .fresh) = _
  have herr := errorValid_eq h r
  rw [sbaIn] at herr
  rw [if_pos hact, SbRegs.edge]
  simp only [herr, if_neg Bool.false_ne_true]
  cases (s.bus i r).rValid <;> rfl

theorem busy_eq_true (h : s.sba ≠ .idle) : s.sba.busy = true := by simp [SbaState.busy, h]

/-- The registers after an edge during an access. -/
theorem regs_edge_busy (hact : s.dmactive = true ∧ s.regs.sbcs.access = 2) (hbusy : s.sba ≠ .idle) (i : BusIn)
    (r : Option Request) :
    (s.edge i r).regs =
      { sbcs := { s.regs.sbcs with
            busyerror := r.any (SbRegs.Refuses true ·) || s.regs.sbcs.busyerror }.static true
        sbaddr := (s.regsBefore i r).sbaddr
        sbdata := if (s.bus i r).rValid then (s.bus i r).rData.setWidth 64 else s.regs.sbdata } := by
  rw [regs_edge hact.1 fun _ => hact.2, busy_eq_true hbusy]
  cases r with
  | none => rfl
  | some r =>
    simp only [Option.elim_some, SbRegs.request_busy]
    rfl

/-- What an edge can do to an access. -/
inductive Moves (s s' : SbPort) : Prop
  /-- The bus does nothing. -/
  | wait (hsba : s'.sba = s.sba) (hmem : s'.mem = s.mem) (howed : s'.owed = s.owed)
      (haddress : s'.address = s.address) (hdata : s'.data = s.data)
  /-- A read is granted. -/
  | grantRead (hsba : s.sba = .read) (hsba' : s'.sba = .waitRead) (hmem : s'.mem = s.mem)
      (howed : s'.owed = some (s.mem s.address)) (haddress : s'.address = s.address)
  /-- A write is granted. -/
  | grantWrite (hsba : s.sba = .write) (hsba' : s'.sba = .waitWrite)
      (hmem : s'.mem = Function.update s.mem s.address s.data) (howed : s'.owed.isSome = true)
      (haddress : s'.address = s.address)
  /-- An access is answered. -/
  | answer (hsba : s.sba = .waitRead ∨ s.sba = .waitWrite) (hsba' : s'.sba = .idle) (hmem : s'.mem = s.mem)
      (howed : s'.owed = none)
      (haddress : s'.address = if s.regs.sbcs.autoincrement = true then s.address + 4 else s.address)
      (hdata : s.owed = some s'.data)

/-- SBADDRESS0 and SBDATA0 after an edge during an access. -/
theorem address_edge_busy (hact : s.dmactive = true ∧ s.regs.sbcs.access = 2) (hbusy : s.sba ≠ .idle) (i : BusIn)
    (r : Option Request) :
    (s.edge i r).address = s.sba.addressO (s.sbaIn r) (s.bus i r) ∧
      (s.edge i r).data = if (s.bus i r).rValid then (s.bus i r).rData else s.data := by
  rw [address, data, regs_edge_busy hact hbusy]
  refine ⟨by simp [regsBefore], ?_⟩
  dsimp only
  split <;> simp [data]

/-- An access that has not been granted. -/
theorem edge_moves_requested (hact : s.dmactive = true ∧ s.regs.sbcs.access = 2) (hs : s.sba = .read ∨ s.sba = .write)
    (hnone : s.owed = none) (i : BusIn) (r : Option Request) : Moves s (s.edge i r) := by
  have hbusy : s.sba ≠ .idle := by rcases hs with hs | hs <;> simp [hs]
  obtain ⟨hadr, hdat⟩ := address_edge_busy hact hbusy i r
  have herr := errorValid_eq (fun _ => hact.2) r
  have hreq : s.sba.req (s.sbaIn r) = true := by simp [SbaState.req, herr, hs]
  have hgnt : (s.bus i r).gnt = i.grant := by simp [bus, hreq]
  have hval : (s.bus i r).rValid = false := by simp [bus, hnone]
  have hadr' : (s.edge i r).address = s.address := by
    rw [hadr, SbaState.addressO, if_neg (by simp [hval])]
    rfl
  rw [hval] at hdat
  have howed' : (s.edge i r).owed =
      if i.grant = true then some (if s.sba.we then i.data else s.mem s.address) else s.owed := by
    change (if (s.bus i r).gnt = true then _ else if (s.bus i r).rValid = true then none else s.owed) = _
    rw [hgnt, hval]
    rfl
  have hmem : (s.edge i r).mem = if i.grant = true ∧ s.sba.we = true then
      Function.update s.mem s.address (merge (s.sba.be (s.sbaIn r)) (s.mem s.address) s.data) else s.mem := by
    rw [← hgnt]
    rfl
  have hnext : (s.edge i r).sba = s.sba.next (s.sbaIn r) (s.bus i r) := rfl
  cases hg : i.grant with
  | false =>
    rw [hg] at hgnt howed' hmem
    refine .wait ?_ hmem howed' hadr' hdat
    rw [hnext]
    rcases hs with hs | hs <;> rw [hs] at herr ⊢ <;> simp [SbaState.next, herr, hgnt]
  | true =>
    rw [hg] at hgnt howed' hmem
    rcases hs with hs | hs
    · rw [hs] at herr hmem howed' hnext
      exact .grantRead hs (by simp [hnext, SbaState.next, herr, hgnt]) hmem howed' hadr'
    · have hbe : SbaState.write.be (s.sbaIn r) = 0b1111 := by simp [SbaState.be, sbaIn, SbRegs.sbaIn, hact.2]
      rw [hs] at herr hmem howed' hnext
      rw [hbe, merge_all] at hmem
      exact .grantWrite hs (by simp [hnext, SbaState.next, herr, hgnt]) hmem (by rw [howed']; rfl) hadr'

/-- An access that has been granted. -/
theorem edge_moves_granted (hact : s.dmactive = true ∧ s.regs.sbcs.access = 2)
    (hs : s.sba = .waitRead ∨ s.sba = .waitWrite) {d : Word} (hd : s.owed = some d) (i : BusIn)
    (r : Option Request) : Moves s (s.edge i r) := by
  have hbusy : s.sba ≠ .idle := by rcases hs with hs | hs <;> simp [hs]
  obtain ⟨hadr, hdat⟩ := address_edge_busy hact hbusy i r
  have herr := errorValid_eq (fun _ => hact.2) r
  have hreq : s.sba.req (s.sbaIn r) = false := by rcases hs with hs | hs <;> simp [SbaState.req, hs]
  have hgnt : (s.bus i r).gnt = false := by simp [bus, hreq]
  have hval : (s.bus i r).rValid = i.answer := by simp [bus, hd]
  have hmem : (s.edge i r).mem = s.mem := if_neg (by simp [hgnt])
  have howed' : (s.edge i r).owed = if i.answer = true then none else s.owed := by
    change (if (s.bus i r).gnt = true then _ else if (s.bus i r).rValid = true then none else s.owed) = _
    rw [hgnt, hval]
    rfl
  have hnext : (s.edge i r).sba = if i.answer = true then .idle else s.sba := by
    change s.sba.next (s.sbaIn r) (s.bus i r) = _
    rw [← hval]
    unfold SbaState.next
    rw [if_neg (by simp [herr])]
    rcases hs with hs | hs <;> rw [hs]
  rw [hval] at hdat
  cases hans : i.answer with
  | false =>
    rw [hans] at hval howed' hnext hdat
    refine .wait hnext hmem howed' ?_ hdat
    rw [hadr, SbaState.addressO, if_neg (by simp [hval])]
    rfl
  | true =>
    rw [hans] at hval howed' hnext hdat
    refine .answer hs hnext hmem howed' ?_ ?_
    · have hsize : (1 : Word) <<< (s.sbaIn r).access.toNat = 4 := by simp [sbaIn, SbRegs.sbaIn, hact.2]
      rw [hadr, SbaState.addressO, hsize, hval]
      simp only [hs, true_and]
      rfl
    · rw [hdat, hd]
      simp [bus, hans, hd]

/-- An access that comes to its end has been answered. -/
theorem rValid_of_over (hact : s.dmactive = true ∧ s.regs.sbcs.access = 2) (hbusy : s.sba ≠ .idle)
    (hs' : (s.edge i r).sba = .idle) : (s.bus i r).rValid = true := by
  have herr := errorValid_eq (fun _ => hact.2) r
  change s.sba.next (s.sbaIn r) (s.bus i r) = .idle at hs'
  unfold SbaState.next at hs'
  rw [if_neg (by simp [herr])] at hs'
  cases hs : s.sba with
  | idle => exact absurd hs hbusy
  | read | write =>
    rw [hs] at hs'
    dsimp only at hs'
    split_ifs at hs'
  | waitRead | waitWrite =>
    rw [hs] at hs'
    by_contra hval
    exact absurd ((if_neg hval).symm.trans hs') (by decide)

/-- An access goes on, or comes to its end, whatever is requested. -/
theorem Settles.edge_busy (h : Settles s v) (hbusy : s.sba ≠ .idle) (hord : s.Orderly r) (i : BusIn) :
    Settles (s.edge i r) v := by
  have hact := h.active hbusy
  have he := regs_edge_busy hact hbusy i r
  have hmoves : Moves s (s.edge i r) := by
    by_cases howed : s.owed.isSome = true
    · obtain ⟨d, hd⟩ := Option.isSome_iff_exists.mp howed
      exact edge_moves_granted hact (h.owed.mp howed) hd i r
    · refine edge_moves_requested hact ?_ (by simpa using howed) i r
      have hnot := mt h.owed.mpr howed
      cases hs : s.sba <;> simp_all
  have hact' : (s.edge i r).dmactive = true := dmactive_edge hact.1 (fun hr => hbusy (hord.2 hr)) i
  obtain ⟨-, herror, howed, hinc, hroa, hrod, hadr, hmem, hdata⟩ := h
  have hinc' : (s.edge i r).regs.sbcs.autoincrement = s.regs.sbcs.autoincrement := by rw [he]; rfl
  refine ⟨fun _ => ⟨hact', by rw [he]; rfl⟩, by rw [he]; exact herror, ?_, hinc.trans hinc'.symm, by rw [he]; exact hroa,
    by rw [he]; exact hrod, ?_, ?_, ?_⟩
  · cases hmoves with
    | wait hsba _ ho => rw [ho, hsba, howed]
    | grantRead _ hsba' _ ho => simp [ho, hsba']
    | grantWrite _ hsba' _ ho => simp [ho, hsba']
    | answer _ hsba' _ ho => simp [ho, hsba']
  · rw [hinc', hadr]
    cases hmoves with
    | wait hsba _ _ ha => rw [hsba, ha]
    | grantRead hsba hsba' _ _ ha => simp [hsba, hsba', ha]
    | grantWrite hsba hsba' _ _ ha => simp [hsba, hsba', ha]
    | answer hsba hsba' _ _ ha => simp [hbusy, hsba', ha]
  · rw [hmem]
    cases hmoves with
    | wait hsba hm _ ha hd => rw [hsba, hm, ha, hd]
    | grantRead hsba hsba' hm => simp [hsba, hsba', hm]
    | grantWrite hsba hsba' hm => simp [hsba, hsba', hm]
    | answer hsba hsba' hm => rcases hsba with hsba | hsba <;> simp [hsba, hsba', hm]
  · intro hknown
    have hheld := hdata hknown
    cases hmoves with
    | wait hsba hm ho ha hd => rwa [held, hsba, hm, ho, ha, hd]
    | grantRead hsba hsba' _ ho =>
      rw [held, hsba] at hheld
      rw [held, hsba']
      exact ho.trans hheld
    | grantWrite hsba =>
      rw [held, hsba] at hheld
      cases hheld
    | answer hsba hsba' _ _ _ hd =>
      rw [held, hsba']
      rcases hsba with hsba | hsba
      · rw [held, hsba] at hheld
        exact hd.symm.trans hheld
      · rw [held, hsba] at hheld
        cases hheld

end SbPort

/-! ### Between two accesses -/

/-- A request that finds `dm_sba` idle. -/
theorem SbRegs.request_idle (s : SbRegs) (r : Request) :
    (s.request false r).sbcs = (written 0x38 (some r)).elim s.sbcs (writeSbcs s.sbcs) ∧
      (s.request false r).sbaddr.setWidth 32 = (written 0x39 (some r)).getD (s.sbaddr.setWidth 32) ∧
      (s.request false r).sbdata.setWidth 32 = (written 0x3c (some r)).getD (s.sbdata.setWidth 32) := by
  have hnot : ¬ Refuses false r := fun h => Bool.false_ne_true h.1
  have happ (x y : Word) : (x ++ y).setWidth 32 = y := BitVec.setWidth_append_eq_right
  have hlow (x : BitVec 64) : x.extractLsb' 0 32 = x.setWidth 32 :=
    (BitVec.setWidth_eq_extractLsb' (by decide)).symm
  rw [request, if_neg hnot]
  simp only [written]
  by_cases hop : r.op = DTM_WRITE
  · simp only [hop, if_pos, true_and]
    split_ifs <;> simp_all
  · simp [hop]

/-- What such a request does to the upper halves. -/
theorem SbRegs.request_idle_high (s : SbRegs) (r : Request) :
    (s.request false r).sbaddr.extractLsb' 32 32 =
        (written 0x3a (some r)).getD (s.sbaddr.extractLsb' 32 32) ∧
      (s.request false r).sbdata.extractLsb' 32 32 =
        (written 0x3d (some r)).getD (s.sbdata.extractLsb' 32 32) := by
  have hnot : ¬ Refuses false r := fun h => Bool.false_ne_true h.1
  have happ (x y : Word) : (x ++ y).extractLsb' 32 32 = x := BitVec.extractLsb'_append_eq_left
  rw [request, if_neg hnot]
  simp only [written]
  by_cases hop : r.op = DTM_WRITE
  · simp only [hop, if_pos, true_and]
    split_ifs <;> simp_all
  · simp [hop]

namespace SbPort

variable {s : SbPort} {v : BusView}

/-- At an edge between two accesses nothing is granted or answered. -/
theorem bus_idle (hs : s.sba = .idle) (hnone : s.owed = none) (i : BusIn) (r : Option Request) :
    (s.bus i r).gnt = false ∧ (s.bus i r).rValid = false := by
  have hreq : s.sba.req (s.sbaIn r) = false := by simp [SbaState.req, hs]
  exact ⟨by simp [bus, hreq], by simp [bus, hnone]⟩

/-- The memory does not change, and owes no answer, whether the module is active or not. -/
theorem mem_edge_idle (hs : s.sba = .idle) (hnone : s.owed = none) (i : BusIn) (r : Option Request) :
    (s.edge i r).mem = s.mem ∧ (s.edge i r).owed = none := by
  obtain ⟨hgnt, hval⟩ := bus_idle hs hnone i r
  refine ⟨if_neg (by simp [hgnt]), ?_⟩
  change (if (s.bus i r).gnt = true then _ else if (s.bus i r).rValid = true then none else s.owed) = none
  rw [hgnt, hval]
  exact hnone

/-- An edge between two accesses. -/
theorem edge_idle (hact : s.dmactive = true) (hs : s.sba = .idle) (hnone : s.owed = none) (i : BusIn)
    (r : Option Request) :
    (s.edge i r).regs.sbcs = ((written 0x38 r).elim s.regs.sbcs (SbRegs.writeSbcs s.regs.sbcs)).static false ∧
      (s.edge i r).address = (written 0x39 r).getD s.address ∧ (s.edge i r).data = (written 0x3c r).getD s.data ∧
      (s.edge i r).mem = s.mem ∧ (s.edge i r).owed = none := by
  have hval := (bus_idle hs hnone i r).2
  have hbusy : s.sba.busy = false := by simp [SbaState.busy, hs]
  have hadr : s.sba.addressO (s.sbaIn r) (s.bus i r) = s.address := if_neg (by simp [hs])
  have hregs := regs_edge hact (fun h => absurd hs h) i r
  rw [hval, hbusy] at hregs
  rw [address, data, hregs]
  refine ⟨?_, ?_, ?_, mem_edge_idle hs hnone i r⟩
  · cases r with
    | none => rfl
    | some r => exact congrArg (Sbcs.static · false) (SbRegs.request_idle _ r).1
  · have hbefore : (s.regsBefore i r).sbaddr.setWidth 32 = s.address := by
      rw [regsBefore, hadr]
      simp
    cases r with
    | none => exact hbefore
    | some r =>
      rw [← hbefore]
      exact (SbRegs.request_idle _ r).2.1
  · cases r with
    | none => rfl
    | some r => exact (SbRegs.request_idle _ r).2.2

/-- The access that begins. -/
theorem sba_edge_idle (herror : s.regs.sbcs.error = 0) (hs : s.sba = .idle) (i : BusIn) (r : Request) :
    (s.edge i (some r)).sba =
      if (r.op = DTM_READ ∧ r.adr = 0x3c) ∧ s.regs.sbcs.readondata = true then .read
      else if r.op = DTM_WRITE ∧ r.adr = 0x3c then .write
      else if (r.op = DTM_WRITE ∧ r.adr = 0x39) ∧ s.regs.sbcs.readonaddr = true then .read
      else .idle := by
  have herr := errorValid_eq (fun h => absurd hs h) (some r)
  have hnext : (s.edge i (some r)).sba = s.sba.next (s.sbaIn (some r)) (s.bus i (some r)) := rfl
  rw [hs] at herr hnext
  rw [hnext, SbaState.next, if_neg (by simp [herr])]
  simp [sbaIn, SbRegs.sbaIn, SbRegs.valid, hs, SbaState.busy, herror]

/-- None begins without a request. -/
theorem sba_edge_none (hs : s.sba = .idle) (i : BusIn) : (s.edge i none).sba = .idle := by
  change s.sba.next (s.sbaIn none) (s.bus i none) = _
  rw [hs]
  simp [SbaState.next, sbaIn, SbRegs.sbaIn, SbRegs.valid]

/-- An access begins with such a request, whether the module is active or not. -/
theorem begins_edge (herror : s.regs.sbcs.error = 0) (hs : s.sba = .idle) (i : BusIn) (r : Request) :
    (s.edge i (some r)).sba ≠ .idle ↔ BeginsAccess s.regs.sbcs.readonaddr s.regs.sbcs.readondata r := by
  rw [sba_edge_idle herror hs, BeginsAccess]
  have hne : DTM_READ ≠ DTM_WRITE := by decide
  split_ifs <;> simp_all

/-- The registers of an active module after an edge between two accesses: the access that begins finds its
size there. -/
theorem active_edge_idle (hact : s.dmactive = true) (hs : s.sba = .idle) (hnone : s.owed = none) (i : BusIn)
    {r : Request} (hr : written 0x10 (some r) = none) :
    (s.edge i (some r)).dmactive = true ∧ (s.edge i (some r)).regs.sbcs.access = 2 := by
  refine ⟨dmactive_edge hact (by simp [hr]) i, ?_⟩
  rw [(edge_idle hact hs hnone i (some r)).1]
  rfl

/-- No access is under way, and none begins. -/
theorem Settles.idle {s' : SbPort} {v' : BusView} (hsba : s'.sba = .idle) (howed : s'.owed = none)
    (herror : s'.regs.sbcs.error = 0)
    (hinc : v'.bus.autoincrement = s'.regs.sbcs.autoincrement)
    (hroa : v'.bus.readonaddr = s'.regs.sbcs.readonaddr) (hrod : v'.bus.readondata = s'.regs.sbcs.readondata)
    (haddress : v'.bus.address = s'.address) (hmem : v'.bus.mem = s'.mem)
    (hdata : v'.known = true → v'.bus.data = s'.data) : Settles s' v' where
  active := fun h => absurd hsba h
  error := herror
  owed := by simp [howed, hsba]
  autoincrement := hinc
  readonaddr := hroa
  readondata := hrod
  address := by simp [hsba, haddress]
  mem := by simp [hsba, hmem]
  data hknown := by rw [held, hsba, hdata hknown]

theorem Settles.of_idle {s' : SbPort} {v' : BusView} (h : Settles { s' with sba := .idle } v')
    (hsba : s'.sba = .idle) : Settles s' v' := by
  rw [← hsba] at h
  exact h

/-- A read begins. -/
theorem Settles.fetch {s' : SbPort} {v' : BusView} (h : Settles { s' with sba := .idle } v')
    (hact : s'.dmactive = true ∧ s'.regs.sbcs.access = 2) (hsba : s'.sba = .read) (k : Bool) :
    Settles s' ⟨v'.bus.fetch, k⟩ := by
  obtain ⟨-, herror, howed, hinc, hroa, hrod, haddress, hmem, hdata⟩ := h
  have hmem' : v'.bus.mem = s'.mem := hmem
  have haddress' : v'.bus.address = s'.address := haddress
  refine ⟨fun _ => hact, herror, ?_, hinc, hroa, hrod, ?_, ?_, fun _ => ?_⟩
  · simpa [hsba] using howed
  · simp [SystemBus.fetch, SystemBus.increment, hinc, hsba, haddress']
  · simp [SystemBus.fetch, SystemBus.increment, hsba, hmem']
  · simp [held, hsba, SystemBus.fetch, SystemBus.increment, hmem', haddress']

/-- A write begins. -/
theorem Settles.store {s' : SbPort} {v' : BusView} (h : Settles { s' with sba := .idle } v')
    (hact : s'.dmactive = true ∧ s'.regs.sbcs.access = 2) (hsba : s'.sba = .write)
    (hknown : v'.bus.data = s'.data) : Settles s' ⟨v'.bus.store, false⟩ := by
  obtain ⟨-, herror, howed, hinc, hroa, hrod, haddress, hmem, hdata⟩ := h
  have hmem' : v'.bus.mem = s'.mem := hmem
  have haddress' : v'.bus.address = s'.address := haddress
  refine ⟨fun _ => hact, herror, ?_, hinc, hroa, hrod, ?_, ?_, fun hk => (Bool.false_ne_true hk).elim⟩
  · simpa [hsba] using howed
  · simp [SystemBus.store, SystemBus.increment, hinc, hsba, haddress']
  · simp [SystemBus.store, SystemBus.increment, hsba, hmem', haddress', hknown]

/-- Where an edge with a request leaves the registers, if it does not write SBCS and no access
begins. -/
theorem Settles.regs_edge (h : Settles s v) (hact : s.dmactive = true) (hs : s.sba = .idle) {i : BusIn} {r : Request}
    {v' : BusView} (hnot : written 0x38 (some r) = none) (hinc : v'.bus.autoincrement = v.bus.autoincrement)
    (hroa : v'.bus.readonaddr = v.bus.readonaddr) (hrod : v'.bus.readondata = v.bus.readondata)
    (haddress : v'.bus.address = (s.edge i (some r)).address) (hmem : v'.bus.mem = v.bus.mem)
    (hdata : v'.known = true → v'.bus.data = (s.edge i (some r)).data) :
    Settles { s.edge i (some r) with sba := .idle } v' := by
  have hnone : s.owed = none := by simpa [hs] using h.owed
  obtain ⟨hsbcs, -, -, hm, howed⟩ := SbPort.edge_idle hact hs hnone i (some r)
  rw [hnot] at hsbcs
  refine .idle rfl howed ?_ ?_ ?_ ?_ haddress ?_ hdata
  · rw [hsbcs]
    exact h.error
  · rw [hsbcs]
    exact hinc.trans h.autoincrement
  · rw [hsbcs]
    exact hroa.trans h.readonaddr
  · rw [hsbcs]
    exact hrod.trans h.readondata
  · have hmem' : v.bus.mem = s.mem := by simp [h.mem, hs]
    exact (hmem.trans hmem').trans hm.symm

/-- SBADDRESS0 and SBDATA0 after an edge with a request that does not write them. -/
theorem Settles.address_edge (h : Settles s v) (hact : s.dmactive = true) (hs : s.sba = .idle) {i : BusIn}
    {r : Option Request} (hnot : written 0x39 r = none) : v.bus.address = (s.edge i r).address := by
  have hnone : s.owed = none := by simpa [hs] using h.owed
  rw [(SbPort.edge_idle hact hs hnone i r).2.1, hnot, Option.getD_none, h.address, hs]
  simp

theorem Settles.data_edge (h : Settles s v) (hact : s.dmactive = true) (hs : s.sba = .idle) {i : BusIn}
    {r : Option Request} (hnot : written 0x3c r = none) (hk : v.known = true) : v.bus.data = (s.edge i r).data := by
  have hnone : s.owed = none := by simpa [hs] using h.owed
  have hheld := h.data hk
  rw [held, hs] at hheld
  rw [(SbPort.edge_idle hact hs hnone i r).2.2.1, hnot, Option.getD_none]
  exact (Option.some.inj hheld).symm

/-- A request that writes no register but one of the others, and begins no access. -/
theorem Settles.edge_other (h : Settles s v) (hact : s.dmactive = true) (hs : s.sba = .idle) {i : BusIn} {r : Request}
    (hnot : ∀ adr ∈ [0x38, 0x39, 0x3c], written adr (some r) = none) (hsba : (s.edge i (some r)).sba = .idle)
    (others : ℕ → Word) {k : Bool} (hk : k = true → v.known = true) :
    Settles (s.edge i (some r)) ⟨{ v.bus with others := others }, k⟩ := by
  have hset : Settles { s.edge i (some r) with sba := .idle } ⟨{ v.bus with others := others }, k⟩ :=
    h.regs_edge hact hs (hnot _ (by simp)) rfl rfl rfl (h.address_edge hact hs (hnot _ (by simp))) rfl
      fun hk' => h.data_edge hact hs (hnot _ (by simp)) (hk hk')
  exact hset.of_idle hsba

/-- A read is served. -/
theorem Settles.edge_read (h : Settles s v) (hact : s.dmactive = true) (hs : s.sba = .idle) (i : BusIn) {r : Request}
    (hop : r.op = DTM_READ) : Settles (s.edge i (some r)) (v.serve r) := by
  have hsba := sba_edge_idle h.error hs i r
  have hne : DTM_READ ≠ DTM_WRITE := by decide
  have hnot (adr : ℕ) : written adr (some r) = none := if_neg fun hc => hne (hop.symm.trans hc.1)
  simp only [hop, hne, true_and, false_and, if_false] at hsba
  rw [BusView.serve, if_pos hop]
  by_cases hadr : r.adr = 0x3c ∧ s.regs.sbcs.readondata = true
  · rw [if_pos hadr] at hsba
    have hbus : (v.bus.read r.adr).2 = v.bus.fetch := by
      rw [hadr.1]
      exact if_pos (h.readondata.trans hadr.2)
    have hset : Settles { s.edge i (some r) with sba := .idle } v :=
      h.regs_edge hact hs (hnot _) rfl rfl rfl (h.address_edge hact hs (hnot _)) rfl fun hk =>
        h.data_edge hact hs (hnot _) hk
    rw [hbus]
    exact hset.fetch (active_edge_idle hact hs (by simpa [hs] using h.owed) i (hnot _)) hsba _
  · rw [if_neg hadr] at hsba
    have hbus : (v.bus.read r.adr).2 = v.bus := by
      rw [SystemBus.read]
      split_ifs with h39 h3c hrod
      · rfl
      · exact absurd ⟨h3c, h.readondata.symm.trans hrod⟩ hadr
      · rfl
      · rfl
    rw [hbus]
    refine h.edge_other hact hs (fun adr _ => hnot adr) hsba v.bus.others fun hk => ?_
    rw [h.readondata] at hk
    simpa [hadr] using hk

/-- A write of SBCS is served. -/
theorem Settles.edge_sbcs (h : Settles s v) (hact : s.dmactive = true) (hs : s.sba = .idle) (i : BusIn) {r : Request}
    (hr : r.op = DTM_WRITE ∧ r.adr = 0x38) : Settles (s.edge i (some r)) (v.serve r) := by
  have hnone : s.owed = none := by simpa [hs] using h.owed
  have hsba := sba_edge_idle h.error hs i r
  obtain ⟨hsbcs, -, -, hm, howed⟩ := SbPort.edge_idle hact hs hnone i (some r)
  have hw (adr : ℕ) : written adr (some r) = if adr = 0x38 then some (.ofNat 32 r.data) else none := by
    simp [written, hr, eq_comm]
  have hne : DTM_WRITE ≠ DTM_READ := by decide
  rw [hw] at hsbcs
  simp only [hr] at hsba
  simp only [BusView.serve, hr, if_neg hne]
  refine .of_idle (.idle rfl howed ?_ ?_ ?_ ?_ (h.address_edge hact hs (hw _)) ?_ fun hk => ?_) hsba
  · rw [hsbcs]
    change s.regs.sbcs.error &&& _ = 0
    rw [h.error]
    exact BitVec.zero_and
  · rw [hsbcs]
    rfl
  · rw [hsbcs]
    rfl
  · rw [hsbcs]
    rfl
  · have hmem : v.bus.mem = s.mem := by simp [h.mem, hs]
    exact hmem.trans hm.symm
  · have hk' : v.known = true := by simpa using hk
    exact h.data_edge hact hs (hw _) hk'

/-- A write of SBADDRESS0 is served. -/
theorem Settles.edge_sbaddress (h : Settles s v) (hact : s.dmactive = true) (hs : s.sba = .idle) (i : BusIn)
    {r : Request} (hr : r.op = DTM_WRITE ∧ r.adr = 0x39) : Settles (s.edge i (some r)) (v.serve r) := by
  have hnone : s.owed = none := by simpa [hs] using h.owed
  have hsba := sba_edge_idle h.error hs i r
  have haddr := (SbPort.edge_idle hact hs hnone i (some r)).2.1
  have hw (adr : ℕ) : written adr (some r) = if adr = 0x39 then some (.ofNat 32 r.data) else none := by
    simp [written, hr, eq_comm]
  have hne : DTM_WRITE ≠ DTM_READ := by decide
  rw [hw] at haddr
  simp only [hr, hne] at hsba
  simp only [BusView.serve, hr, if_neg hne]
  have hset (k : Bool) (hk : k = true → v.known = true) : Settles { s.edge i (some r) with sba := .idle }
      ⟨{ v.bus with address := .ofNat 32 r.data }, k⟩ :=
    h.regs_edge hact hs (hw _) rfl rfl rfl haddr.symm rfl fun hk' => h.data_edge hact hs (hw _) (hk hk')
  by_cases hroa : s.regs.sbcs.readonaddr = true
  · have hbus : v.bus.write 0x39 (.ofNat 32 r.data) =
        SystemBus.fetch { v.bus with address := .ofNat 32 r.data } := if_pos (h.readonaddr.trans hroa)
    rw [hbus]
    refine (hset v.known id).fetch (active_edge_idle hact hs hnone i (hw _)) ?_ _
    simpa [hroa] using hsba
  · have hbus : v.bus.write 0x39 (.ofNat 32 r.data) = { v.bus with address := .ofNat 32 r.data } :=
      if_neg fun hc => hroa (h.readonaddr.symm.trans hc)
    rw [hbus]
    refine (hset _ fun hk => ?_).of_idle (by simpa [hroa] using hsba)
    rw [h.readonaddr] at hk
    simpa [hroa] using hk

/-- A write of SBDATA0 is served. -/
theorem Settles.edge_sbdata (h : Settles s v) (hact : s.dmactive = true) (hs : s.sba = .idle) (i : BusIn)
    {r : Request} (hr : r.op = DTM_WRITE ∧ r.adr = 0x3c) : Settles (s.edge i (some r)) (v.serve r) := by
  have hnone : s.owed = none := by simpa [hs] using h.owed
  have hsba := sba_edge_idle h.error hs i r
  have hdat := (SbPort.edge_idle hact hs hnone i (some r)).2.2.1
  have hw (adr : ℕ) : written adr (some r) = if adr = 0x3c then some (.ofNat 32 r.data) else none := by
    simp [written, hr, eq_comm]
  have hne : DTM_WRITE ≠ DTM_READ := by decide
  rw [hw] at hdat
  simp only [hr, hne] at hsba
  simp only [BusView.serve, hr, if_neg hne]
  have hset : Settles { s.edge i (some r) with sba := .idle } ⟨{ v.bus with data := .ofNat 32 r.data }, true⟩ :=
    h.regs_edge hact hs (hw _) rfl rfl rfl (h.address_edge hact hs (hw _)) rfl fun _ => hdat.symm
  exact hset.store (active_edge_idle hact hs hnone i (hw _)) hsba hdat.symm

/-- **A request between two accesses is served.** -/
theorem Settles.edge_idle (h : Settles s v) (hact : s.dmactive = true) (hs : s.sba = .idle) (i : BusIn) (r : Request) :
    Settles (s.edge i (some r)) (v.serve r) := by
  by_cases hread : r.op = DTM_READ
  · exact h.edge_read hact hs i hread
  have hsba := sba_edge_idle h.error hs i r
  simp only [hread, false_and, if_false] at hsba
  by_cases hwrite : r.op = DTM_WRITE
  · by_cases h38 : r.adr = 0x38
    · exact h.edge_sbcs hact hs i ⟨hwrite, h38⟩
    by_cases h39 : r.adr = 0x39
    · exact h.edge_sbaddress hact hs i ⟨hwrite, h39⟩
    by_cases h3c : r.adr = 0x3c
    · exact h.edge_sbdata hact hs i ⟨hwrite, h3c⟩
    simp only [h39, h3c, and_false, false_and, if_false] at hsba
    rw [BusView.serve, if_neg hread, if_pos hwrite, SystemBus.write, if_neg h38, if_neg h39, if_neg h3c, if_neg h3c]
    refine h.edge_other hact hs ?_ hsba _ fun hk => by simpa [h39] using hk
    simp [written, h38, h39, h3c]
  · simp only [hwrite, false_and, if_false] at hsba
    rw [BusView.serve, if_neg hread, if_neg hwrite]
    exact h.edge_other hact hs (by simp [written, hwrite]) hsba v.bus.others id

/-- An edge without a request. -/
theorem Settles.edge_none (h : Settles s v) (hact : s.dmactive = true) (hs : s.sba = .idle) (i : BusIn) :
    Settles (s.edge i none) v := by
  have hnone : s.owed = none := by simpa [hs] using h.owed
  obtain ⟨hsbcs, -, -, hm, howed⟩ := SbPort.edge_idle hact hs hnone i none
  have hmem : v.bus.mem = s.mem := by simp [h.mem, hs]
  exact .idle (sba_edge_none hs i) howed (by rw [hsbcs]; exact h.error) (by rw [hsbcs]; exact h.autoincrement)
    (by rw [hsbcs]; exact h.readonaddr) (by rw [hsbcs]; exact h.readondata) (h.address_edge hact hs rfl)
    (hmem.trans hm.symm) (h.data_edge hact hs rfl)

/-- An edge at which the module is not active. -/
theorem Settles.edge_asleep (h : Settles s v) (hact : s.dmactive = false) {r : Option Request} (hord : s.Orderly r)
    (i : BusIn) : (s.edge i r).sba = .idle ∧ Settles (s.edge i r) v.asleep := by
  have hs : s.sba = .idle := by
    by_contra hs
    exact Bool.false_ne_true (hact.symm.trans (h.active hs).1)
  have hnone : s.owed = none := by simpa [hs] using h.owed
  obtain ⟨hm, howed⟩ := mem_edge_idle hs hnone i r
  have hregs : (s.edge i r).regs = .fresh := if_neg (by simp [hact])
  have hsba : (s.edge i r).sba = .idle := by
    cases r with
    | none => exact sba_edge_none hs i
    | some q =>
      by_contra hbegins
      exact hord.1 hact q rfl ((begins_edge h.error hs i q).mp hbegins)
  have hmem : v.bus.mem = s.mem := by simp [h.mem, hs]
  have haddress : (s.edge i r).address = 0 := by rw [SbPort.address, hregs]; rfl
  have hdata : (s.edge i r).data = 0 := by rw [SbPort.data, hregs]; rfl
  exact ⟨hsba, .idle hsba howed (by rw [hregs]; rfl) (by rw [hregs]; rfl) (by rw [hregs]; rfl) (by rw [hregs]; rfl)
    haddress.symm (hmem.trans hm.symm) fun _ => hdata.symm⟩

/-- A request that is let through during an access is none of the system bus. -/
theorem Settles.serve_busy (h : Settles s v) {r : Request} (hr : ¬ SbRegs.Refuses true r) : Settles s (v.serve r) := by
  have hothers (w : BusView) (hknown : w.known = v.known)
      (hbus : w.bus = { v.bus with others := w.bus.others }) : Settles s w := by
    obtain ⟨bus, known⟩ := w
    dsimp only at hknown hbus
    rw [hbus, hknown]
    exact ⟨h.active, h.error, h.owed, h.autoincrement, h.readonaddr, h.readondata, h.address, h.mem, h.data⟩
  by_cases hread : r.op = DTM_READ
  · have hadr : r.adr ∉ [0x39, 0x3a, 0x3c, 0x3d] := fun hadr => hr ⟨rfl, Or.inl ⟨hread, hadr⟩⟩
    simp only [List.mem_cons, List.not_mem_nil, or_false, not_or] at hadr
    rw [BusView.serve, if_pos hread]
    refine hothers _ ?_ ?_
    · simp [hadr.2.2.1]
    · simp [SystemBus.read, hadr.1, hadr.2.2.1]
  by_cases hwrite : r.op = DTM_WRITE
  · have hadr : r.adr ∉ [0x38, 0x39, 0x3a, 0x3c, 0x3d] := fun hadr => hr ⟨rfl, Or.inr ⟨hwrite, hadr⟩⟩
    simp only [List.mem_cons, List.not_mem_nil, or_false, not_or] at hadr
    rw [BusView.serve, if_neg hread, if_pos hwrite]
    refine hothers _ ?_ ?_
    · simp [hadr.2.1, hadr.2.2.2.1]
    · simp [SystemBus.write, hadr.1, hadr.2.1, hadr.2.2.2.1]
  · rw [BusView.serve, if_neg hread, if_neg hwrite]
    exact h

/-- What the debugger sees after an edge: a request that is refused makes no difference. -/
def viewAfter (s : SbPort) (r : Option Request) (v : BusView) : BusView :=
  if s.dmactive then r.elim v fun r => if SbRegs.Refuses s.sba.busy r then v else v.serve r else v.asleep

/-- **One edge**: a request that is not refused is served, and nothing else makes a difference. -/
theorem Settles.edge (h : Settles s v) {r : Option Request} (hord : s.Orderly r) (i : BusIn) :
    Settles (s.edge i r) (s.viewAfter r v) := by
  rw [viewAfter]
  cases hact : s.dmactive with
  | false => exact (h.edge_asleep hact hord i).2
  | true =>
    rw [if_pos rfl]
    by_cases hs : s.sba = .idle
    · have hbusy : s.sba.busy = false := by simp [SbaState.busy, hs]
      cases r with
      | none => exact h.edge_none hact hs i
      | some r =>
        rw [Option.elim_some, if_neg (by simp [SbRegs.Refuses, hbusy])]
        exact h.edge_idle hact hs i r
    · have hedge := h.edge_busy hs hord i
      cases r with
      | none => exact hedge
      | some r =>
        rw [Option.elim_some, busy_eq_true hs]
        split_ifs with hr
        · exact hedge
        · exact hedge.serve_busy hr

/-- What `sbbusyerror` is after an edge: it is set if a request is refused, and cleared by a write of
SBCS with its bit set. -/
def busyerrorAfter (s : SbPort) (r : Option Request) (e : Bool) : Bool :=
  if s.dmactive then
    r.elim e fun r =>
      if SbRegs.Refuses s.sba.busy r then true
      else if r.op = DTM_WRITE ∧ r.adr = 0x38 then e && !(BitVec.ofNat 32 r.data).getLsbD 22
      else e
  else false

theorem busyerror_edge (h : s.sba ≠ .idle → s.regs.sbcs.access = 2) (i : BusIn) (r : Option Request) :
    (s.edge i r).regs.sbcs.busyerror = s.busyerrorAfter r s.regs.sbcs.busyerror := by
  rw [busyerrorAfter]
  cases hact : s.dmactive with
  | false =>
    have hregs : (s.edge i r).regs = .fresh := if_neg (by simp [hact])
    rw [hregs]
    rfl
  | true =>
    rw [regs_edge hact h, if_pos rfl]
    cases r with
    | none => rfl
    | some r =>
      simp only [Option.elim_some, SbRegs.request, Sbcs.static]
      split_ifs with hr hw h38 h39 h3a h3c h3d <;> simp_all [regsBefore, SbRegs.writeSbcs, Sbcs.ofWord]

/-! ### The rest of the registers -/

/-- What is written to register `adr`, unless that is refused. -/
def taken (s : SbPort) (adr : ℕ) (r : Option Request) : Option Word := if s.sba.busy then none else written adr r

/-- The rest after an edge. -/
def restAfter (s : SbPort) (v : BusView) (r : Option Request) (t : BusRest) : BusRest :=
  if s.dmactive then
    { awake := true
      zero0 := (s.taken 0x38 r).elim t.zero0 (·.extractLsb' 23 6)
      busy := s.sba.busy
      address1 := (s.taken 0x3a r).getD 0
      data1 := if r.any (BeginsAccess v.bus.readonaddr v.bus.readondata ·) then 0 else (s.taken 0x3d r).getD t.data1 }
  else ⟨false, 0, false, 0, 0⟩

/-- The upper half of an address that `dm_sba` gives back. -/
theorem regsBefore_high (s : SbPort) (i : BusIn) (r : Option Request) :
    (s.regsBefore i r).sbaddr.extractLsb' 32 32 = 0 := by
  apply BitVec.eq_of_getLsbD_eq
  intro k hk
  simp [regsBefore]

theorem Shows.edge_asleep {t : BusRest} (h : Settles s v) (hact : s.dmactive = false) {r : Option Request}
    (hord : s.Orderly r) (i : BusIn) : Shows (s.edge i r) (s.restAfter v r t) := by
  have hregs : (s.edge i r).regs = .fresh := if_neg (by simp [hact])
  rw [restAfter, if_neg (by simp [hact])]
  refine ⟨fun h => (Bool.false_ne_true h).elim, fun _ => by rw [hregs]; rfl, by rw [hregs]; rfl, by rw [hregs]; rfl, ?_⟩
  rw [if_pos (h.edge_asleep hact hord i).1, hregs]
  rfl

theorem Shows.edge_busy {t : BusRest} (h : Settles s v) (ht : Shows s t) (hbusy : s.sba ≠ .idle) (i : BusIn)
    (r : Option Request) : Shows (s.edge i r) (s.restAfter v r t) := by
  have hact := h.active hbusy
  have hregs := regs_edge_busy hact hbusy i r
  have htaken (adr : ℕ) : s.taken adr r = none := if_pos (busy_eq_true hbusy)
  have hdata : t.data1 = 0 := by rw [ht.data1, if_neg hbusy]
  simp only [restAfter, if_pos hact.1, htaken, Option.elim_none, Option.getD_none, hdata, ite_self]
  refine ⟨fun _ => ?_, fun h => (Bool.false_ne_true h.symm).elim, ?_, ?_, ?_⟩
  · rw [hregs, busy_eq_true hbusy]
    rfl
  · rw [hregs]
    exact ht.zero0
  · rw [hregs]
    exact regsBefore_high s i r
  · split_ifs with hs'
    -- the access that is over has been answered, and with that SBDATA1 is gone
    · rw [hregs, if_pos (rValid_of_over hact hbusy hs')]
      apply BitVec.eq_of_getLsbD_eq
      intro k hk
      simp
    · rfl

theorem Shows.edge_idle {t : BusRest} (h : Settles s v) (ht : Shows s t) (hact : s.dmactive = true)
    (hs : s.sba = .idle) (i : BusIn) (r : Option Request) : Shows (s.edge i r) (s.restAfter v r t) := by
  have hnone : s.owed = none := by simpa [hs] using h.owed
  have hbusy : s.sba.busy = false := by simp [SbaState.busy, hs]
  have htaken (adr : ℕ) : s.taken adr r = written adr r := if_neg (by simp [hbusy])
  have hsbcs := (SbPort.edge_idle hact hs hnone i r).1
  have hregs := regs_edge hact (fun hb => absurd hs hb) i r
  rw [(bus_idle hs hnone i r).2, hbusy] at hregs
  simp only [restAfter, if_pos hact, htaken, hbusy]
  refine ⟨fun _ => ?_, fun h => (Bool.false_ne_true h.symm).elim, ?_, ?_, ?_⟩
  · rw [hsbcs]
    rfl
  · rw [hsbcs]
    cases written 0x38 r with
    | none => exact ht.zero0
    | some w => rfl
  · rw [hregs]
    cases r with
    | none => exact regsBefore_high s i none
    | some r =>
      rw [← regsBefore_high s i (some r)]
      exact (SbRegs.request_idle_high _ r).1
  · cases r with
    | none =>
      rw [if_pos (sba_edge_none hs i), hregs]
      exact ht.data1.trans (if_pos hs)
    | some r =>
      have hbegins := begins_edge h.error hs i r
      rw [← h.readonaddr, ← h.readondata] at hbegins
      by_cases hb : BeginsAccess v.bus.readonaddr v.bus.readondata r
      · rw [if_neg (hbegins.mpr hb)]
        exact if_pos (by simpa using hb)
      · have hs' : (s.edge i (some r)).sba = .idle := not_not.mp (mt hbegins.mp hb)
        have hhigh := (SbRegs.request_idle_high (s.regsBefore i (some r)) r).2
        rw [if_pos hs', hregs]
        refine (if_neg (by simpa using hb)).trans ?_
        rw [ht.data1, if_pos hs]
        exact hhigh.symm

/-- One edge. -/
theorem Shows.edge {t : BusRest} (h : Settles s v) (ht : Shows s t) {r : Option Request} (hord : s.Orderly r)
    (i : BusIn) : Shows (s.edge i r) (s.restAfter v r t) := by
  cases hact : s.dmactive with
  | false => exact edge_asleep h hact hord i
  | true =>
    by_cases hs : s.sba = .idle
    · exact edge_idle h ht hact hs i r
    · exact edge_busy h ht hs i r

/-! ### The account -/

/-- The account is right. -/
structure Sound (s : SbPort) (a : BusAccount) : Prop where
  settles : Settles s a.view
  missed : s.regs.sbcs.busyerror = a.missed
  shows : Shows s a.rest

/-- The account after an edge. -/
def accountAfter (s : SbPort) (r : Option Request) (a : BusAccount) : BusAccount where
  view := s.viewAfter r a.view
  missed := s.busyerrorAfter r a.missed
  rest := s.restAfter a.view r a.rest

theorem Sound.edge {a : BusAccount} (h : Sound s a) {r : Option Request} (hord : s.Orderly r) (i : BusIn) :
    Sound (s.edge i r) (s.accountAfter r a) where
  settles := h.settles.edge hord i
  missed := (busyerror_edge (fun hs => (h.settles.active hs).2) i r).trans (congrArg _ h.missed)
  shows := .edge h.settles h.shows hord i

/-- SBCS is that of the account. -/
theorem Sound.sbcs_eq {a : BusAccount} (h : Sound s a) : s.regs.sbcs = a.sbcs := by
  obtain ⟨hset, hmissed, hshows⟩ := h
  rw [BusAccount.sbcs]
  cases hawake : a.rest.awake with
  | false =>
    have hfresh := hshows.asleep hawake
    have hmissed' := hmissed
    rw [hset.autoincrement, hset.readonaddr, hset.readondata, ← hmissed, ← hshows.zero0, hfresh]
    rfl
  | true =>
    rw [if_pos rfl, ← hshows.awake hawake, hset.autoincrement, hset.readonaddr, hset.readondata, ← hmissed,
      ← hshows.zero0]
    simp only [Sbcs.static, Sbcs.mk.injEq, true_and, and_true]
    exact hset.error

/-- What is answered to a read that is not refused. -/
theorem Sound.respData {a : BusAccount} (h : Sound s a) {r : Request} (hop : r.op = DTM_READ)
    (hr : ¬ SbRegs.Refuses s.sba.busy r) {w : Word} (hw : a.answer r.adr = some w) :
    s.regs.respData s.sba.busy r.adr = w := by
  have hidle (hadr : r.adr ∈ [0x39, 0x3a, 0x3c, 0x3d]) : s.sba = .idle := by
    by_contra hs
    exact hr ⟨busy_eq_true hs, Or.inl ⟨hop, hadr⟩⟩
  have hfree (hadr : r.adr ∈ [0x39, 0x3a, 0x3c, 0x3d]) : s.sba.busy = false := by
    simp [SbaState.busy, hidle hadr]
  rw [BusAccount.answer] at hw
  split_ifs at hw with h38 h39 h3a h3c hk h3d
  · rw [← Option.some.inj hw, h38, ← h.sbcs_eq]
    rfl
  · have hs := hidle (by simp [h39])
    have hadr : a.view.bus.address = s.address := by simp [h.settles.address, hs]
    rw [← Option.some.inj hw, hfree (by simp [h39]), h39, hadr]
    rfl
  · rw [← Option.some.inj hw, hfree (by simp [h3a]), h3a, ← h.shows.address1]
    rfl
  · have hheld := h.settles.data hk
    rw [held, hidle (by simp [h3c])] at hheld
    rw [← Option.some.inj hw, hfree (by simp [h3c]), h3c, ← Option.some.inj hheld]
    rfl
  · rw [← Option.some.inj hw, hfree (by simp [h3d]), h3d, h.shows.data1, if_pos (hidle (by simp [h3d]))]
    rfl

/-- What is answered to a read that is refused. -/
theorem respData_of_refuses {r : Request} (hop : r.op = DTM_READ) (hr : SbRegs.Refuses s.sba.busy r) :
    s.regs.respData s.sba.busy r.adr = 0 := by
  have hne : DTM_READ ≠ DTM_WRITE := by decide
  obtain ⟨hbusy, ⟨-, hadr⟩ | ⟨hw, -⟩⟩ := hr
  · rw [hbusy]
    simp only [List.mem_cons, List.not_mem_nil, or_false] at hadr
    rcases hadr with h | h | h | h <;> rw [h] <;> rfl
  · exact absurd (hop.symm.trans hw) hne

/-! ### The end of an access -/

theorem orderly_none (s : SbPort) : s.Orderly none := by simp [Orderly, written]

/-- A bus that does at each edge what it can brings an access nearer to its end. -/
theorem Settles.sba_edge (h : Settles s v) {i : BusIn} (hgrant : i.grant = true) (hanswer : i.answer = true) :
    (s.edge i none).sba = match s.sba with
      | .read => .waitRead
      | .write => .waitWrite
      | .idle | .waitRead | .waitWrite => .idle := by
  have herr := errorValid_eq (fun hs => (h.active hs).2) none
  have howed := h.owed
  change s.sba.next (s.sbaIn none) (s.bus i none) = _
  unfold SbaState.next
  rw [if_neg (by simp [herr])]
  cases hs : s.sba with
  | idle => simp [sbaIn, SbRegs.sbaIn, SbRegs.valid]
  | read | write =>
    rw [hs] at herr
    have hgnt : (s.bus i none).gnt = true := by simp [bus, hgrant, SbaState.req, herr, hs]
    simp [hgnt]
  | waitRead | waitWrite =>
    have hval : (s.bus i none).rValid = true := by simp [bus, hanswer, howed, hs]
    simp [hval]

/-- Two such edges are enough. -/
theorem Settles.sba_edges (h : Settles s v) {i i' : BusIn} (hi : i.grant = true ∧ i.answer = true)
    (hi' : i'.grant = true ∧ i'.answer = true) : ((s.edge i none).edge i' none).sba = .idle := by
  have hnext := h.sba_edge hi.1 hi.2
  rw [(h.edge (orderly_none s) i).sba_edge hi'.1 hi'.2, hnext]
  cases s.sba <;> rfl

/-! ### Runs -/

/-- An edge, and what it does to the account. -/
def next (x : SbPort × BusAccount) (i : BusIn × Option Request) : SbPort × BusAccount :=
  (x.1.edge i.1 i.2, x.1.accountAfter i.2 x.2)

/-- After a reset. -/
def start (mem : Word → Word) : SbPort × BusAccount :=
  (⟨.fresh, false, .idle, mem, none⟩,
    ⟨⟨⟨false, false, false, 0, 0, mem, fun _ => 0⟩, true⟩, false, ⟨false, 0, false, 0, 0⟩⟩)

/-- A run from a reset. -/
def run (mem : Word → Word) (is : List (BusIn × Option Request)) : SbPort × BusAccount := is.foldl next (start mem)

/-- Each request of it does only what it may. -/
def OrderlyRun (mem : Word → Word) (is : List (BusIn × Option Request)) : Prop :=
  Along (fun x i => x.1.Orderly i.2) next is (start mem)

instance (mem : Word → Word) (is : List (BusIn × Option Request)) : Decidable (OrderlyRun mem is) :=
  inferInstanceAs (Decidable (Along _ _ _ _))

theorem sound_start (mem : Word → Word) : Sound (start mem).1 (start mem).2 where
  settles := .idle rfl rfl rfl rfl rfl rfl rfl rfl fun _ => rfl
  missed := rfl
  shows := ⟨fun h => (Bool.false_ne_true h).elim, fun _ => rfl, rfl, by simp [start, SbRegs.fresh],
    by simp [start, SbRegs.fresh]⟩

theorem sound_run {mem : Word → Word} {is : List (BusIn × Option Request)} (h : OrderlyRun mem is) :
    Sound (run mem is).1 (run mem is).2 := by
  have hstep : ∀ (x : SbPort × BusAccount) (i : BusIn × Option Request), x.1.Orderly i.2 → Sound x.1 x.2 →
      Sound (next x i).1 (next x i).2 := fun x i hord hx => hx.edge hord i.1
  exact Along.inv hstep h (sound_start mem)

/-- **System bus access, whatever the bus does**: in a run in which no access is begun while the module is not
active, and it is not made inactive during one, the requests that are refused do nothing but set
`sbbusyerror`, and the others do, and are answered, what they would if every access were over at once. A read
that is refused is answered with zero, and when no access is under way the memory and the registers are what the
debugger takes them for. A bus that grants and answers ends an access in two edges. The module need not be
active for one to begin. -/
theorem serves_unless_refused {mem : Word → Word} {is : List (BusIn × Option Request)} (h : OrderlyRun mem is) :
    let x := run mem is
    (∀ r : Request, r.op = DTM_READ → SbRegs.Refuses x.1.sba.busy r → x.1.regs.respData x.1.sba.busy r.adr = 0) ∧
      (∀ r : Request, r.op = DTM_READ → ¬ SbRegs.Refuses x.1.sba.busy r → ∀ w, x.2.answer r.adr = some w →
        x.1.regs.respData x.1.sba.busy r.adr = w) ∧
      x.1.regs.sbcs = x.2.sbcs ∧
      (x.1.sba = .idle → x.1.mem = x.2.view.bus.mem ∧ x.1.address = x.2.view.bus.address ∧
        (x.2.view.known = true → x.1.data = x.2.view.bus.data)) ∧
      (∀ d d' : Word, ((x.1.edge ⟨true, true, d⟩ none).edge ⟨true, true, d'⟩ none).sba = .idle) ∧
      (x.1.sba = .idle → ∀ i r, (x.1.edge i (some r)).sba ≠ .idle ↔
        BeginsAccess x.1.regs.sbcs.readonaddr x.1.regs.sbcs.readondata r) := by
  intro x
  have hsound : Sound x.1 x.2 := sound_run h
  have hset := hsound.settles
  refine ⟨fun r hop hr => respData_of_refuses hop hr, fun r hop hr w hw => hsound.respData hop hr hw, hsound.sbcs_eq, ?_,
    fun d d' => hset.sba_edges ⟨rfl, rfl⟩ ⟨rfl, rfl⟩, fun hs i r => begins_edge hset.error hs i r⟩
  intro hs
  refine ⟨?_, ?_, fun hk => ?_⟩
  · rw [hset.mem, hs]
    simp
  · rw [hset.address, hs]
    simp
  · have hheld := hset.data hk
    rw [held, hs] at hheld
    exact Option.some.inj hheld

/-- A module that is made active, a word that is written, and read back; the first read of SBDATA0 comes too
early. -/
def stored : List (BusIn × Option Request) :=
  [some ⟨DTM_WRITE, 0x10, 1⟩, some ⟨DTM_WRITE, 0x38, 0x100000⟩, some ⟨DTM_WRITE, 0x39, 0x80⟩, none, none,
    some ⟨DTM_WRITE, 0x3c, 7⟩, none, none, some ⟨DTM_WRITE, 0x39, 0x80⟩, some ⟨DTM_READ, 0x3c, 0⟩, none].map
    fun r => (⟨true, true, 0⟩, r)

theorem serves_unless_refused_stored :
    let x := run (fun _ => 0) stored
    x.1.regs.respData x.1.sba.busy 0x3c = 7 ∧ x.1.regs.sbcs.busyerror = true := by
  have hord : OrderlyRun (fun _ => 0) stored := by decide
  obtain ⟨-, hread, hsbcs, -⟩ := serves_unless_refused hord
  refine ⟨hread ⟨DTM_READ, 0x3c, 0⟩ rfl (by decide) 7 (by decide), ?_⟩
  rw [hsbcs]
  decide

end SbPort

end PyOcdRiscv.Target
