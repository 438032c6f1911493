import PyOcdRiscv.Lib.Runs
import PyOcdRiscv.Ocd.Protocol
import PyOcdRiscv.Target.SystemBus

/-!
# Memory through the system bus

`PulpOCD.writebus` leaves out the writes of SBCS and SBADDRESS0 when the address is
the word after the last one written, trusting that SBADDRESS0 has been incremented
to it. The specification is a plain store of words (`storeStep`). It is met by a
run in which no `readbus` comes between two writes of consecutive words
(`bus_refines_store`): then the cached `lastwradr` describes SBADDRESS0 and SBCS
(`Describes`). A `readbus` rewrites both registers and does not clear the cache, so
that the next consecutive write goes to the address read (`readbus_misleads`).
-/

namespace PyOcdRiscv.Ocd

open Lib Jtag Target

namespace PulpOCD

/-- What a call does to the system-bus access registers. Scans and idle cycles that are
not DMI requests do nothing to them. -/
def onBus : (o : ApbCall) → SystemBus → Apb.Res o × SystemBus
  | .writeapb adr data, s => ((), s.write (land adr 0x7f) (BitVec.ofInt 32 data))
  | .readapb adr, s => ((s.read (land adr 0x7f)).1.toNat, (s.read (land adr 0x7f)).2)
  | .selectIr _, s => ((), s)
  | .writeDr _, s => ((), s)
  | .goIdle, s => ((), s)
  | .writeTms _, s => ((), s)

/-- A call on the driver, with the debug module behind it. -/
def busStep (op : Op) (s : PulpOCD × SystemBus) : Option ℕ × (PulpOCD × SystemBus) :=
  let r := Prog.run onBus (exec s.1 op) s.2
  (r.1.1, (r.1.2, r.2))

/-- **The plain store**: a call on a memory of words that has nothing else. -/
def storeStep (op : Op) (m : Word → Word) : Option ℕ × (Word → Word) :=
  match op with
  | .writebus adr val => (none, Function.update m (BitVec.ofInt 32 adr) (BitVec.ofInt 32 val))
  | .readbus adr => (some (m (BitVec.ofInt 32 adr)).toNat, m)
  | _ => (none, m)

/-- What is observed of a call: the word a `readbus` returns, and the memory after it. -/
def observe (op : Op) (r : Option ℕ × (Word → Word)) : Option ℕ × (Word → Word) :=
  match op with
  | .readbus _ => r
  | _ => (none, r.2)

/-- `observe` on the driver's side. -/
def observeBus (op : Op) (r : Option ℕ × (PulpOCD × SystemBus)) : Option ℕ × (Word → Word) :=
  observe op (r.1, r.2.2.mem)

/-- A word-aligned address of 32 bits. -/
def Aligned (adr : ℤ) : Prop := 0 ≤ adr ∧ adr < 2 ^ 32 ∧ adr % 4 = 0

/-- The calls the store speaks of: memory and run control. -/
def Op.Client : Op → Prop
  | .writebus adr _ => Aligned adr
  | .readbus adr => Aligned adr
  | .resetdm | .writeapb _ _ | .readapb _ => False
  | _ => True

instance (adr : ℤ) : Decidable (Aligned adr) := inferInstanceAs (Decidable (_ ∧ _ ∧ _))

/-- What matters of the calls so far: the address of the last `writebus` since the last
`resume`, and whether a `readbus` came after it. -/
structure Past where
  /-- The last write. -/
  last : Option ℤ
  /-- A read came after it. -/
  read : Bool

/-- How the calls move it. -/
def Past.next (g : Past) : Op → Past
  | .writebus adr _ => ⟨some adr, false⟩
  | .readbus _ => ⟨g.last, true⟩
  | .resume => ⟨none, g.read⟩
  | _ => g

/-- No `readbus` between a `writebus` and one of the next word. -/
def Past.Allows (g : Past) (op : Op) : Prop :=
  op.Client ∧ match op with
  | .writebus adr _ => g.last = some (adr - 4) → g.read = false
  | _ => True

instance (g : Past) : DecidablePred g.Allows
  | .writebus adr _ =>
    inferInstanceAs (Decidable (Aligned adr ∧ (g.last = some (adr - 4) → g.read = false)))
  | .readbus adr => inferInstanceAs (Decidable (Aligned adr ∧ True))
  | .resetdm | .writeapb _ _ | .readapb _ => .isFalse fun h => h.1
  | .halt | .resume | .readreg _ | .writereg _ _ | .setreg2 _ _ | .setpc _ => .isTrue ⟨trivial, trivial⟩

/-- **The cache describes the registers**: `lastwradr` is the last write, and unless a
read came after it SBADDRESS0 is at the next word and incrementing. -/
structure Describes (g : Past) (s : PulpOCD × SystemBus) (m : Word → Word) : Prop where
  last : s.1.lastwradr = g.last
  next : ∀ w, g.last = some w → g.read = false →
    s.2.autoincrement = true ∧ s.2.address = BitVec.ofInt 32 (w + 4)
  mem : s.2.mem = m

/-! ### Calls that leave the bus alone -/

/-- The registers of the bus are the same, whatever happened to the others. -/
structure SameBus (s s' : SystemBus) : Prop where
  autoincrement : s'.autoincrement = s.autoincrement
  address : s'.address = s.address
  mem : s'.mem = s.mem

/-- A call that is no request, or one to a register below SBCS. -/
def LowCall : ApbCall → Prop
  | .writeapb adr _ | .readapb adr => land adr 0x7f < 0x38
  | _ => True

theorem SameBus.onBus {s s' : SystemBus} (h : SameBus s s') {o : ApbCall} (ho : LowCall o) :
    SameBus s (onBus o s').2 := by
  cases o with
  | writeapb adr data =>
    have hlt : land adr 0x7f < 0x38 := ho
    simp only [PulpOCD.onBus, SystemBus.write]
    rw [if_neg (by omega), if_neg (by omega), if_neg (by omega)]
    exact ⟨h.autoincrement, h.address, h.mem⟩
  | readapb adr =>
    have hlt : land adr 0x7f < 0x38 := ho
    simp only [PulpOCD.onBus, SystemBus.read]
    rw [if_neg (by omega), if_neg (by omega)]
    exact h
  | _ => exact h

/-- A call that makes requests only to registers below SBCS. -/
theorem sameBus_busStep {op : Op} (hop : ∀ adr ∈ op.adrs, land adr 0x7f < 0x38) (self : PulpOCD)
    (s : SystemBus) : SameBus s (busStep op (self, s)).2.2 := by
  have hlow : ∀ (t : Rest) o, Rest.Allows op.adrs t o → LowCall o := by
    intro t o ho
    cases o with
    | writeapb adr data => exact hop adr ho
    | readapb adr => exact hop adr ho
    | _ => trivial
  have hf := Prog.Follows.imp hlow (inOrder_exec self op ⟨none, false⟩)
  obtain ⟨-, h, -⟩ := Prog.Follows.run (h := onBus) (R := fun _ s' => SameBus s s')
    (fun o _ s' h ho => h.onBus ho) hf ⟨rfl, rfl, rfl⟩
  exact h

theorem Describes.sameBus {g : Past} {self : PulpOCD} {s s' : SystemBus} {m : Word → Word}
    (h : Describes g (self, s) m) (hs : SameBus s s') : Describes g (self, s') m where
  last := h.last
  next w hw hr := by
    obtain ⟨ha, hb⟩ := h.next w hw hr
    exact ⟨hs.autoincrement.trans ha, hs.address.trans hb⟩
  mem := hs.mem.trans h.mem

/-! ### The two calls that use the bus -/

theorem busStep_readbus (self : PulpOCD) (s : SystemBus) (adr : ℤ) :
    ∃ s' : SystemBus, busStep (.readbus adr) (self, s) =
        (some (s.mem (BitVec.ofInt 32 adr)).toNat, (self, s')) ∧ s'.mem = s.mem := by
  refine ⟨_, rfl, ?_⟩
  rfl

/-- Where a `writebus` leaves the bus: the word stored, and SBADDRESS0 at the next one
and incrementing. -/
structure Stored (s : SystemBus) (adr val : ℤ) (s' : SystemBus) : Prop where
  mem : s'.mem = Function.update s.mem (BitVec.ofInt 32 adr) (BitVec.ofInt 32 val)
  autoincrement : s'.autoincrement = true
  address : s'.address = BitVec.ofInt 32 adr + 4

/-- The full `writebus`: control, address and data. -/
theorem busStep_writebus_full {self : PulpOCD} {adr : ℤ} (h : self.lastwradr ≠ some (adr - 4))
    (s : SystemBus) (val : ℤ) :
    ∃ s', busStep (.writebus adr val) (self, s) = (none, (⟨some adr⟩, s')) ∧ Stored s adr val s' := by
  have hc : self.lastwradr = none ∨ self.lastwradr ≠ some (adr - 4) := .inr h
  refine ⟨((s.write 0x38 (BitVec.ofInt 32 (2 <<< 17 + 1 <<< 16 : ℕ))).write 0x39
    (BitVec.ofInt 32 adr)).write 0x3c (BitVec.ofInt 32 val), ?_, rfl, rfl, rfl⟩
  simp only [busStep, exec, writebus, if_pos hc]
  rfl

/-- The shortcut: the data alone. -/
theorem busStep_writebus_short {self : PulpOCD} {s : SystemBus} {adr : ℤ}
    (h : self.lastwradr = some (adr - 4)) (ha : s.autoincrement = true)
    (hb : s.address = BitVec.ofInt 32 adr) (val : ℤ) :
    ∃ s', busStep (.writebus adr val) (self, s) = (none, (⟨some adr⟩, s')) ∧ Stored s adr val s' := by
  have hc : ¬ (self.lastwradr = none ∨ self.lastwradr ≠ some (adr - 4)) := by simp [h]
  refine ⟨s.write 0x3c (BitVec.ofInt 32 val), ?_, ?_⟩
  · simp only [busStep, exec, writebus, if_neg hc]
    rfl
  · simp only [SystemBus.write, SystemBus.store, SystemBus.increment, ha, hb]
    exact ⟨rfl, rfl, rfl⟩

/-! ### Runs -/

/-- A call that leaves the bus and the object alone is observed as nothing, and keeps the
cache right. -/
theorem Describes.lowCall {α : Type} {g : Past} {op : Op} {self : PulpOCD} {s : SystemBus}
    {m : Word → Word} (h : Describes g (self, s) m) (hop : ∀ adr ∈ op.adrs, land adr 0x7f < 0x38)
    {p : Prog Apb α} {f : α → Option ℕ} (hp : exec self op = p >>= fun a => pure (f a, self))
    (ho : ∀ r, observe op r = (none, r.2)) (hs : storeStep op m = (none, m)) (hg : g.next op = g) :
    observeBus op (busStep op (self, s)) = observe op (storeStep op m) ∧
      Describes (g.next op) (busStep op (self, s)).2 (storeStep op m).2 := by
  have hd := h.sameBus (sameBus_busStep hop self s)
  have hself : (busStep op (self, s)).2.1 = self := by rw [busStep, hp, Prog.run_bind]; rfl
  rw [observeBus, ho, ho, hs, hg, ← Prod.mk.eta (p := (busStep op (self, s)).2), hself]
  exact ⟨congrArg (Prod.mk none) hd.mem, hd⟩

/-- **One call**: observed as the store's, and the cache describes the registers again. -/
theorem Describes.step {g : Past} {op : Op} {s : PulpOCD × SystemBus} {m : Word → Word}
    (h : Describes g s m) (ho : g.Allows op) :
    observeBus op (busStep op s) = observe op (storeStep op m) ∧
      Describes (g.next op) (busStep op s).2 (storeStep op m).2 := by
  obtain ⟨self, s⟩ := s
  obtain ⟨hc, ho⟩ := ho
  cases op with
  | resetdm | writeapb _ _ | readapb _ => exact hc.elim
  | halt => exact h.lowCall (by decide) (p := halt) rfl (fun _ => rfl) rfl rfl
  | readreg regnr =>
    exact h.lowCall (by simp only [Op.adrs]; decide) (p := readreg regnr) rfl (fun _ => rfl) rfl rfl
  | writereg regnr val =>
    exact h.lowCall (by simp only [Op.adrs]; decide) (p := writereg regnr val) rfl (fun _ => rfl) rfl rfl
  | setreg2 regnr val =>
    exact h.lowCall (by simp only [Op.adrs]; decide) (p := setreg2 regnr val) rfl (fun _ => rfl) rfl rfl
  | setpc val =>
    exact h.lowCall (by simp only [Op.adrs]; decide) (p := setpc val) rfl (fun _ => rfl) rfl rfl
  | resume =>
    have hlow : ∀ adr ∈ Op.resume.adrs, land adr 0x7f < 0x38 := by decide
    have hm := (h.sameBus (sameBus_busStep hlow self s)).mem
    exact ⟨congrArg (Prod.mk none) hm, rfl, fun _ hw => (by cases hw), hm⟩
  | readbus adr =>
    obtain ⟨s', hs, hm⟩ := busStep_readbus self s adr
    rw [hs]
    refine ⟨?_, h.last, fun _ _ hr => (by cases hr), hm.trans h.mem⟩
    simp only [observeBus, observe, storeStep, hm]
    rw [h.mem]
  | writebus adr val =>
    obtain ⟨s', hs, hst⟩ : ∃ s', busStep (.writebus adr val) (self, s) = (none, (⟨some adr⟩, s')) ∧
        Stored s adr val s' := by
      by_cases hl : g.last = some (adr - 4)
      · obtain ⟨ha, hb⟩ := h.next _ hl (ho hl)
        rw [Int.sub_add_cancel] at hb
        exact busStep_writebus_short (h.last.trans hl) ha hb val
      · exact busStep_writebus_full (fun hc => hl (h.last.symm.trans hc)) s val
    have hm : s'.mem = (storeStep (.writebus adr val) m).2 := by rw [hst.mem, h.mem]; rfl
    rw [hs]
    refine ⟨congrArg (Prod.mk none) hm, rfl, ?_, hm⟩
    intro w hw _
    obtain rfl : adr = w := Option.some.inj hw
    exact ⟨hst.autoincrement, by rw [hst.address, BitVec.ofInt_add]; rfl⟩

/-- **The bus is a plain store** in a run with no `readbus` between a `writebus` and one
of the next word: every word read and the memory after every call are the store's. -/
theorem bus_refines_store (ops : List Op) (s : SystemBus)
    (h : Along Past.Allows Past.next ops ⟨none, false⟩) :
    trace busStep observeBus ops (init, s) = trace storeStep observe ops s.mem := by
  have hinit : Describes ⟨none, false⟩ (init, s) s.mem :=
    ⟨rfl, fun w hw => (by cases hw), rfl⟩
  refine h.trace_eq (R := Describes) ?_ hinit
  intro g op s m hd ho
  exact hd.step ho

/-- A run with a long write, a rewind, and a read after all writes. -/
theorem bus_refines_store_run :
    trace busStep observeBus
        [.writebus 0x30000000 (-1), .writebus 0x30000004 7, .halt, .writebus 0x30000008 8,
          .resume, .writebus 0x3000000c 9, .readbus 0x30000004]
        (init, ⟨false, false, false, 0, 0, fun _ => 0, fun _ => 0⟩) =
      trace storeStep observe
        [.writebus 0x30000000 (-1), .writebus 0x30000004 7, .halt, .writebus 0x30000008 8,
          .resume, .writebus 0x3000000c 9, .readbus 0x30000004] fun _ => 0 :=
  bus_refines_store _ _ (by decide)

/-- **A read between two consecutive writes misleads the second one**: it stores at the
address read. -/
theorem readbus_misleads :
    trace busStep observeBus [.writebus 0 1, .readbus 0x100, .writebus 4 2]
        (init, ⟨false, false, false, 0, 0, fun _ => 0, fun _ => 0⟩) ≠
      trace storeStep observe [.writebus 0 1, .readbus 0x100, .writebus 4 2] fun _ => 0 := by
  intro h
  have := congrArg (fun t => t.map fun r : Option ℕ × (Word → Word) => r.2 4) h
  revert this
  decide

end PulpOCD

end PyOcdRiscv.Ocd
