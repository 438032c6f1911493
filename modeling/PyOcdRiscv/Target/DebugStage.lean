import PyOcdRiscv.Target.DebugCode

/-!
# A hart in debug mode and its debug module

Edge by edge of the clock, with the debugger's view of them (`Debuggee`). The hart makes its accesses when it
likes, and all it has in common with the debug module is what it reads and writes in its page. `Stage` says
how far the two are with what has been asked for, and that the hart will be, when it is done, what the
debugger takes it for. `Stage.edge` is one edge.
-/

namespace PyOcdRiscv.Target

open Lib Debug
open DebugTarget (inPage)

/-! ### What the debug module sees of an access -/

/-- What `dm_mem` makes of an access: reports of the hart, and a word stored to data0. -/
structure Sees (a : Option Access) (going halted resuming : Bool) (stored : Option Word) : Prop where
  going : DmMem.writes Dm.Going a = going
  halted : DmMem.writesHart Dm.Halted a = halted
  resuming : DmMem.writesHart Dm.Resuming a = resuming
  stored : ∀ i, DmMem.dataO i a merge = stored.map (Function.update i.data 0)

theorem sees_none : Sees none false false false none := ⟨rfl, rfl, rfl, fun _ => rfl⟩

theorem sees_read {a : Access} (h : a.we = false) : Sees (some a) false false false none := by
  refine ⟨?_, ?_, ?_, fun i => ?_⟩
  · simp [DmMem.writes, h]
  · simp [DmMem.writesHart, h]
  · simp [DmMem.writesHart, h]
  · simp [DmMem.dataO, h]

theorem dataO_of_offset {i : DmMemIn} {a : Access} (h : DmMem.offset a < Dm.DataAddr) :
    DmMem.dataO i (some a) merge = none := by
  simp only [DmMem.dataO]
  exact if_neg fun hc => absurd hc.2.1 (Nat.not_le.mpr h)

theorem sees_halted : Sees (some ⟨true, 0x1b000100, 0, 0b1111⟩) false true false none :=
  ⟨by decide, by decide, by decide, fun _ => dataO_of_offset (by decide)⟩

theorem sees_going : Sees (some ⟨true, 0x1b000104, 0, 0b1111⟩) true false false none :=
  ⟨by decide, by decide, by decide, fun _ => dataO_of_offset (by decide)⟩

theorem sees_resuming : Sees (some ⟨true, 0x1b000108, 0, 0b1111⟩) false false true none :=
  ⟨by decide, by decide, by decide, fun _ => dataO_of_offset (by decide)⟩

theorem sees_stored (v : Word) : Sees (some ⟨true, 0x1b000380, v, 0b1111⟩) false false false (some v) := by
  have hoff : DmMem.offset ⟨true, 0x1b000380, v, 0b1111⟩ = 0x380 := by
    change (0x1b000380 : Word).toNat % 2 ^ 12 = 0x380
    decide
  have hrange : Dm.DataAddr ≤ 0x380 ∧ 0x380 ≤ Dm.DataEnd := by decide
  refine ⟨?_, ?_, ?_, fun i => ?_⟩
  · change (true && decide (DmMem.offset _ = 0x104)) = false
    rw [hoff]
    rfl
  · change (true && decide (DmMem.offset _ = 0x100) && !v.getLsbD 0) = false
    rw [hoff]
    rfl
  · change (true && decide (DmMem.offset _ = 0x108) && !v.getLsbD 0) = false
    rw [hoff]
    rfl
  · change (if true = true ∧ Dm.DataAddr ≤ DmMem.offset _ ∧ DmMem.offset _ ≤ Dm.DataEnd then
      some (Function.update i.data 0 (merge 0b1111 (i.data 0) v)) else none) = _
    rw [hoff, if_pos ⟨rfl, hrange⟩, merge_all]
    rfl

/-! ### What the hart sees -/

theorem setWidth_append (a b : Word) : (a ++ b).setWidth 32 = b := by
  apply BitVec.eq_of_getLsbD_eq
  intro i hi
  rw [BitVec.getLsbD_setWidth, BitVec.getLsbD_append]
  simp [hi]

theorem extractLsb_append (a b : Word) : (a ++ b).extractLsb' 32 32 = a := by
  apply BitVec.eq_of_getLsbD_eq
  intro i hi
  rw [BitVec.getLsbD_extractLsb', BitVec.getLsbD_append]
  simp [hi]

section

variable (s : DmMem) (i : DmMemIn)

/-- A read of the debug ROM. -/
theorem rdataO_rom {pc : Word} (h : (decode (romCode pc).toNat).isSome = true) :
    inPage pc ∧ s.rdataO i ⟨false, pc, 0, 0b1111⟩ = romCode pc := by
  have hin : inPage pc ∧ Dm.HaltAddress ≤ pc.toNat % 2 ^ 12 := by
    by_contra hin
    rw [romCode, if_neg hin] at h
    exact absurd h (by decide)
  refine ⟨hin.1, ?_⟩
  have hoff : DmMem.offset ⟨false, pc, 0, 0b1111⟩ = pc.toNat % 2 ^ 12 := rfl
  have hmod : pc.toNat % 2 ^ 12 % 2 ^ 8 = pc.toNat % 2 ^ 8 := by omega
  rw [DmMem.rdataO, romCode, if_pos hin, hoff, if_pos hin.2, hmod]

/-- A read of the flags. -/
theorem rdataO_flags (hsel : i.hartsel = 0) (be : BitVec 4) : s.rdataO i ⟨false, 0x1b000400, 0, be⟩ =
    (BitVec.ofBool (s.state = .resume) ++ BitVec.ofBool (s.state = .go)).setWidth 32 := by
  have hoff : DmMem.offset ⟨false, 0x1b000400, 0, be⟩ = 0x400 := by
    change (0x1b000400 : Word).toNat % 2 ^ 12 = 0x400
    decide
  rw [DmMem.rdataO, hoff, if_neg (by decide), if_neg (by decide)]
  simp only [DmMem.rdataD, hoff]
  rw [if_neg (by decide), if_neg (by decide), if_neg (by decide), if_neg (by decide), if_neg (by decide),
    if_pos (by decide), DmMem.flags, hsel]
  cases s.state <;> decide

/-- A read of data0. -/
theorem rdataO_data : s.rdataO i ⟨false, 0x1b000380, 0, 0b1111⟩ = i.data 0 := by
  have hoff : DmMem.offset ⟨false, 0x1b000380, 0, 0b1111⟩ = 0x380 := by decide
  rw [DmMem.rdataO, hoff, if_neg (by decide), if_neg (by decide)]
  simp only [DmMem.rdataD, hoff]
  rw [if_neg (by decide), if_neg (by decide), if_pos (by decide)]
  exact setWidth_append ..

/-- A fetch while a command is executed. -/
theorem rdataO_command (hs : s.state = .cmdExecuting) {pc : Word}
    (h : (decode (commandCode i.cmd i.progbuf pc).toNat).isSome = true) :
    inPage pc ∧ s.rdataO i ⟨false, pc, 0, 0b1111⟩ = commandCode i.cmd i.progbuf pc := by
  have hzero : ¬ (decode (0 : Word).toNat).isSome = true := by decide
  have hoff : DmMem.offset ⟨false, pc, 0, 0b1111⟩ = pc.toNat % 2 ^ 12 := rfl
  have hbusy : s.cmdbusy = true := by simp [DmMem.cmdbusy, hs]
  have hin : inPage pc := by
    by_contra hin
    rw [commandCode, if_pos hin] at h
    exact hzero h
  refine ⟨hin, ?_⟩
  rw [DmMem.rdataO, hoff]
  rw [commandCode, if_neg (not_not.mpr hin)] at h ⊢
  generalize hadr : pc.toNat % 2 ^ 12 = adr at h ⊢
  by_cases hrom : Dm.HaltAddress ≤ adr
  · have hmod : adr % 2 ^ 8 = pc.toNat % 2 ^ 8 := by omega
    rw [if_pos hrom, if_pos hrom, hmod]
  rw [if_neg hrom] at h ⊢
  rw [if_neg hrom]
  simp only [DmMem.rdataD, hoff, hadr]
  by_cases hwhere : adr = Dm.WhereTo
  · rw [if_pos hwhere, if_neg (by rw [hwhere]; decide), if_neg Bool.false_ne_true, if_pos hwhere, if_pos hbusy]
    split_ifs <;> rfl
  rw [if_neg hwhere] at h ⊢
  rw [if_neg hwhere]
  by_cases hbuf : Dm.ProgBufBase ≤ adr ∧ adr ≤ Dm.ProgBufEnd
  · have hdata : ¬ (Dm.DataAddr ≤ adr ∧ adr ≤ Dm.DataEnd) := by
      simp only [Dm.DataAddr, Dm.ProgBufEnd] at *
      omega
    rw [if_neg hdata, if_pos hbuf, if_neg Bool.false_ne_true, if_pos hbuf]
    have hbase : Dm.ProgBufBase = 0x360 := rfl
    by_cases hodd : adr / 4 % 2 = 1
    · have hk : 2 * (adr / 8 - Dm.ProgBufBase / 8) + 1 = (adr - Dm.ProgBufBase) / 4 := by omega
      rw [if_pos hodd, extractLsb_append, hk]
    · have hk : 2 * (adr / 8 - Dm.ProgBufBase / 8) = (adr - Dm.ProgBufBase) / 4 := by omega
      rw [if_neg hodd, setWidth_append, hk]
  rw [if_neg hbuf] at h ⊢
  by_cases hcmd : Dm.AbstractCmdBase ≤ adr ∧ adr ≤ Dm.AbstractCmdEnd
  · have hdata : ¬ (Dm.DataAddr ≤ adr ∧ adr ≤ Dm.DataEnd) := by
      simp only [Dm.DataAddr, Dm.AbstractCmdEnd] at *
      omega
    rw [if_neg hdata, if_neg hbuf, if_neg Bool.false_ne_true, if_pos hcmd, if_pos hcmd]
    have hbase : Dm.AbstractCmdBase = 0x338 := rfl
    by_cases hodd : adr / 4 % 2 = 1
    · have hk : 2 * (adr / 8 - Dm.AbstractCmdBase / 8) + 1 = (adr - Dm.AbstractCmdBase) / 4 := by omega
      rw [if_pos hodd, extractLsb_append, hk]
    · have hk : 2 * (adr / 8 - Dm.AbstractCmdBase / 8) = (adr - Dm.AbstractCmdBase) / 4 := by omega
      rw [if_neg hodd, setWidth_append, hk]
  · rw [if_neg hcmd] at h
    exact absurd h hzero

end

/-! ### What a request does -/

/-- A request that is about the command that is executed: it writes a command, data or the program
buffer. -/
def Interferes (r : Request) : Prop :=
  r.op = DTM_WRITE ∧ (r.adr = 0x17 ∨ DmRegs.isData r.adr ∨ DmRegs.isProgBuf r.adr)

instance (r : Request) : Decidable (Interferes r) := inferInstanceAs (Decidable (_ ∧ (_ ∨ _ ∨ _)))

/-- What the debugger sees after an edge: while a command is executed, requests that interfere are
dropped. -/
def Debuggee.after (d : Debuggee) (busy : Bool) (r : Option Request) : Debuggee :=
  r.elim d fun r => if busy = true ∧ Interferes r then d else d.serve r

/-- A request keeps the debug module active and the hart selected, does not reset the hart, and leaves
commands that are executed by themselves off. -/
def Polite (r : Request) : Prop :=
  r.op = DTM_WRITE →
    (r.adr = 0x10 → (DmControl.ofWord (.ofNat 32 r.data)).dmactive = true ∧
      (DmControl.ofWord (.ofNat 32 r.data)).hartsel = 0 ∧ (DmControl.ofWord (.ofNat 32 r.data)).ndmreset = false) ∧
    (r.adr = 0x18 → BitVec.ofNat 32 r.data = 0)

instance (r : Request) : Decidable (Polite r) := inferInstanceAs (Decidable (_ → (_ → _ ∧ _ ∧ _) ∧ (_ → _)))

/-- The debug module is active, the hart is selected, and no command is executed by itself. -/
structure Attached (t : DmRegs) : Prop where
  dmactive : t.dmcontrol.dmactive = true
  hartsel : t.dmcontrol.hartsel = 0
  auto : t.abstractauto = 0

/-- A request that is no command has done the same to the debug module and to what the debugger sees. -/
structure Alike (t t' : DmRegs) (d d' : Debuggee) (f g : (ℕ → Word) → ℕ → Word) : Prop where
  command : t'.command = t.command
  cmdValid : t'.cmdValid = false
  data : t'.data = f t.data ∧ d'.data = f d.data
  progbuf : t'.progbuf = g t.progbuf ∧ d'.progbuf = g d.progbuf
  context : d'.context = d.context
  resumes : d.resumes = true → d'.resumes = true
  resumereq : t'.dmcontrol.resumereq = true → t.dmcontrol.resumereq = true ∨ d'.resumes = true
  attached : Attached t'

theorem autoexec_eq {t : DmRegs} (h : Attached t) (adr : ℕ) : t.autoexec adr = false := by
  simp [DmRegs.autoexec, h.auto]

/-- A request that changes nothing that matters here. -/
theorem Alike.refl {t : DmRegs} (h : Attached t) (d : Debuggee) : Alike t { t with cmdValid := false } d d id id :=
  ⟨rfl, rfl, ⟨rfl, rfl⟩, ⟨rfl, rfl⟩, rfl, id, Or.inl, ⟨h.dmactive, h.hartsel, h.auto⟩⟩

section

variable {t : DmRegs} {d : Debuggee} {r : Request}

theorem request_of_read (h : Attached t) (busy : Bool) (hop : r.op ≠ DTM_WRITE) :
    DmRegs.request { t with cmdValid := false } busy r = { t with cmdValid := false } := by
  have hauto := autoexec_eq (t := { t with cmdValid := false }) ⟨h.dmactive, h.hartsel, h.auto⟩ r.adr
  rw [DmRegs.request]
  split_ifs
  · rw [hauto]
  · rfl
  · rfl

theorem after_of_read (d : Debuggee) (busy : Bool) (hop : r.op ≠ DTM_WRITE) : d.after busy (some r) = d := by
  have hserve : d.serve r = d := if_neg hop
  rw [Debuggee.after, Option.elim_some, hserve, ite_self]

/-- Data is written. -/
theorem alike_data (h : Attached t) (busy : Bool) (hop : r.op = DTM_WRITE) (hadr : DmRegs.isData r.adr) :
    ∃ f g, Alike t (DmRegs.request { t with cmdValid := false } busy r) d (d.after busy (some r)) f g ∧
      (busy = true ∨ ¬ Interferes r → f = id ∧ g = id) := by
  have hne : DTM_WRITE ≠ DTM_READ := by decide
  have hinter : Interferes r := ⟨hop, Or.inr (Or.inl hadr)⟩
  have hauto := autoexec_eq (t := { t with cmdValid := false }) ⟨h.dmactive, h.hartsel, h.auto⟩ r.adr
  cases busy with
  | true =>
    have hreq : DmRegs.request { t with cmdValid := false } true r = { t with cmdValid := false } := by
      simp [DmRegs.request, hop, hne, hadr]
    have hafter : d.after true (some r) = d := if_pos ⟨rfl, hinter⟩
    rw [hreq, hafter]
    exact ⟨id, id, .refl h d, fun _ => ⟨rfl, rfl⟩⟩
  | false =>
    let f : (ℕ → Word) → ℕ → Word := fun x =>
      if r.adr < 0x04 + DmRegs.DataCount then Function.update x (r.adr - 0x04) (.ofNat 32 r.data) else x
    have hreq : DmRegs.request { t with cmdValid := false } false r =
        { t with data := f t.data, cmdValid := false } := by
      simp only [DmRegs.request, hop, if_neg hne, if_pos hadr, hauto]
      rfl
    have hafter : d.after false (some r) = { d with data := f d.data } := by
      obtain ⟨hlo, hhi⟩ := hadr
      simp only [DmRegs.DataCount] at hhi
      have hserve : d.serve r = { d with data := f d.data } := by
        simp only [Debuggee.serve, hop, if_true, f]
        rw [if_neg (by omega), if_neg (by omega)]
        by_cases hlt : r.adr < 0x04 + DmRegs.DataCount
        · rw [if_pos ⟨hlo, hlt⟩, if_pos hlt]
        · rw [if_neg (fun hc => hlt hc.2), if_neg hlt, if_neg (by omega)]
      rw [Debuggee.after, Option.elim_some, if_neg (fun hc => Bool.false_ne_true hc.1), hserve]
    rw [hreq, hafter]
    refine ⟨f, id, ⟨rfl, rfl, ⟨rfl, rfl⟩, ⟨rfl, rfl⟩, rfl, id, Or.inl, ⟨h.dmactive, h.hartsel, h.auto⟩⟩, fun hc => ?_⟩
    rcases hc with hc | hc
    · exact absurd hc Bool.false_ne_true
    · exact absurd hinter hc

/-- The program buffer is written. -/
theorem alike_progbuf (h : Attached t) (busy : Bool) (hop : r.op = DTM_WRITE) (hadr : DmRegs.isProgBuf r.adr) :
    ∃ f g, Alike t (DmRegs.request { t with cmdValid := false } busy r) d (d.after busy (some r)) f g ∧
      (busy = true ∨ ¬ Interferes r → f = id ∧ g = id) := by
  have hne : DTM_WRITE ≠ DTM_READ := by decide
  have hinter : Interferes r := ⟨hop, Or.inr (Or.inr hadr)⟩
  have hauto := autoexec_eq (t := { t with cmdValid := false }) ⟨h.dmactive, h.hartsel, h.auto⟩ r.adr
  obtain ⟨hlo, hhi⟩ := hadr
  simp only [DmRegs.ProgBufSize] at hhi
  have hdata : ¬ DmRegs.isData r.adr := by
    simp only [DmRegs.isData, DmRegs.DataCount]
    omega
  have hbuf : DmRegs.isProgBuf r.adr := ⟨hlo, hhi⟩
  have h10 : r.adr ≠ 0x10 := by omega
  have h16 : r.adr ≠ 0x16 := by omega
  have h17 : r.adr ≠ 0x17 := by omega
  have h18 : r.adr ≠ 0x18 := by omega
  cases busy with
  | true =>
    have hreq : DmRegs.request { t with cmdValid := false } true r = { t with cmdValid := false } := by
      simp [DmRegs.request, hop, hne, hdata, h10, h16, h17, h18]
    have hafter : d.after true (some r) = d := if_pos ⟨rfl, hinter⟩
    rw [hreq, hafter]
    exact ⟨id, id, .refl h d, fun _ => ⟨rfl, rfl⟩⟩
  | false =>
    let g : (ℕ → Word) → ℕ → Word := fun x =>
      if r.adr < 0x20 + DmRegs.ProgBufSize then Function.update x (r.adr - 0x20) (.ofNat 32 r.data) else x
    have hreq : DmRegs.request { t with cmdValid := false } false r =
        { t with progbuf := g t.progbuf, cmdValid := false } := by
      simp only [DmRegs.request, hop, if_neg hne, if_neg hdata, if_neg h10, if_neg h16, if_neg h17, if_neg h18,
        if_pos hbuf, hauto]
      rfl
    have hafter : d.after false (some r) = { d with progbuf := g d.progbuf } := by
      have hserve : d.serve r = { d with progbuf := g d.progbuf } := by
        simp only [Debuggee.serve, hop, if_true, g]
        rw [if_neg h17, if_neg h10, if_neg (by simp only [DmRegs.DataCount]; omega)]
        by_cases hlt : r.adr < 0x20 + DmRegs.ProgBufSize
        · rw [if_pos ⟨hlo, hlt⟩, if_pos hlt]
        · rw [if_neg (fun hc => hlt hc.2), if_neg hlt]
      rw [Debuggee.after, Option.elim_some, if_neg (fun hc => Bool.false_ne_true hc.1), hserve]
    rw [hreq, hafter]
    refine ⟨id, g, ⟨rfl, rfl, ⟨rfl, rfl⟩, ⟨rfl, rfl⟩, rfl, id, Or.inl, ⟨h.dmactive, h.hartsel, h.auto⟩⟩, fun hc => ?_⟩
    rcases hc with hc | hc
    · exact absurd hc Bool.false_ne_true
    · exact absurd hinter hc

/-- DMCONTROL is written. -/
theorem alike_dmcontrol (h : Attached t) (busy : Bool) (hpolite : Polite r) (hop : r.op = DTM_WRITE)
    (hadr : r.adr = 0x10) :
    Alike t (DmRegs.request { t with cmdValid := false } busy r) d (d.after busy (some r)) id id := by
  have hne : DTM_WRITE ≠ DTM_READ := by decide
  have hdata : ¬ DmRegs.isData 0x10 := by decide
  obtain ⟨hactive, hsel, -⟩ := (hpolite hop).1 hadr
  have hreq : DmRegs.request { t with cmdValid := false } busy r =
      { t with
        cmdValid := false
        havereset := t.havereset && !((BitVec.ofNat 32 r.data).getLsbD 28 && t.dmcontrol.selected)
        dmcontrol := .ofWord (.ofNat 32 r.data) } := by
    simp [DmRegs.request, hop, hne, hadr, hdata]
  have hinter : ¬ Interferes r := by
    rintro ⟨-, hc⟩
    rw [hadr] at hc
    exact absurd hc (by decide)
  have hafter : d.after busy (some r) =
      { d with resumes := d.resumes || (BitVec.ofNat 32 r.data).getLsbD 30 } := by
    rw [Debuggee.after, Option.elim_some, if_neg (fun hc => hinter hc.2)]
    simp [Debuggee.serve, hop, hadr]
  rw [hreq, hafter]
  refine ⟨rfl, rfl, ⟨rfl, rfl⟩, ⟨rfl, rfl⟩, rfl, fun hr => ?_, fun hr => Or.inr ?_, ⟨hactive, hsel, h.auto⟩⟩
  · simp [hr]
  · have hbit : (BitVec.ofNat 32 r.data).getLsbD 30 = true := hr
    simp [hbit]

/-- Another register is written. -/
theorem alike_other (h : Attached t) (busy : Bool) (hpolite : Polite r) (hop : r.op = DTM_WRITE)
    (hdata : ¬ DmRegs.isData r.adr) (hbuf : ¬ DmRegs.isProgBuf r.adr) (h10 : r.adr ≠ 0x10)
    (h17 : busy = true ∨ r.adr ≠ 0x17) :
    Alike t (DmRegs.request { t with cmdValid := false } busy r) d (d.after busy (some r)) id id := by
  have hne : DTM_WRITE ≠ DTM_READ := by decide
  have hafter : d.after busy (some r) = d := by
    rw [Debuggee.after, Option.elim_some]
    split_ifs with hc
    · rfl
    · have hadr17 : r.adr ≠ 0x17 := fun hadr => by
        rcases h17 with hb | hb
        · exact hc ⟨hb, hop, Or.inl hadr⟩
        · exact hb hadr
      simp only [Debuggee.serve, hop, if_true]
      rw [if_neg hadr17, if_neg h10, if_neg (fun hc => hdata ⟨hc.1, hc.2.le⟩), if_neg (fun hc => hbuf ⟨hc.1, hc.2.le⟩)]
  rw [hafter]
  have herror (u : DmRegs) (hu : ∃ e, u = { t with cmdValid := false, cmderr := e }) :
      Alike t u d d id id := by
    obtain ⟨e, rfl⟩ := hu
    exact ⟨rfl, rfl, ⟨rfl, rfl⟩, ⟨rfl, rfl⟩, rfl, id, Or.inl, ⟨h.dmactive, h.hartsel, h.auto⟩⟩
  have hbusyError : ∃ e, DmRegs.busyError { t with cmdValid := false } = { t with cmdValid := false, cmderr := e } := by
    rw [DmRegs.busyError]
    split_ifs
    · exact ⟨1, rfl⟩
    · exact ⟨t.cmderr, rfl⟩
  rw [DmRegs.request, if_neg (by rw [hop]; exact hne), if_pos hop, if_neg hdata, if_neg h10]
  split_ifs with h16 hbusy h17' hbusy h18 hbusy
  · exact herror _ hbusyError
  · exact herror _ ⟨_, rfl⟩
  · exact herror _ hbusyError
  · rcases h17 with hb | hb
    · exact absurd hb hbusy
    · exact absurd h17' hb
  · exact herror _ hbusyError
  · have hzero := (hpolite hop).2 h18
    refine ⟨rfl, rfl, ⟨rfl, rfl⟩, ⟨rfl, rfl⟩, rfl, id, Or.inl, ⟨h.dmactive, h.hartsel, ?_⟩⟩
    dsimp only
    rw [hzero]
    exact BitVec.zero_and
  · exact herror _ ⟨t.cmderr, rfl⟩

end

/-- **What a request does**, if it is no command that begins. -/
theorem alike {t : DmRegs} (h : Attached t) (d : Debuggee) (busy : Bool) {r : Request} (hpolite : Polite r)
    (hcmd : ¬ (busy = false ∧ r.op = DTM_WRITE ∧ r.adr = 0x17)) :
    ∃ f g, Alike t (DmRegs.request { t with cmdValid := false } busy r) d (d.after busy (some r)) f g ∧
      (busy = true ∨ ¬ Interferes r → f = id ∧ g = id) := by
  by_cases hop : r.op = DTM_WRITE
  · by_cases hdata : DmRegs.isData r.adr
    · exact alike_data h busy hop hdata
    by_cases hbuf : DmRegs.isProgBuf r.adr
    · exact alike_progbuf h busy hop hbuf
    by_cases h10 : r.adr = 0x10
    · exact ⟨id, id, alike_dmcontrol h busy hpolite hop h10, fun _ => ⟨rfl, rfl⟩⟩
    have h17 : busy = true ∨ r.adr ≠ 0x17 := by
      by_contra hc
      obtain ⟨hbusy, hadr⟩ := not_or.mp hc
      exact hcmd ⟨by simpa using hbusy, hop, not_not.mp hadr⟩
    exact ⟨id, id, alike_other h busy hpolite hop hdata hbuf h10 h17, fun _ => ⟨rfl, rfl⟩⟩
  · rw [request_of_read h busy hop, after_of_read d busy hop]
    exact ⟨id, id, .refl h d, fun _ => ⟨rfl, rfl⟩⟩

/-! ### An edge of the debug module -/

section

variable {t : DmTop} {d : Debuggee} {r : Option Request} {a : Option Access} {g ha re : Bool} {st : Option Word}

theorem selected_of_hartsel {c : DmControl} (h : c.hartsel = 0) : c.selected = true := by
  simp [DmControl.selected, h]

/-- The state machine after an edge. -/
theorem state_edge (h : Attached t.regs) (hs : Sees a g ha re st) (b : SbaBus) (r : Option Request) :
    (t.edge b a r).mem.state = match t.mem.state with
      | .idle =>
        if t.regs.dmcontrol.resumereq && !t.mem.resuming && !t.regs.dmcontrol.haltreq && t.mem.halted then .resume
        else if t.regs.cmdValid && t.mem.halted then .go
        else .idle
      | .go => if g then .cmdExecuting else .go
      | .resume => if t.mem.resuming then .idle else .resume
      | .cmdExecuting => if ha then .idle else .cmdExecuting := by
  change t.mem.nextState (t.memIn r) a = _
  have hsel := selected_of_hartsel h.hartsel
  cases hstate : t.mem.state <;>
    simp [DmMem.nextState, hstate, DmTop.memIn, DmMem.haltedSel, hsel, h.hartsel, hs.going, hs.halted]

theorem halted_edge (hs : Sees a g ha re st) (b : SbaBus) (r : Option Request) :
    (t.edge b a r).mem.halted = if ha then true else if re then false else t.mem.halted := by
  change (if DmMem.writesHart Dm.Halted a then true
    else if DmMem.writesHart Dm.Resuming a then false else t.mem.halted) = _
  rw [hs.halted, hs.resuming]

theorem resuming_edge (hs : Sees a g ha re st) (b : SbaBus) (r : Option Request) :
    (t.edge b a r).mem.resuming = if re then true
      else if (t.memIn r).clearResumeack && (t.memIn r).hartsel = 0 then false else t.mem.resuming := by
  rw [← hs.resuming]
  rfl

/-- It stays as it is, or is cleared. -/
theorem resuming_edge_of_false (hs : Sees a g ha false st) (b : SbaBus) (r : Option Request)
    (h : t.mem.resuming = false) : (t.edge b a r).mem.resuming = false := by
  rw [resuming_edge hs, h]
  simp

/-- The registers after an edge. -/
theorem regs_edge_eq (h : Attached t.regs) (b : SbaBus) (a : Option Access) (r : Option Request) :
    ∃ e hr rr, (rr = true → (t.requested r).dmcontrol.resumereq = true) ∧
      (t.edge b a r).regs = { t.requested r with
        cmderr := e
        havereset := hr
        data := (DmMem.dataO (t.memIn r) a merge).getD (t.requested r).data
        dmcontrol := { (t.requested r).dmcontrol with resumereq := rr } } := by
  change ∃ e hr rr, _ ∧ t.regsEdge a r = _
  simp only [DmTop.regsEdge, if_pos h.dmactive]
  cases t.mem.cmderror (t.memIn r) a <;> cases DmMem.dataO (t.memIn r) a merge <;>
    cases t.regs.dmcontrol.ndmreset <;> cases t.regs.dmcontrol.resumereq && t.mem.resuming <;>
    exact ⟨_, _, _, by first | exact id | exact fun hc => absurd hc Bool.false_ne_true, rfl⟩

theorem regs_edge (h : Attached t.regs) (hs : Sees a g ha re st) (b : SbaBus) (r : Option Request) :
    ∃ e hr rr, (rr = true → (t.requested r).dmcontrol.resumereq = true) ∧
      (t.edge b a r).regs = { t.requested r with
        cmderr := e
        havereset := hr
        data := st.elim (t.requested r).data (Function.update t.regs.data 0)
        dmcontrol := { (t.requested r).dmcontrol with resumereq := rr } } := by
  obtain ⟨e, hr, rr, hrr, hregs⟩ := regs_edge_eq h b a r
  rw [hs.stored] at hregs
  refine ⟨e, hr, rr, hrr, hregs.trans ?_⟩
  cases st <;> rfl

/-- A request that may be made now: it does not come right behind a command to interfere with it, and a
command is one that the debugger may ask for, of a hart that is halted and has not been asked to resume. -/
def Timely (t : DmTop) (d : Debuggee) (r : Request) : Prop :=
  (t.regs.cmdValid = true → ¬ Interferes r) ∧
    (t.mem.cmdbusy = false → r.op = DTM_WRITE → r.adr = 0x17 →
      t.mem.halted = true ∧ t.regs.dmcontrol.resumereq = false ∧ (d.command (.ofNat 32 r.data)).isSome = true)

instance (t : DmTop) (d : Debuggee) (r : Request) : Decidable (Timely t d r) :=
  inferInstanceAs (Decidable ((_ → ¬ _) ∧ (_ → _ → _ → _ ∧ _ ∧ _)))

/-- A command begins. -/
structure Begins (t : DmTop) (d : Debuggee) (r : Option Request) (w : Word) : Prop where
  busy : t.mem.cmdbusy = false
  cmdValid : t.regs.cmdValid = false
  halted : t.mem.halted = true
  resumereq : t.regs.dmcontrol.resumereq = false
  command : d.command w = some (d.after t.mem.cmdbusy r)
  requested : t.requested r = { t.regs with cmdValid := true, command := w }

/-- **A command begins, or the request does the same on both sides.** -/
theorem asks (h : Attached t.regs) (hr : ∀ q, r = some q → Polite q ∧ Timely t d q) :
    (∃ w, Begins t d r w) ∨ ∃ f g, Alike t.regs (t.requested r) d (d.after t.mem.cmdbusy r) f g ∧
      (t.mem.cmdbusy = true ∨ t.regs.cmdValid = true → f = id ∧ g = id) := by
  cases r with
  | none => exact Or.inr ⟨id, id, .refl h d, fun _ => ⟨rfl, rfl⟩⟩
  | some q =>
    obtain ⟨hpolite, htimely⟩ := hr q rfl
    by_cases hcmd : t.mem.cmdbusy = false ∧ q.op = DTM_WRITE ∧ q.adr = 0x17
    · obtain ⟨hbusy, hop, hadr⟩ := hcmd
      obtain ⟨hhalted, hresumereq, hsome⟩ := htimely.2 hbusy hop hadr
      have hvalid : t.regs.cmdValid = false := by
        by_contra hvalid
        exact htimely.1 (by simpa using hvalid) ⟨hop, Or.inl hadr⟩
      obtain ⟨d₁, hd₁⟩ := Option.isSome_iff_exists.mp hsome
      have hafter : d.after t.mem.cmdbusy (some q) = d₁ := by
        rw [Debuggee.after, Option.elim_some, if_neg (fun hc => by rw [hbusy] at hc; exact Bool.false_ne_true hc.1)]
        simp [Debuggee.serve, hop, hadr, hd₁]
      have hreq : t.requested (some q) = { t.regs with cmdValid := true, command := .ofNat 32 q.data } := by
        have hne : DTM_WRITE ≠ DTM_READ := by decide
        have hdata : ¬ DmRegs.isData 0x17 := by decide
        simp [DmTop.requested, DmRegs.request, hop, hne, hadr, hdata, hbusy]
      exact Or.inl ⟨_, hbusy, hvalid, hhalted, hresumereq, hd₁.trans (congrArg some hafter.symm), hreq⟩
    · obtain ⟨f, g, halike, hid⟩ := alike h d t.mem.cmdbusy hpolite hcmd
      exact Or.inr ⟨f, g, halike, fun hc => hid (hc.imp id htimely.1)⟩

end

/-! ### Errands -/

open Context (Same)

/-- What the debug module is about to have the hart do, which is in debug mode with the registers `L`. -/
inductive Errand (t : DmTop) (L : Context) (d : Debuggee) : Prop
  | nothing (hstate : t.mem.state = .idle) (hvalid : t.regs.cmdValid = false) (hsame : Same d.context L)
      (hdata : t.regs.data = d.data)
  /-- `d₀` is what the debugger has seen before the command. -/
  | command (d₀ d₁ : Debuggee)
      (hstate : t.mem.state = .go ∧ t.regs.cmdValid = false ∨ t.mem.state = .idle ∧ t.regs.cmdValid = true ∧
        t.mem.halted = true ∧ t.regs.dmcontrol.resumereq = false)
      (hsame : Same d₀.context L) (hdata : t.regs.data = d₀.data) (hprogbuf : d₀.progbuf = t.regs.progbuf)
      (hcommand : d₀.command t.regs.command = some d₁) (hcontext : d.context = d₁.context)
      (hdata' : d.data = d₁.data)
  | resume (hstate : t.mem.state = .resume) (hvalid : t.regs.cmdValid = false) (hresuming : t.mem.resuming = false)
      (hsame : Same d.context L) (hdata : t.regs.data = d.data) (hresumes : d.resumes = true)

section

variable {t : DmTop} {d : Debuggee} {r : Option Request} {a : Option Access} {ha : Bool} {L : Context}

/-- **An errand goes on** while the hart only looks and reports that it is halted. -/
theorem Errand.edge (he : Errand t L d) (h : Attached t.regs) (hprogbuf : t.regs.progbuf = d.progbuf)
    (hresumes : t.regs.dmcontrol.resumereq = true → d.resumes = true)
    (hr : ∀ q, r = some q → Polite q ∧ Timely t d q) (hs : Sees a false ha false none) (b : SbaBus) :
    Errand (t.edge b a r) L (d.after t.mem.cmdbusy r) ∧
      (t.mem.state ≠ .idle → (t.edge b a r).mem.state = t.mem.state) := by
  have hstate' := state_edge h hs b r
  have hhalted' := halted_edge (t := t) hs b r
  have hresuming' := resuming_edge_of_false (t := t) hs b r
  obtain ⟨e, hr', rr, hrr, hregs⟩ := regs_edge h hs b r
  rcases asks h hr with ⟨w, hbegins⟩ | ⟨f, g, halike, hid⟩
  · have hidle : t.mem.state = .idle := by
      have hbusy := hbegins.busy
      simpa [DmMem.cmdbusy] using hbusy
    refine ⟨?_, fun hne => absurd hidle hne⟩
    rw [hbegins.requested] at hregs hrr
    have hrr' : rr = false := by
      by_contra hc
      exact Bool.false_ne_true (hbegins.resumereq.symm.trans (hrr (by simpa using hc)))
    rw [hidle, hbegins.resumereq, hbegins.cmdValid] at hstate'
    cases he with
    | nothing _ _ hsame hdata =>
      refine .command d _ (Or.inr ⟨hstate', ?_, ?_, ?_⟩) hsame ?_ ?_ ?_ rfl rfl
      · rw [hregs]
      · rw [hhalted', hbegins.halted]
        simp
      · rw [hregs]
        exact hrr'
      · rw [hregs]
        exact hdata
      · rw [hregs]
        exact hprogbuf.symm
      · rw [hregs]
        exact hbegins.command
    | command d₀ d₁ hstate =>
      rcases hstate with ⟨hgo, -⟩ | ⟨-, hvalid, -⟩
      · exact absurd (hidle.symm.trans hgo) (by decide)
      · exact absurd (hbegins.cmdValid.symm.trans hvalid) (by decide)
    | resume hstate => exact absurd (hidle.symm.trans hstate) (by decide)
  · have hvalid' : (t.edge b a r).regs.cmdValid = false := by
      rw [hregs]
      exact halike.cmdValid
    have hdata' : (t.edge b a r).regs.data = f t.regs.data := by
      rw [hregs]
      exact halike.data.1
    cases he with
    | nothing hidle hvalid hsame hdata =>
      refine ⟨?_, fun hne => absurd hidle hne⟩
      have hsame' : Same (d.after t.mem.cmdbusy r).context L := by
        rw [halike.context]
        exact hsame
      have hdata'' : (t.edge b a r).regs.data = (d.after t.mem.cmdbusy r).data := by
        rw [hdata', halike.data.2, hdata]
      rw [hidle, hvalid] at hstate'
      by_cases hres : (t.regs.dmcontrol.resumereq && !t.mem.resuming && !t.regs.dmcontrol.haltreq &&
          t.mem.halted) = true
      · rw [if_pos hres] at hstate'
        simp only [Bool.and_eq_true, Bool.not_eq_true'] at hres
        exact .resume hstate' hvalid' (hresuming' hres.1.1.2) hsame' hdata'' (halike.resumes (hresumes hres.1.1.1))
      · rw [if_neg hres] at hstate'
        exact .nothing hstate' hvalid' hsame' hdata''
    | command d₀ d₁ hstate hsame hdata hprogbuf₀ hcommand hcontext hdata₁ =>
      obtain ⟨rfl, rfl⟩ : f = id ∧ g = id := by
        rcases hstate with ⟨hgo, -⟩ | ⟨-, hvalid, -⟩
        · exact hid (Or.inl (by simp [DmMem.cmdbusy, hgo]))
        · exact hid (Or.inr hvalid)
      have hgo' : (t.edge b a r).mem.state = .go := by
        rcases hstate with ⟨hgo, -⟩ | ⟨hidle, hvalid, hhalted, hreq⟩
        · rw [hstate', hgo]
          rfl
        · rw [hstate', hidle, hvalid, hhalted, hreq]
          rfl
      refine ⟨.command d₀ d₁ (Or.inl ⟨hgo', hvalid'⟩) hsame (hdata'.trans hdata) ?_ ?_ ?_ ?_, fun hne => ?_⟩
      · rw [hregs]
        exact hprogbuf₀.trans halike.progbuf.1.symm
      · rw [hregs]
        dsimp only
        rw [halike.command]
        exact hcommand
      · rw [halike.context, hcontext]
      · rw [halike.data.2]
        exact hdata₁
      · rcases hstate with ⟨hgo, -⟩ | ⟨hidle, -⟩
        · rw [hgo', hgo]
        · exact absurd hidle hne
    | resume hres hvalid hresuming hsame hdata hresumes' =>
      obtain ⟨rfl, rfl⟩ : f = id ∧ g = id := hid (Or.inl (by simp [DmMem.cmdbusy, hres]))
      rw [hres, hresuming] at hstate'
      refine ⟨.resume hstate' hvalid' (hresuming' hresuming) ?_ ?_ (halike.resumes hresumes'), fun _ => ?_⟩
      · rw [halike.context]
        exact hsame
      · rw [hdata', halike.data.2, hdata]
      · rw [hstate', hres]
        rfl

end

/-! ### Stages -/

/-- How far the debug module and the hart, which is in debug mode, are with what the debugger sees. -/
inductive Stage (t : DmTop) (h : RiscvCore) (d : Debuggee) : Prop
  /-- The hart polls its flags. -/
  | polls (L : Context) (n : ℕ) (h₁ : RiscvCore) (hwhere : h₁ = L.reportsHalted ∨ h₁ = L.looksGo ∨ h₁ = L.looksResume)
      (hline : RomLine n h h₁) (herrand : Errand t L d)
  /-- It has seen that it may go. -/
  | goes (L : Context) (n : ℕ) (hline : RomLine n h L.reportsGoing) (hstate : t.mem.state = .go)
      (herrand : Errand t L d)
  /-- It executes a command. -/
  | executes (L : Context) (out : Option Word)
      (hthrough : Through (commandCode t.regs.command t.regs.progbuf) (t.regs.data 0) h L.reportsHalted out)
      (hstate : t.mem.state = .cmdExecuting) (hvalid : t.regs.cmdValid = false)
      (hsame : Same d.context L) (hdata : d.data = out.elim t.regs.data (Function.update t.regs.data 0))
  /-- It has seen that it may resume. -/
  | resumes (L : Context) (n : ℕ) (hline : RomLine n h L.reportsResuming) (hstate : t.mem.state = .resume)
      (herrand : Errand t L d)
  /-- It has reported that it resumes. -/
  | leaves (L : Context) (n : ℕ) (hline : RomLine (n + 1) h L.resumed)
      (hstate : t.mem.state = .idle ∨ t.mem.state = .resume ∧ t.mem.resuming = true)
      (hhalted : t.mem.halted = false) (hvalid : t.regs.cmdValid = false)
      (hsame : Same d.context L) (hdata : t.regs.data = d.data) (hresumes : d.resumes = true)

/-- What the hart does at an edge, and its access. -/
inductive Moves (t : DmTop) (r : Option Request) (h : RiscvCore) : RiscvCore → Option Access → Prop
  | wait : Moves t r h h none
  | move (hin : inPage h.access.addr) :
      Moves t r h (h.next haltAddress (t.mem.rdataO (t.memIn r) h.access)) (some h.access)

/-- The hart has left debug mode. -/
structure Left (t : DmTop) (h : RiscvCore) (d : Debuggee) : Prop where
  hart : ∃ L : Context, h = L.resumed ∧ Same d.context L
  state : t.mem.state = .idle
  halted : t.mem.halted = false
  cmdValid : t.regs.cmdValid = false
  data : t.regs.data = d.data
  resumes : d.resumes = true

section

variable {t : DmTop} {d : Debuggee} {r : Option Request} {a : Option Access} {h h' h₁ : RiscvCore} {L : Context} {n : ℕ}

/-- An instruction from the ROM. -/
theorem next_rom (t : DmTop) (r : Option Request) (hline : RomLine (n + 1) h h₁) :
    Sees (some h.access) false false false none ∧
      RomLine n (h.next haltAddress (t.mem.rdataO (t.memIn r) h.access)) h₁ := by
  obtain ⟨-, haccess, hsome, hnext⟩ := hline.next
  obtain ⟨-, hrdata⟩ := rdataO_rom t.mem (t.memIn r) hsome
  rw [haccess, hrdata]
  exact ⟨sees_read rfl, hnext⟩

/-- A hart on its way through the ROM. -/
theorem Moves.rom (hm : Moves t r h h' a) (hline : RomLine (n + 1) h h₁) :
    Sees a false false false none ∧ (RomLine (n + 1) h' h₁ ∨ RomLine n h' h₁) := by
  cases hm with
  | wait => exact ⟨sees_none, Or.inl hline⟩
  | move hin =>
    obtain ⟨hs, hnext⟩ := next_rom t r hline
    exact ⟨hs, Or.inr hnext⟩

/-- What the flags are read as. -/
def flag : DmMemState → Word
  | .go => 1
  | .resume => 2
  | .idle | .cmdExecuting => 0

/-- The hart looks at its flags. -/
theorem next_looks (ht : Attached t.regs) (L : Context) (pc : Word) (be : BitVec 4) :
    (L.parked base pc (some (.lbu 8 0x1b000400))).next haltAddress
        (t.mem.rdataO (t.memIn r) ⟨false, 0x1b000400, 0, be⟩) = L.parked (flag t.mem.state) pc none := by
  rw [rdataO_flags t.mem (t.memIn r) ht.hartsel]
  cases t.mem.state <;> simp [Hart.next, Context.parked] <;> rfl

/-- It looks whether it is to go. -/
theorem next_looksGo (ht : Attached t.regs) (r : Option Request) :
    t.mem.state = .go ∧
        RomLine 3 (L.looksGo.next haltAddress (t.mem.rdataO (t.memIn r) L.looksGo.access)) L.reportsGoing ∨
      t.mem.state ≠ .go ∧
        RomLine 5 (L.looksGo.next haltAddress (t.mem.rdataO (t.memIn r) L.looksGo.access)) L.looksResume := by
  have hnext := next_looks (r := r) ht L 0x1b000834 (1 <<< (0x1b000400 % 4))
  have hlook : L.looksGo.next haltAddress (t.mem.rdataO (t.memIn r) L.looksGo.access) =
      L.parked (flag t.mem.state) 0x1b000834 none := hnext
  rw [hlook]
  by_cases hgo : t.mem.state = .go
  · rw [hgo]
    exact Or.inl ⟨rfl, L.line_go⟩
  · refine Or.inr ⟨hgo, L.line_noGo ?_⟩
    cases hst : t.mem.state <;> first | decide | exact absurd hst hgo

/-- It looks whether it is to resume. -/
theorem next_looksResume (ht : Attached t.regs) (r : Option Request) :
    t.mem.state = .resume ∧
        RomLine 5 (L.looksResume.next haltAddress (t.mem.rdataO (t.memIn r) L.looksResume.access)) L.reportsResuming ∨
      t.mem.state ≠ .resume ∧
        RomLine 5 (L.looksResume.next haltAddress (t.mem.rdataO (t.memIn r) L.looksResume.access)) L.reportsHalted := by
  have hnext := next_looks (r := r) ht L 0x1b000848 (1 <<< (0x1b000400 % 4))
  have hlook : L.looksResume.next haltAddress (t.mem.rdataO (t.memIn r) L.looksResume.access) =
      L.parked (flag t.mem.state) 0x1b000848 none := hnext
  rw [hlook]
  by_cases hres : t.mem.state = .resume
  · rw [hres]
    exact Or.inl ⟨rfl, L.line_resume⟩
  · refine Or.inr ⟨hres, L.line_noResume ?_⟩
    cases hst : t.mem.state <;> first | decide | exact absurd hst hres

/-- **The hart polls**: after an edge it still does, or has seen its errand. -/
theorem Stage.edge_polls (ht : Attached t.regs) (hprogbuf : t.regs.progbuf = d.progbuf)
    (hresumes : t.regs.dmcontrol.resumereq = true → d.resumes = true)
    (hr : ∀ q, r = some q → Polite q ∧ Timely t d q) (hm : Moves t r h h' a)
    (hwhere : h₁ = L.reportsHalted ∨ h₁ = L.looksGo ∨ h₁ = L.looksResume)
    (hline : RomLine n h h₁) (he : Errand t L d) (b : SbaBus) :
    Stage (t.edge b a r) h' (d.after t.mem.cmdbusy r) := by
  cases n with
  | succ n =>
    obtain ⟨hs, hline'⟩ := hm.rom hline
    have he' := (he.edge ht hprogbuf hresumes hr hs b).1
    rcases hline' with hline' | hline'
    · exact .polls L _ h₁ hwhere hline' he'
    · exact .polls L _ h₁ hwhere hline' he'
  | zero =>
    obtain rfl := hline.zero
    cases hm with
    | wait => exact .polls L 0 h hwhere (.nil _) (he.edge ht hprogbuf hresumes hr sees_none b).1
    | move hin =>
      rcases hwhere with rfl | rfl | rfl
      · exact .polls L 2 _ (Or.inr (Or.inl rfl)) L.line_halted (he.edge ht hprogbuf hresumes hr sees_halted b).1
      · obtain ⟨he', hstate'⟩ := he.edge ht hprogbuf hresumes hr (sees_read (a := L.looksGo.access) rfl) b
        rcases next_looksGo ht r with ⟨hgo, hline'⟩ | ⟨-, hline'⟩
        · rw [hgo] at hstate'
          exact .goes L 3 hline' (hstate' (by decide)) he'
        · exact .polls L 5 _ (Or.inr (Or.inr rfl)) hline' he'
      · obtain ⟨he', hstate'⟩ := he.edge ht hprogbuf hresumes hr (sees_read (a := L.looksResume.access) rfl) b
        rcases next_looksResume ht r with ⟨hres, hline'⟩ | ⟨-, hline'⟩
        · rw [hres] at hstate'
          exact .resumes L 5 hline' (hstate' (by decide)) he'
        · exact .polls L 5 _ (Or.inl rfl) hline' he'

/-- What is in the registers after an edge at which the hart stores nothing and no request takes effect. -/
theorem regs_edge_of_busy (ht : Attached t.regs) (hr : ∀ q, r = some q → Polite q ∧ Timely t d q)
    (hbusy : t.mem.cmdbusy = true) {g ha re : Bool} {st : Option Word} (hs : Sees a g ha re st) (b : SbaBus) :
    (t.edge b a r).regs.cmdValid = false ∧ (t.edge b a r).regs.command = t.regs.command ∧
      (t.edge b a r).regs.progbuf = t.regs.progbuf ∧
      (t.edge b a r).regs.data = st.elim t.regs.data (Function.update t.regs.data 0) ∧
      (d.after t.mem.cmdbusy r).context = d.context ∧ (d.after t.mem.cmdbusy r).data = d.data ∧
      (d.resumes = true → (d.after t.mem.cmdbusy r).resumes = true) := by
  obtain ⟨e, hr', rr, -, hregs⟩ := regs_edge ht hs b r
  rcases asks ht hr with ⟨w, hbegins⟩ | ⟨f, g, halike, hid⟩
  · exact absurd (hbusy.symm.trans hbegins.busy) (by decide)
  · obtain ⟨rfl, rfl⟩ := hid (Or.inl hbusy)
    rw [hregs]
    refine ⟨halike.cmdValid, halike.command, halike.progbuf.1, ?_, halike.context, halike.data.2, halike.resumes⟩
    rw [halike.data.1]
    rfl

/-- A run through the ROM, while a command is executed. -/
theorem commandLine_of_rom (cmd : Word) (progbuf : ℕ → Word) (hline : RomLine n h h₁) :
    Line haltAddress (commandCode cmd progbuf) n h h₁ :=
  hline.mono fun _ ha => commandCode_rom cmd progbuf ha

/-- **The hart goes**: after an edge it still is to report so, or executes the command. -/
theorem Stage.edge_goes (ht : Attached t.regs) (hprogbuf : t.regs.progbuf = d.progbuf)
    (hresumes : t.regs.dmcontrol.resumereq = true → d.resumes = true)
    (hr : ∀ q, r = some q → Polite q ∧ Timely t d q) (hm : Moves t r h h' a) (hline : RomLine n h L.reportsGoing)
    (hstate : t.mem.state = .go) (he : Errand t L d) (b : SbaBus) :
    Stage (t.edge b a r) h' (d.after t.mem.cmdbusy r) := by
  have hstay (hs : Sees a false false false none) {m : ℕ} (hl : RomLine m h' L.reportsGoing) :
      Stage (t.edge b a r) h' (d.after t.mem.cmdbusy r) := by
    obtain ⟨he', hstate'⟩ := he.edge ht hprogbuf hresumes hr hs b
    rw [hstate] at hstate'
    exact .goes L m hl (hstate' (by decide)) he'
  cases n with
  | succ n =>
    obtain ⟨hs, hline' | hline'⟩ := hm.rom hline
    · exact hstay hs hline'
    · exact hstay hs hline'
  | zero =>
    obtain rfl := hline.zero
    cases hm with
    | wait => exact hstay sees_none (.nil _)
    | move hin =>
      have hs : Sees (some L.reportsGoing.access) true false false none := sees_going
      have hbusy : t.mem.cmdbusy = true := by simp [DmMem.cmdbusy, hstate]
      obtain ⟨hvalid', hcmd', hprogbuf', hdata', hcontext', hd', -⟩ := regs_edge_of_busy ht hr hbusy hs b
      cases he with
      | nothing hidle => exact absurd (hstate.symm.trans hidle) (by decide)
      | resume hres => exact absurd (hstate.symm.trans hres) (by decide)
      | command d₀ d₁ _ hsame hdata hprogbuf₀ hcommand hcontext hdata₁ =>
        obtain ⟨L', out, hends⟩ := Context.ends_command hcommand (hsame.trans L.same_saved)
        have hthrough := (hends.through.before (commandLine_of_rom _ _ L.line_going)).after
          (commandLine_of_rom _ _ L'.line_entry)
        have hstate' := state_edge ht hs b r
        rw [hstate] at hstate'
        refine .executes L' out ?_ hstate' hvalid' ?_ ?_
        · rw [hcmd', hprogbuf', hdata', ← hprogbuf₀, hdata]
          exact hthrough
        · rw [hcontext', hcontext]
          exact hends.same
        · rw [hd', hdata₁, hdata', hdata]
          exact hends.data

/-- An instruction of a command. -/
theorem next_command (r : Option Request) (hstate : t.mem.state = .cmdExecuting)
    (hline : Line haltAddress (commandCode t.regs.command t.regs.progbuf) (n + 1) h h₁) :
    Sees (some h.access) false false false none ∧
      Line haltAddress (commandCode t.regs.command t.regs.progbuf) n
        (h.next haltAddress (t.mem.rdataO (t.memIn r) h.access)) h₁ := by
  obtain ⟨-, haccess, hsome, hnext⟩ := hline.next
  obtain ⟨-, hrdata⟩ := rdataO_command t.mem (t.memIn r) hstate hsome
  rw [haccess, hrdata]
  exact ⟨sees_read rfl, hnext⟩

/-- A hart on its way through the code of a command. -/
theorem Moves.command (hm : Moves t r h h' a) (hstate : t.mem.state = .cmdExecuting)
    (hline : Line haltAddress (commandCode t.regs.command t.regs.progbuf) (n + 1) h h₁) :
    Sees a false false false none ∧ ∃ m, Line haltAddress (commandCode t.regs.command t.regs.progbuf) m h' h₁ := by
  cases hm with
  | wait => exact ⟨sees_none, n + 1, hline⟩
  | move hin =>
    obtain ⟨hs, hnext⟩ := next_command r hstate hline
    exact ⟨hs, n, hnext⟩

/-- **The hart executes a command**: after an edge it still does, or is back and reports so. -/
theorem Stage.edge_executes (ht : Attached t.regs) (hr : ∀ q, r = some q → Polite q ∧ Timely t d q)
    (hm : Moves t r h h' a) {out : Option Word}
    (hthrough : Through (commandCode t.regs.command t.regs.progbuf) (t.regs.data 0) h L.reportsHalted out)
    (hstate : t.mem.state = .cmdExecuting) (hsame : Same d.context L)
    (hdata : d.data = out.elim t.regs.data (Function.update t.regs.data 0)) (b : SbaBus) :
    Stage (t.edge b a r) h' (d.after t.mem.cmdbusy r) := by
  have hbusy : t.mem.cmdbusy = true := by simp [DmMem.cmdbusy, hstate]
  -- on the way, with what has been stored so far
  have hstay {st : Option Word} (hs : Sees a false false false st) {out' : Option Word}
      (hl : Through (commandCode t.regs.command t.regs.progbuf)
        (st.elim t.regs.data (Function.update t.regs.data 0) 0) h' L.reportsHalted out')
      (hout : d.data = out'.elim (st.elim t.regs.data (Function.update t.regs.data 0))
        (Function.update (st.elim t.regs.data (Function.update t.regs.data 0)) 0)) :
      Stage (t.edge b a r) h' (d.after t.mem.cmdbusy r) := by
    obtain ⟨hvalid', hcmd', hprogbuf', hdata', hcontext', hd', -⟩ := regs_edge_of_busy ht hr hbusy hs b
    have hstate' := state_edge ht hs b r
    rw [hstate] at hstate'
    refine .executes L out' ?_ hstate' hvalid' ?_ ?_
    · rw [hcmd', hprogbuf', hdata']
      exact hl
    · rw [hcontext']
      exact hsame
    · rw [hd', hdata']
      exact hout
  cases hthrough with
  | @line n _ _ hl =>
    cases n with
    | succ n =>
      obtain ⟨hs, m, hl'⟩ := hm.command hstate hl
      exact hstay hs (.line hl') hdata
    | zero =>
      obtain rfl := hl.zero
      cases hm with
      | wait => exact hstay sees_none (.line (.nil _)) hdata
      | move hin =>
        have hs : Sees (some L.reportsHalted.access) false true false none := sees_halted
        obtain ⟨hvalid', -, -, hdata', hcontext', hd', -⟩ := regs_edge_of_busy ht hr hbusy hs b
        have hstate' := state_edge ht hs b r
        rw [hstate] at hstate'
        refine .polls L 2 _ (Or.inr (Or.inl rfl)) L.line_halted (.nothing hstate' hvalid' ?_ ?_)
        · rw [hcontext']
          exact hsame
        · rw [hd', hdata']
          exact hdata.symm
  | @load n m rd _ h₁ _ hl hdebug hpending hl' =>
    cases n with
    | succ n =>
      obtain ⟨hs, k, hk⟩ := hm.command hstate hl
      exact hstay hs (.load hk hdebug hpending hl') hdata
    | zero =>
      obtain rfl := hl.zero
      cases hm with
      | wait => exact hstay sees_none (.load (.nil _) hdebug hpending hl') hdata
      | move hin =>
        have haccess : h.access = ⟨false, 0x1b000380, 0, 0b1111⟩ := by rw [Hart.access, hpending]
        have hs : Sees (some h.access) false false false none := sees_read (by rw [haccess])
        refine hstay hs (.line (n := m) ?_) hdata
        rw [haccess, rdataO_data]
        exact hl'
  | @store n m v _ h₁ _ hl hdebug hpending hl' =>
    cases n with
    | succ n =>
      obtain ⟨hs, k, hk⟩ := hm.command hstate hl
      exact hstay hs (.store hk hdebug hpending hl') hdata
    | zero =>
      obtain rfl := hl.zero
      cases hm with
      | wait => exact hstay sees_none (.store (.nil _) hdebug hpending hl') hdata
      | move hin =>
        have haccess : h.access = ⟨true, 0x1b000380, v, 0b1111⟩ := by rw [Hart.access, hpending]
        have hs : Sees (some h.access) false false false (some v) := by
          rw [haccess]
          exact sees_stored v
        have hnext (rdata : Word) : h.next haltAddress rdata = h.next haltAddress 0 := by
          rw [Hart.next, Hart.next, hpending]
        refine hstay hs (.line (n := m) ?_) hdata
        rw [hnext]
        exact hl'

/-- **The hart is to report that it resumes**: after an edge it still is, or has done so. -/
theorem Stage.edge_resumes (ht : Attached t.regs) (hprogbuf : t.regs.progbuf = d.progbuf)
    (hresumes : t.regs.dmcontrol.resumereq = true → d.resumes = true)
    (hr : ∀ q, r = some q → Polite q ∧ Timely t d q) (hm : Moves t r h h' a) (hline : RomLine n h L.reportsResuming)
    (hstate : t.mem.state = .resume) (he : Errand t L d) (b : SbaBus) :
    Stage (t.edge b a r) h' (d.after t.mem.cmdbusy r) := by
  have hstay (hs : Sees a false false false none) {m : ℕ} (hl : RomLine m h' L.reportsResuming) :
      Stage (t.edge b a r) h' (d.after t.mem.cmdbusy r) := by
    obtain ⟨he', hstate'⟩ := he.edge ht hprogbuf hresumes hr hs b
    rw [hstate] at hstate'
    exact .resumes L m hl (hstate' (by decide)) he'
  cases n with
  | succ n =>
    obtain ⟨hs, hline' | hline'⟩ := hm.rom hline
    · exact hstay hs hline'
    · exact hstay hs hline'
  | zero =>
    obtain rfl := hline.zero
    cases hm with
    | wait => exact hstay sees_none (.nil _)
    | move hin =>
      have hs : Sees (some L.reportsResuming.access) false false true none := sees_resuming
      have hbusy : t.mem.cmdbusy = true := by simp [DmMem.cmdbusy, hstate]
      obtain ⟨hvalid', -, -, hdata', hcontext', hd', hres'⟩ := regs_edge_of_busy ht hr hbusy hs b
      cases he with
      | nothing hidle => exact absurd (hstate.symm.trans hidle) (by decide)
      | command d₀ d₁ hgo =>
        rcases hgo with ⟨hgo, -⟩ | ⟨hidle, -⟩
        · exact absurd (hstate.symm.trans hgo) (by decide)
        · exact absurd (hstate.symm.trans hidle) (by decide)
      | resume _ _ hresuming hsame hdata hres =>
        have hstate' := state_edge ht hs b r
        rw [hstate, hresuming] at hstate'
        have hhalted' := halted_edge (t := t) hs b r
        have hresuming' := resuming_edge (t := t) hs b r
        refine .leaves L.saved 2 L.line_resuming (Or.inr ⟨hstate', hresuming'⟩) hhalted' hvalid' ?_ ?_ (hres' hres)
        · rw [hcontext']
          exact hsame.trans L.same_saved
        · rw [hd', hdata']
          exact hdata

/-- **The hart is about to leave debug mode**: after an edge it still is, or has left. -/
theorem Stage.edge_leaves (ht : Attached t.regs) (hr : ∀ q, r = some q → Polite q ∧ Timely t d q)
    (hm : Moves t r h h' a) (hline : RomLine (n + 1) h L.resumed)
    (hstate : t.mem.state = .idle ∨ t.mem.state = .resume ∧ t.mem.resuming = true) (hhalted : t.mem.halted = false)
    (hsame : Same d.context L) (hdata : t.regs.data = d.data) (hres : d.resumes = true)
    (b : SbaBus) :
    Stage (t.edge b a r) h' (d.after t.mem.cmdbusy r) ∨ Left (t.edge b a r) h' (d.after t.mem.cmdbusy r) := by
  obtain ⟨hs, hline'⟩ := hm.rom hline
  have hstate' : (t.edge b a r).mem.state = .idle := by
    rw [state_edge ht hs b r]
    rcases hstate with hidle | ⟨hres, hresuming⟩
    · simp [hidle, hhalted]
    · simp [hres, hresuming]
  have hhalted' : (t.edge b a r).mem.halted = false := by simp [halted_edge (t := t) hs b r, hhalted]
  rcases asks ht hr with ⟨w, hbegins⟩ | ⟨f, g, halike, -⟩
  · exact absurd (hhalted.symm.trans hbegins.halted) (by decide)
  obtain ⟨e, hr', rr, -, hregs⟩ := regs_edge ht hs b r
  have hvalid' : (t.edge b a r).regs.cmdValid = false := by
    rw [hregs]
    exact halike.cmdValid
  have hdata' : (t.edge b a r).regs.data = (d.after t.mem.cmdbusy r).data := by
    rw [hregs, halike.data.2, ← hdata]
    exact halike.data.1
  have hsame' : Same (d.after t.mem.cmdbusy r).context L := by
    rw [halike.context]
    exact hsame
  have hres' := halike.resumes hres
  rcases hline' with hline' | hline'
  · exact Or.inl (.leaves L n hline' (Or.inl hstate') hhalted' hvalid' hsame' hdata' hres')
  · cases n with
    | succ n => exact Or.inl (.leaves L n hline' (Or.inl hstate') hhalted' hvalid' hsame' hdata' hres')
    | zero =>
      exact Or.inr ⟨⟨L, hline'.zero, hsame',⟩, hstate', hhalted', hvalid', hdata', hres'⟩

/-- **One edge** of the debug module and a hart in debug mode. -/
theorem Stage.edge (hst : Stage t h d) (ht : Attached t.regs) (hprogbuf : t.regs.progbuf = d.progbuf)
    (hresumes : t.regs.dmcontrol.resumereq = true → d.resumes = true)
    (hr : ∀ q, r = some q → Polite q ∧ Timely t d q) (hm : Moves t r h h' a) (b : SbaBus) :
    Stage (t.edge b a r) h' (d.after t.mem.cmdbusy r) ∨ Left (t.edge b a r) h' (d.after t.mem.cmdbusy r) := by
  cases hst with
  | polls L n h₁ hwhere hline he =>
    exact Or.inl (Stage.edge_polls ht hprogbuf hresumes hr hm hwhere hline he b)
  | goes L n hline hstate he =>
    exact Or.inl (Stage.edge_goes ht hprogbuf hresumes hr hm hline hstate he b)
  | executes L out hthrough hstate hvalid hsame hdata =>
    exact Or.inl (Stage.edge_executes ht hr hm hthrough hstate hsame hdata b)
  | resumes L n hline hstate he =>
    exact Or.inl (Stage.edge_resumes ht hprogbuf hresumes hr hm hline hstate he b)
  | leaves L n hline hstate hhalted hvalid hsame hdata hres =>
    exact Stage.edge_leaves ht hr hm hline hstate hhalted hsame hdata hres b

/-- A hart on a line through the page is in debug mode, and its next access is to the page. -/
theorem debug_of_line {code : Word → Word} (hcode : ∀ pc, (decode (code pc).toNat).isSome = true → inPage pc)
    (hline : Line haltAddress code n h h₁) (h₁debug : h₁.debug = true) (h₁page : inPage h₁.access.addr) :
    h.debug = true ∧ inPage h.access.addr := by
  cases n with
  | zero =>
    obtain rfl := hline.zero
    exact ⟨h₁debug, h₁page⟩
  | succ n =>
    obtain ⟨hdebug, haccess, hsome, -⟩ := hline.next
    rw [haccess]
    exact ⟨hdebug, hcode _ hsome⟩

theorem inPage_of_rom {pc : Word} (h : (decode (romCode pc).toNat).isSome = true) : inPage pc := by
  by_contra hin
  rw [romCode, if_neg fun hc => hin hc.1] at h
  exact absurd h (by decide)

theorem inPage_of_command {cmd : Word} {progbuf : ℕ → Word} {pc : Word}
    (h : (decode (commandCode cmd progbuf pc).toNat).isSome = true) : inPage pc := by
  by_contra hin
  rw [commandCode, if_pos hin] at h
  exact absurd h (by decide)

/-- In each stage the hart is in debug mode, and its next access is to the page of the debug module. -/
theorem Stage.debug (hst : Stage t h d) : h.debug = true ∧ inPage h.access.addr := by
  cases hst with
  | polls L n h₁ hwhere hline =>
    refine debug_of_line (fun _ => inPage_of_rom) hline ?_ ?_
    · rcases hwhere with rfl | rfl | rfl <;> rfl
    · rcases hwhere with rfl | rfl | rfl
      · exact (show inPage 0x1b000100 by decide)
      · exact (show inPage 0x1b000400 by decide)
      · exact (show inPage 0x1b000400 by decide)
  | goes L n hline => exact debug_of_line (fun _ => inPage_of_rom) hline rfl (show inPage 0x1b000104 by decide)
  | resumes L n hline => exact debug_of_line (fun _ => inPage_of_rom) hline rfl (show inPage 0x1b000108 by decide)
  | leaves L n hline =>
    obtain ⟨hdebug, haccess, hsome, -⟩ := hline.next
    rw [haccess]
    exact ⟨hdebug, inPage_of_rom hsome⟩
  | executes L out hthrough =>
    cases hthrough with
    | line hl => exact debug_of_line (fun _ => inPage_of_command) hl rfl (show inPage 0x1b000100 by decide)
    | load hl hdebug hpending =>
      refine debug_of_line (fun _ => inPage_of_command) hl hdebug ?_
      rw [Hart.access, hpending]
      exact (show inPage 0x1b000380 by decide)
    | store hl hdebug hpending =>
      refine debug_of_line (fun _ => inPage_of_command) hl hdebug ?_
      rw [Hart.access, hpending]
      exact (show inPage 0x1b000380 by decide)

end

/-! ### Another memory -/

namespace Context

/-- The same registers, with another memory. -/
def withMem (L : Context) (mem : Word → Word) : Context := ⟨L.core.withMem mem, L.csrs⟩

variable (L : Context) (mem : Word → Word)

theorem same_withMem : Same L (L.withMem mem) := ⟨rfl, _, _, L.csrs.withScratch_self.symm⟩

theorem parked_withMem (s0 pc : Word) (p : Option Pending) :
    (L.withMem mem).parked s0 pc p = (L.parked s0 pc p).withMem mem := by
  simp only [parked, withMem, Hart.withMem, Rv32.Hart.withMem_setReg]
  rfl

end Context

section

variable {t : DmTop} {d : Debuggee} {h h' : RiscvCore} {L : Context}

theorem Errand.withMem (he : Errand t L d) (mem : Word → Word) : Errand t (L.withMem mem) d := by
  cases he with
  | nothing hstate hvalid hsame hdata => exact .nothing hstate hvalid (hsame.trans (L.same_withMem mem)) hdata
  | command d₀ d₁ hstate hsame hdata hprogbuf hcommand hcontext hdata' =>
    exact .command d₀ d₁ hstate (hsame.trans (L.same_withMem mem)) hdata hprogbuf hcommand hcontext hdata'
  | resume hstate hvalid hresuming hsame hdata hresumes =>
    exact .resume hstate hvalid hresuming (hsame.trans (L.same_withMem mem)) hdata hresumes

/-- A load is the same with another memory. -/
theorem next_withMem_load {rd : ℕ} {a : Word} (hpending : h.pending = some (.lw rd a)) (mem : Word → Word)
    (rdata : Word) : (h.withMem mem).next haltAddress rdata = (h.next haltAddress rdata).withMem mem := by
  simp only [Hart.next, Hart.withMem_pending, hpending]
  rw [Hart.withMem, Hart.withMem, ← Rv32.Hart.withMem_setReg]

/-- A store is the same with another memory. -/
theorem next_withMem_store {a v : Word} (hpending : h.pending = some (.sw a v)) (mem : Word → Word) (rdata : Word) :
    (h.withMem mem).next haltAddress rdata = (h.next haltAddress rdata).withMem mem := by
  simp only [Hart.next, Hart.withMem_pending, hpending]
  rfl

theorem Through.withMem {code : Word → Word} {data0 : Word} {out : Option Word} (ht : Through code data0 h h' out)
    (mem : Word → Word) : Through code data0 (h.withMem mem) (h'.withMem mem) out := by
  cases ht with
  | line hl => exact .line (hl.withMem mem)
  | @load n m rd _ h₁ _ hl hdebug hpending hl' =>
    refine .load (hl.withMem mem) hdebug hpending (m := m) ?_
    rw [next_withMem_load hpending]
    exact hl'.withMem mem
  | @store n m v _ h₁ _ hl hdebug hpending hl' =>
    refine .store (hl.withMem mem) hdebug hpending (m := m) ?_
    rw [next_withMem_store hpending]
    exact hl'.withMem mem

/-- What happens to the memory does not matter to the hart in debug mode. -/
theorem Stage.withMem (hst : Stage t h d) (mem : Word → Word) : Stage t (h.withMem mem) d := by
  cases hst with
  | polls L n h₁ hwhere hline he =>
    refine .polls (L.withMem mem) n (h₁.withMem mem) ?_ (hline.withMem mem) (he.withMem mem)
    rcases hwhere with rfl | rfl | rfl
    · exact Or.inl (L.parked_withMem mem _ _ _).symm
    · exact Or.inr (Or.inl (L.parked_withMem mem _ _ _).symm)
    · exact Or.inr (Or.inr (L.parked_withMem mem _ _ _).symm)
  | goes L n hline hstate he =>
    have hl := hline.withMem mem
    rw [Context.reportsGoing, ← L.parked_withMem] at hl
    exact .goes (L.withMem mem) n hl hstate (he.withMem mem)
  | resumes L n hline hstate he =>
    have hl := hline.withMem mem
    rw [Context.reportsResuming, ← L.parked_withMem] at hl
    exact .resumes (L.withMem mem) n hl hstate (he.withMem mem)
  | leaves L n hline hstate hhalted hvalid hsame hdata hres =>
    exact .leaves (L.withMem mem) n (hline.withMem mem) hstate hhalted hvalid (hsame.trans (L.same_withMem mem))
      hdata hres
  | executes L out hthrough hstate hvalid hsame hdata =>
    have hl := hthrough.withMem mem
    rw [Context.reportsHalted, ← L.parked_withMem] at hl
    exact .executes (L.withMem mem) out hl hstate hvalid (hsame.trans (L.same_withMem mem)) hdata

end

end PyOcdRiscv.Target
