import PyOcdRiscv.Lib.Runs
import PyOcdRiscv.Ocd.Command

/-!
# The windows of the cores

Each core of a Saxon system has a window of its own on the debug bus, and a
`SaxonOCD` adds the offset of its core to every address. `frames` is the list of
the command frames that any interleaving of calls on the objects of several cores
sends, each with the core it is sent for.

`writecmd` adds the offset; `readrsp` adds it and then calls `writecmd`. So a run stays
within the windows exactly if nothing in it reads (`inWindow_iff`).
-/

namespace PyOcdRiscv.Ocd

open Lib Jtag

namespace SaxonOCD

/-- The offset of a core. -/
def offset (corenr : ℕ) : ℕ := 0x10B80000 + corenr * 0x1000

/-- What the engine answers does not matter: `reply` may be anything. The frames of the
calls so far are the state. -/
def onFrames (reply : (o : EngineCall) → List (ℕ × BitSequence) → Engine.Res o) (corenr : ℕ)
    (o : EngineCall) (s : List (ℕ × BitSequence)) : Engine.Res o × List (ℕ × BitSequence) :=
  (reply o s, match o with
    | .writeDr data => s ++ [(corenr, data)]
    | _ => s)

/-- An engine whose target answers nothing. -/
def silent : (o : EngineCall) → List (ℕ × BitSequence) → Engine.Res o
  | .readDr _, _ => []
  | .readwriteDr _, _ => 0
  | .shiftRegister _, _ => []
  | .writeTms _ _, _ => []
  | .changeState _, _ | .writeIr _, _ | .writeDr _, _ | .writeVir _, _ | .reset, _ => ()

/-- A call from the upper layer of the object of a core. -/
def onCall (port : DebugPort) (reply : (o : EngineCall) → List (ℕ × BitSequence) → Engine.Res o)
    (corenr : ℕ) (o : DebugCall) (s : List (ℕ × BitSequence)) :
    DebugBus.Res o × List (ℕ × BitSequence) :=
  Prog.run (onFrames reply corenr) (call (init port corenr) o) s

/-- A client's call on the object of core `e.1`. -/
def client (port : DebugPort) (reply : (o : EngineCall) → List (ℕ × BitSequence) → Engine.Res o)
    (e : ℕ × DebugOCD.Op) (s : List (ℕ × BitSequence)) : Option ℕ × List (ℕ × BitSequence) :=
  Prog.run (onCall port reply e.1) (DebugOCD.exec DebugOCD.init e.2) s

/-- The frames of a list of calls, in whatever order the objects are called. -/
def frames (port : DebugPort) (reply : (o : EngineCall) → List (ℕ × BitSequence) → Engine.Res o)
    (calls : List (ℕ × DebugOCD.Op)) : List (ℕ × BitSequence) :=
  final (client port reply) calls []

/-- **In the window of its core**: to register 0 or 4, and to register 4 if it is a read. -/
def InWindow (virtual : Bool) (e : ℕ × BitSequence) : Prop :=
  (frameAddress virtual e.2 = offset e.1 ∨ frameAddress virtual e.2 = offset e.1 + 4) ∧
    (frameWrite virtual e.2 = 0 → frameAddress virtual e.2 = offset e.1 + 4)

/-- The calls that read. -/
def Reads : DebugOCD.Op → Prop
  | .readreg _ | .readmem _ => True
  | _ => False

/-- The calls a debugger makes: all but `writecmd` and `readrsp` themselves. -/
def Client : DebugOCD.Op → Prop
  | .writecmd _ _ _ _ | .readrsp _ => False
  | _ => True

/-! ### The frames of a call -/

/-- The frames of a call to the lower layer. -/
def callFrames (virtual : Bool) (corenr : ℕ) : DebugCall → List (ℕ × BitSequence)
  | .writecmd adr data size write =>
    [(corenr, commandFrame virtual (adr + offset corenr) data size write)]
  | .readrsp adr => [(corenr, commandFrame virtual (adr + offset corenr + offset corenr) 0 2 0)]
  | .resetdm => []

variable {port : DebugPort} {reply : (o : EngineCall) → List (ℕ × BitSequence) → Engine.Res o}

theorem adrofs_init (port : DebugPort) (corenr : ℕ) : (init port corenr).adrofs = (offset corenr : ℕ) := by
  simp [init, offset]

theorem onCall_frames (corenr : ℕ) (o : DebugCall) (s : List (ℕ × BitSequence)) :
    (onCall port reply corenr o s).2 = s ++ callFrames port.virtual corenr o := by
  obtain ⟨irlen, virtual⟩ := port
  cases o with
  | writecmd adr data size write =>
    simp only [onCall, call, writecmd, adrofs_init, callFrames]
    cases virtual <;> rfl
  | readrsp adr =>
    simp only [onCall, call, readrsp, writecmd, adrofs_init, callFrames]
    cases virtual <;> rfl
  | resetdm =>
    rw [callFrames, List.append_nil]
    cases virtual <;> rfl

/-! ### Commands stay in the window -/

/-- A command to register 0 or 4. -/
def Command : DebugCall → Prop
  | .writecmd adr _ _ write => (adr = 0 ∨ adr = 4) ∧ write = 1
  | .readrsp _ => False
  | .resetdm => True

theorem land_window {adr : ℤ} (h : adr = 0 ∨ adr = 4) {corenr : ℕ} (hc : offset corenr + 0x1000 ≤ 2 ^ 32) :
    land (adr + offset corenr) 0xffffffff = offset corenr + adr.toNat := by
  have : land (adr + offset corenr) 0xffffffff = _ := land_ones (adr + offset corenr) 32
  rw [Int.emod_eq_of_lt (by omega) (by omega)] at this
  omega

theorem Command.inWindow {o : DebugCall} (ho : Command o) {corenr : ℕ}
    (hc : offset corenr + 0x1000 ≤ 2 ^ 32) (virtual : Bool) :
    ∀ f ∈ callFrames virtual corenr o, InWindow virtual f := by
  cases o with
  | writecmd adr data size write =>
    obtain ⟨hadr, rfl⟩ := ho
    intro f hf
    obtain rfl := List.mem_singleton.mp hf
    have ha := frameAddress_commandFrame virtual (adr + offset corenr) data size (show 1 < 2 by decide)
    have hw := frameWrite_commandFrame virtual (adr + offset corenr) data size (show 1 < 2 by decide)
    rw [land_window hadr hc] at ha
    rw [InWindow, ha, hw]
    rcases hadr with rfl | rfl <;> simp
  | readrsp adr => exact ho.elim
  | resetdm => intro f hf; cases hf

/-- A program of such calls. -/
def Commands {α : Type} (p : Prog DebugBus α) : Prop :=
  Prog.Follows (fun (_ : Unit) o => Command o) (fun _ _ => ()) p () fun _ _ => True

theorem Commands.bind {α β : Type} {p : Prog DebugBus α} (hp : Commands p) {f : α → Prog DebugBus β}
    (hf : ∀ a, Commands (f a)) : Commands (p >>= f) :=
  (Prog.follows_bind ..).mpr (hp.mono fun a _ _ => hf a)

theorem commands_writecmd {adr : ℤ} (h : adr = 0 ∨ adr = 4) (data : ℤ) (size : ℕ) :
    Commands (DebugBus.writecmd adr data size 1) := ⟨⟨h, rfl⟩, fun _ => trivial⟩

theorem commands_pushins (ins : ℕ) : Commands (DebugOCD.pushins ins) :=
  commands_writecmd (.inr rfl) ins 2

theorem commands_pushConst (regdst : ℕ) (val : ℤ) : Commands (DebugOCD.pushConst regdst val) := by
  rw [DebugOCD.pushConst]
  split_ifs
  · exact commands_pushins _
  · exact (commands_pushins _).bind fun _ => commands_pushins _

/-- **Everything but a read stays in the window.** -/
theorem commands_exec {op : DebugOCD.Op} (hop : Client op) (hr : ¬ Reads op) :
    Commands (DebugOCD.exec DebugOCD.init op) := by
  cases op with
  | resetdm => exact ⟨trivial, fun _ => trivial⟩
  | halt | resume | reset | resetrelease =>
    exact (commands_writecmd (.inl rfl) _ 2).bind fun _ => trivial
  | writereg regnr val => exact (commands_pushConst regnr val).bind fun _ => trivial
  | writemem adr val =>
    have hmem : Commands (DebugOCD.writemem DebugOCD.init adr val) :=
      (commands_pushConst 1 val).bind fun _ => (commands_pushConst 2 adr).bind fun _ => commands_pushins _
    exact hmem.bind fun _ => trivial
  | setpc val =>
    have hpc : Commands (DebugOCD.setpc val) :=
      (commands_pushConst 1 val).bind fun _ => commands_pushins _
    exact hpc.bind fun _ => trivial
  | readreg regnr => exact absurd trivial hr
  | readmem adr => exact absurd trivial hr
  | writecmd adr data size write => exact hop.elim
  | readrsp adr => exact hop.elim

/-- A call that does not read adds frames of the window only. -/
theorem inWindow_client {e : ℕ × DebugOCD.Op} (hc : offset e.1 + 0x1000 ≤ 2 ^ 32) (hop : Client e.2)
    (hr : ¬ Reads e.2) {s : List (ℕ × BitSequence)} (hs : ∀ f ∈ s, InWindow port.virtual f) :
    ∀ f ∈ (client port reply e s).2, InWindow port.virtual f := by
  have hstep : ∀ o (_ : Unit) s, (∀ f ∈ s, InWindow port.virtual f) → Command o →
      ∀ f ∈ (onCall port reply e.1 o s).2, InWindow port.virtual f := by
    intro o _ s hs ho f hf
    rw [onCall_frames, List.mem_append] at hf
    exact hf.elim (hs f) (ho.inWindow hc port.virtual f)
  obtain ⟨-, h, -⟩ := Prog.Follows.run hstep (commands_exec hop hr) hs
  exact h

/-! ### A read leaves it -/

/-- A frame outside its window has been sent. -/
def Strayed (virtual : Bool) (s : List (ℕ × BitSequence)) : Prop := ∃ f ∈ s, ¬ InWindow virtual f

/-- Frames are never taken back. -/
theorem Strayed.run {corenr : ℕ} {α : Type} (p : Prog DebugBus α) {s : List (ℕ × BitSequence)}
    (h : Strayed port.virtual s) : Strayed port.virtual (p.run (onCall port reply corenr) s).2 := by
  refine Prog.run_inv (P := Strayed port.virtual) ?_ p h
  rintro o s ⟨f, hf, hn⟩
  exact ⟨f, by rw [onCall_frames]; exact List.mem_append_left _ hf, hn⟩

/-- **The command of a read**: the offset is in it twice. -/
theorem not_inWindow_readrsp {corenr : ℕ} (hc : offset corenr + 0x1000 ≤ 2 ^ 32) (virtual : Bool) :
    ∃ f ∈ callFrames virtual corenr (.readrsp 4), ¬ InWindow virtual f := by
  refine ⟨_, List.mem_singleton.mpr rfl, ?_⟩
  have hlow : 0x10B80000 ≤ offset corenr := Nat.le_add_right _ _
  have ha := frameAddress_commandFrame virtual (4 + offset corenr + offset corenr) 0 2
    (show 0 < 2 by decide)
  have hw := frameWrite_commandFrame virtual (4 + offset corenr + offset corenr) 0 2
    (show 0 < 2 by decide)
  have hland : land (4 + offset corenr + offset corenr) 0xffffffff = _ :=
    land_ones (4 + offset corenr + offset corenr) 32
  rintro ⟨-, h⟩
  have hadr := h hw
  dsimp only at hadr
  rw [ha, hland] at hadr
  omega

theorem strayed_readrsp {corenr : ℕ} (hc : offset corenr + 0x1000 ≤ 2 ^ 32)
    (s : List (ℕ × BitSequence)) :
    Strayed port.virtual ((DebugBus.readrsp 4).run (onCall port reply corenr) s).2 := by
  obtain ⟨f, hf, hn⟩ := not_inWindow_readrsp hc port.virtual
  refine ⟨f, ?_, hn⟩
  rw [DebugBus.readrsp, Prog.run_op, onCall_frames]
  exact List.mem_append_right _ hf

theorem strayed_client {e : ℕ × DebugOCD.Op} (hc : offset e.1 + 0x1000 ≤ 2 ^ 32) (hr : Reads e.2)
    (s : List (ℕ × BitSequence)) : Strayed port.virtual (client port reply e s).2 := by
  obtain ⟨c, op⟩ := e
  cases op with
  | readreg regnr =>
    simp only [client, DebugOCD.exec, DebugOCD.readreg, Prog.run_bind]
    exact strayed_readrsp hc _
  | readmem adr =>
    simp only [client, DebugOCD.exec, DebugOCD.readmem, Prog.run_bind]
    exact strayed_readrsp hc _
  | _ => exact hr.elim

/-! ### Interleavings -/

/-- **The windows are kept exactly by the runs that do not read.** Each frame of a run, in
whatever order the objects of whatever cores are called, is in the window of the
core it is sent for, if and only if no call of the run reads. -/
theorem inWindow_iff (port : DebugPort)
    (reply : (o : EngineCall) → List (ℕ × BitSequence) → Engine.Res o)
    (calls : List (ℕ × DebugOCD.Op)) (hcalls : ∀ e ∈ calls, Client e.2)
    (hcores : ∀ e ∈ calls, offset e.1 + 0x1000 ≤ 2 ^ 32) :
    (∀ f ∈ frames port reply calls, InWindow port.virtual f) ↔ ∀ e ∈ calls, ¬ Reads e.2 := by
  constructor
  · intro h e he hr
    obtain ⟨before, after, rfl⟩ := List.append_of_mem he
    have hs : Strayed port.virtual (client port reply e (final (client port reply) before [])).2 :=
      strayed_client (hcores e he) hr _
    have hend : Strayed port.virtual (final (client port reply) (before ++ e :: after) []) := by
      rw [final_append, final]
      refine final_inv (I := Strayed port.virtual) ?_ after hs
      intro o s hs
      exact Strayed.run (DebugOCD.exec DebugOCD.init o.2) hs
    obtain ⟨f, hf, hn⟩ := hend
    exact hn (h f hf)
  · intro hr
    refine final_inv_mem (I := fun s => ∀ f ∈ s, InWindow port.virtual f) ?_ (by simp)
    intro e he s hs
    exact inWindow_client (hcores e he) (hcalls e he) (hr e he) hs

/-- Two cores, both ways of writing, and no read. -/
theorem inWindow_writes :
    (∀ f ∈ frames ⟨4, true⟩ silent
      [(0, .halt), (1, .writemem 0x10a00000 0x12345678), (0, .writereg 5 (-1)), (1, .setpc 0x80)],
      InWindow true f) ↔
    ∀ e ∈ [(0, DebugOCD.Op.halt), (1, .writemem 0x10a00000 0x12345678), (0, .writereg 5 (-1)),
      (1, .setpc 0x80)], ¬ Reads e.2 :=
  inWindow_iff ⟨4, true⟩ _ _ (by simp [Client]) (by simp [offset])

/-- **A read addresses no window**: `readreg` on core 0 sends its command to 0x21700004. -/
theorem readreg_strays : ¬ ∀ f ∈ frames ⟨4, false⟩ silent
    [(0, .readreg 5)], InWindow false f := by
  intro h
  have := (h (0, commandFrame false 0x21700004 0 2 0) (by decide)).2 (by decide)
  revert this
  decide

end SaxonOCD

end PyOcdRiscv.Ocd
