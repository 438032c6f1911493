import PyOcdRiscv.Lib.ShiftReg

/-!
# The system debugger of Murax

`SystemDebugger` of `Murax.v`, which both transports end in: it takes bits one at a time
(`io_remote_cmd`), eight of a header and 67 of data, and with the last one puts a command
on the debug bus if the header is 0. `DebugSide` is everything in the domain of the main
clock: the debugger, the bus, and the response register of the bridge.

The main clock runs between the edges of TCK, and is the faster one. What happens in such
a gap is that a bit that was handed over arrives, the bus takes the command it is offered
if it is ready, and some of the responses that are due arrive (`gap`). When the bus is
ready and when its responses come (`Timing`) is left open, as is what it responds.
`late` records that it was too late: that a bit arrived before the last command was
taken, or the response register was read before the last response was in it.
-/

namespace PyOcdRiscv.Target

open Lib

/-- A command on the debug bus. -/
@[ext]
structure Command where
  /-- `io_mem_cmd_payload_address`. -/
  address : ℕ
  /-- `io_mem_cmd_payload_data`. -/
  data : ℕ
  /-- `io_mem_cmd_payload_wr`. -/
  wr : ℕ
  /-- `io_mem_cmd_payload_size`. -/
  size : ℕ
  deriving DecidableEq, Repr

/-- The command in the 67 bits of data. -/
def Command.ofData (data : List Bool) : Command :=
  ⟨field 0 32 data, field 32 32 data, field 64 1 data, field 65 2 data⟩

/-! ### The debugger -/

/-- The registers of the debugger. -/
structure SystemDebugger where
  /-- `dispatcher_dataShifter`. -/
  dataShifter : ShiftReg 67
  /-- `dispatcher_dataLoaded`. -/
  dataLoaded : Bool
  /-- `dispatcher_headerShifter`. -/
  headerShifter : ShiftReg 8
  /-- `dispatcher_headerLoaded`. -/
  headerLoaded : Bool
  /-- `dispatcher_counter`. -/
  counter : Fin 8

namespace SystemDebugger

/-- A bit arrives. -/
def fragment (s : SystemDebugger) (last bit : Bool) : SystemDebugger :=
  let s' :=
    if s.headerLoaded = false then
      { s with
        headerShifter := s.headerShifter.shiftIn bit
        counter := s.counter + 1
        headerLoaded := s.counter == 7 }
    else { s with dataShifter := s.dataShifter.shiftIn bit }
  if last then { s' with headerLoaded := true, dataLoaded := true, counter := 0 } else s'

/-- `io_mem_cmd_valid`. -/
def cmdValid (s : SystemDebugger) : Bool := s.dataLoaded && s.headerShifter.value == 0

/-- The command that is offered. -/
def cmd (s : SystemDebugger) : Command := Command.ofData s.dataShifter.bits

/-- A clock without a bit: what is loaded is let go, unless it is a command that the bus
does not take. -/
def settle (s : SystemDebugger) (ready : Bool) : SystemDebugger :=
  if s.headerLoaded && s.dataLoaded && !(s.cmdValid && !ready) then
    { s with headerLoaded := false, dataLoaded := false }
  else s

/-- Nothing is loaded. -/
structure Idle (s : SystemDebugger) : Prop where
  dataLoaded : s.dataLoaded = false
  headerLoaded : s.headerLoaded = false
  counter : s.counter = 0

/-- The command `c` is offered. -/
structure Offers (s : SystemDebugger) (c : Command) : Prop where
  dataLoaded : s.dataLoaded = true
  headerLoaded : s.headerLoaded = true
  counter : s.counter = 0
  header : s.headerShifter.value = 0
  cmd : s.cmd = c

/-- The bits of `l` arrive, none of them the last. -/
def fragments (s : SystemDebugger) (l : List Bool) : SystemDebugger :=
  l.foldl (fun s b => s.fragment false b) s

theorem fragments_append (s : SystemDebugger) (l₁ l₂ : List Bool) :
    s.fragments (l₁ ++ l₂) = (s.fragments l₁).fragments l₂ := List.foldl_append

/-- Only the last bit loads the data. -/
theorem dataLoaded_fragments (s : SystemDebugger) (l : List Bool) :
    (s.fragments l).dataLoaded = s.dataLoaded := by
  have h : ∀ (s : SystemDebugger) (b : Bool), (s.fragment false b).dataLoaded = s.dataLoaded := by
    intro s b
    simp only [fragment, Bool.false_eq_true, if_false]
    split_ifs <;> rfl
  induction l generalizing s with
  | nil => rfl
  | cons b l ih => exact (ih _).trans (h s b)

/-- A bit of the header comes in. -/
theorem fragment_header (data : ShiftReg 67) (loaded : Bool) (header : ShiftReg 8) (counter : Fin 8) (b : Bool) :
    fragment ⟨data, loaded, header, false, counter⟩ false b =
      ⟨data, loaded, header.shiftIn b, counter == 7, counter + 1⟩ := rfl

/-- The header is in. -/
theorem fragments_header {s : SystemDebugger} (hs : s.Idle) :
    s.fragments (List.replicate 8 false) =
      { s with headerShifter := .ofNat 8 0, headerLoaded := true, counter := 0 } := by
  obtain ⟨data, dataLoaded, header, headerLoaded, counter⟩ := s
  obtain ⟨-, hloaded, hcounter⟩ := hs
  dsimp only at hloaded hcounter
  subst hloaded hcounter
  have hzero : header.shiftAll (List.replicate 8 false) = .ofNat 8 0 :=
    ShiftReg.shiftAll_eq header (by decide)
  rw [← hzero]
  simp [fragments, List.replicate, fragment_header]

/-- The data comes in. -/
theorem fragments_data {s : SystemDebugger} (hs : s.headerLoaded = true) (l : List Bool) :
    s.fragments l = { s with dataShifter := s.dataShifter.shiftAll l } := by
  induction l generalizing s with
  | nil => rfl
  | cons b l ih =>
    have hb : s.fragment false b = { s with dataShifter := s.dataShifter.shiftIn b } := by
      simp [fragment, hs]
    change (s.fragment false b).fragments l = _
    rw [hb, ih (s := { s with dataShifter := s.dataShifter.shiftIn b }) hs]
    rfl

/-- **A frame**: eight zeros and 67 bits of data, with the last bit marked, offer the
command in the data. -/
theorem offers_frame {s : SystemDebugger} (hs : s.Idle) {l : List Bool} {b : Bool}
    (hl : (l ++ [b]).length = 67) :
    ((s.fragments (List.replicate 8 false ++ l)).fragment true b).Offers (Command.ofData (l ++ [b])) := by
  rw [fragments_append, fragments_header hs, fragments_data rfl]
  have hshift : (s.dataShifter.shiftAll l).shiftIn b = ⟨l ++ [b], hl⟩ := by
    rw [← ShiftReg.shiftAll_eq s.dataShifter hl, ShiftReg.shiftAll_append]
    rfl
  refine ⟨rfl, rfl, rfl, ?_, ?_⟩
  · change (ShiftReg.ofNat 8 0).value = 0
    rw [ShiftReg.value_ofNat, Nat.zero_mod]
  · change Command.ofData ((s.dataShifter.shiftAll l).shiftIn b).bits = _
    rw [hshift]

theorem Idle.cmdValid {s : SystemDebugger} (hs : s.Idle) : s.cmdValid = false := by
  rw [SystemDebugger.cmdValid, hs.dataLoaded, Bool.false_and]

theorem Offers.cmdValid {s : SystemDebugger} {c : Command} (hs : s.Offers c) : s.cmdValid = true := by
  rw [SystemDebugger.cmdValid, hs.dataLoaded, hs.header]
  rfl

/-- With no data loaded, nothing is let go. -/
theorem settle_of_dataLoaded {s : SystemDebugger} (hs : s.dataLoaded = false) (ready : Bool) :
    s.settle ready = s := by
  rw [settle, hs, Bool.and_false, Bool.false_and, if_neg (by decide)]

/-- A command that is not taken stays. -/
theorem Offers.settle_false {s : SystemDebugger} {c : Command} (hs : s.Offers c) : s.settle false = s := by
  rw [settle, hs.cmdValid]
  simp

/-- A command that is taken goes. -/
theorem Offers.idle_settle {s : SystemDebugger} {c : Command} (hs : s.Offers c) : (s.settle true).Idle := by
  rw [settle, hs.cmdValid, hs.dataLoaded, hs.headerLoaded]
  exact ⟨rfl, rfl, hs.counter⟩

end SystemDebugger

/-! ### The side of the main clock -/

/-- When the bus does what it does. -/
structure Timing where
  /-- Whether it takes a command in the `n`-th gap. -/
  ready : ℕ → Bool
  /-- How many of the responses that are due may come in the `n`-th gap. -/
  responses : ℕ → ℕ

/-- A bus that is always ready, and whose responses come at once. -/
def Timing.eager : Timing := ⟨fun _ => true, fun _ => 1⟩

/-- What a bridge hands over: whether the bit is the last of its scan, and the bit. -/
abbrev Fragment := Option (Bool × Bool)

/-- What runs on the main clock. -/
structure DebugSide where
  /-- `systemDebugger`. -/
  debugger : SystemDebugger
  /-- `system_rsp_valid`. -/
  rspValid : Bool
  /-- `system_rsp_payload_error`. -/
  rspError : Bool
  /-- `system_rsp_payload_data`. -/
  rspData : Word
  /-- The responses that are due. -/
  pending : List Word
  /-- The commands the bus has taken. -/
  commands : List Command
  /-- The gaps there have been. -/
  gaps : ℕ
  /-- Something came too late. -/
  late : Bool

namespace DebugSide

/-- What the bridge hands over arrives. -/
def receive (s : DebugSide) : Fragment → DebugSide
  | none => s
  | some (last, bit) =>
    { s with
      debugger := s.debugger.fragment last bit
      rspValid := false
      late := s.late || s.debugger.dataLoaded }

/-- The bus takes the command it is offered, if it is ready. Each command is responded
to. -/
def offer (answer : List Command → Word) (ready : Bool) (s : DebugSide) : DebugSide :=
  if s.debugger.cmdValid && ready then
    { s with
      debugger := s.debugger.settle ready
      commands := s.commands ++ [s.debugger.cmd]
      pending := s.pending ++ [answer (s.commands ++ [s.debugger.cmd])] }
  else { s with debugger := s.debugger.settle ready }

/-- The first `k` of the responses that are due come. -/
def respond (k : ℕ) (s : DebugSide) : DebugSide :=
  match (s.pending.take k).getLast? with
  | none => s
  | some data =>
    { s with rspValid := true, rspError := false, rspData := data, pending := s.pending.drop k }

variable (answer : List Command → Word) (T : Timing)

/-- A gap between two edges. -/
def gap (f : Fragment) (s : DebugSide) : DebugSide :=
  let s := ((s.receive f).offer answer (T.ready s.gaps)).respond (T.responses s.gaps)
  { s with gaps := s.gaps + 1 }

/-- Gap after gap. -/
def feed (s : DebugSide) (fs : List Fragment) : DebugSide := fs.foldl (fun s f => s.gap answer T f) s

/-- `{system_rsp_payload_data, system_rsp_payload_error, system_rsp_valid}`. -/
def rsp (s : DebugSide) : ShiftReg 34 :=
  ⟨s.rspValid :: s.rspError :: bits 32 s.rspData.toNat, by simp⟩

theorem bits_rsp (s : DebugSide) :
    s.rsp.bits = s.rspValid :: s.rspError :: bits 32 s.rspData.toNat := rfl

/-- The bridge reads the response register. -/
def read (s : DebugSide) : DebugSide :=
  { s with late := s.late || s.debugger.dataLoaded || !s.pending.isEmpty }

/-- The commands that the bus has been presented with: those it has taken, and the one it
is offered. -/
def presented (s : DebugSide) : List Command :=
  s.commands ++ if s.debugger.cmdValid then [s.debugger.cmd] else []

/-- The last response there is. -/
def latest (s : DebugSide) : Word := s.pending.getLast?.getD s.rspData

/-- Between two scans, when the commands so far are `all`. -/
inductive Settled (all : List Command) (s : DebugSide) : Prop where
  /-- All have been taken. -/
  | idle (hs : s.debugger.Idle) (hc : s.commands = all) (hr : all = [] ∨ s.latest = answer all)
  /-- The last one is on offer. -/
  | offers (c : Command) (hs : s.debugger.Offers c) (hc : s.commands ++ [c] = all)

/-- During a scan whose bits so far are `l`. -/
structure Loading (all : List Command) (l : List Bool) (s : DebugSide) : Prop where
  debugger : ∃ d : SystemDebugger, d.Idle ∧ s.debugger = d.fragments l
  commands : s.commands = all

/-! #### What a gap does -/

variable {answer T}

@[simp] theorem debugger_respond (k : ℕ) (s : DebugSide) : (s.respond k).debugger = s.debugger := by
  rw [respond]
  split <;> rfl

@[simp] theorem commands_respond (k : ℕ) (s : DebugSide) : (s.respond k).commands = s.commands := by
  rw [respond]
  split <;> rfl

@[simp] theorem late_respond (k : ℕ) (s : DebugSide) : (s.respond k).late = s.late := by
  rw [respond]
  split <;> rfl

/-- A response that comes is the last one until another is due. -/
@[simp] theorem latest_respond (k : ℕ) (s : DebugSide) : (s.respond k).latest = s.latest := by
  rw [respond]
  split
  · rfl
  next data h =>
    have hp : s.pending = s.pending.take k ++ s.pending.drop k := (List.take_append_drop k _).symm
    rw [latest, latest]
    conv_rhs => rw [hp, List.getLast?_append, h]
    cases (s.pending.drop k).getLast? <;> rfl

@[simp] theorem late_offer (ready : Bool) (s : DebugSide) : (s.offer answer ready).late = s.late := by
  rw [offer]
  split_ifs <;> rfl

/-- With no data loaded, nothing is offered. -/
theorem offer_of_dataLoaded {s : DebugSide} (hs : s.debugger.dataLoaded = false) (ready : Bool) :
    s.offer answer ready = s := by
  have hvalid : s.debugger.cmdValid = false := by
    rw [SystemDebugger.cmdValid, hs, Bool.false_and]
  rw [offer, hvalid, Bool.false_and, if_neg (by decide), SystemDebugger.settle_of_dataLoaded hs]

/-- What was late stays late. -/
theorem late_of_gap {f : Fragment} {s : DebugSide} (h : (s.gap answer T f).late = false) : s.late = false := by
  have hr : (s.receive f).late = false := by simpa [gap] using h
  cases f with
  | none => exact hr
  | some f => exact (Bool.or_eq_false_iff.mp hr).1

theorem late_of_feed {fs : List Fragment} {s : DebugSide} (h : (s.feed answer T fs).late = false) :
    s.late = false := by
  induction fs generalizing s with
  | nil => exact h
  | cons f fs ih => exact late_of_gap (ih h)

theorem feed_append (s : DebugSide) (fs₁ fs₂ : List Fragment) :
    s.feed answer T (fs₁ ++ fs₂) = (s.feed answer T fs₁).feed answer T fs₂ := List.foldl_append

/-- Gaps in which nothing arrives. -/
def wait (answer : List Command → Word) (T : Timing) (s : DebugSide) (n : ℕ) : DebugSide :=
  s.feed answer T (List.replicate n none)

theorem wait_wait (s : DebugSide) (m n : ℕ) :
    (s.wait answer T m).wait answer T n = s.wait answer T (m + n) := by
  rw [wait, wait, wait, ← feed_append, List.replicate_append_replicate]

/-- The bus takes a command, or leaves it on offer. -/
theorem settled_offer {all : List Command} {s : DebugSide} (hs : s.Settled answer all) (ready : Bool) :
    (s.offer answer ready).Settled answer all := by
  cases hs with
  | idle hs hc hr =>
    rw [offer_of_dataLoaded hs.dataLoaded]
    exact .idle hs hc hr
  | offers c hs hc =>
    cases ready with
    | false =>
      rw [offer, Bool.and_false, if_neg (by decide), hs.settle_false]
      exact .offers c hs hc
    | true =>
      rw [offer, hs.cmdValid, Bool.and_true, if_pos rfl, hs.cmd, hc]
      refine .idle hs.idle_settle rfl (Or.inr ?_)
      simp [latest]

theorem settled_respond {all : List Command} {s : DebugSide} (hs : s.Settled answer all) (k : ℕ) :
    (s.respond k).Settled answer all := by
  cases hs with
  | idle hs hc hr => exact .idle (by simpa using hs) (by simpa using hc) (by simpa using hr)
  | offers c hs hc => exact .offers c (by simpa using hs) (by simpa using hc)

/-- Counting a gap settles nothing and unsettles nothing. -/
theorem settled_gaps {all : List Command} {s : DebugSide} (hs : s.Settled answer all) (n : ℕ) :
    ({ s with gaps := n } : DebugSide).Settled answer all := by
  cases hs with
  | idle hs hc hr => exact .idle hs hc hr
  | offers c hs hc => exact .offers c hs hc

/-- **A gap in which nothing arrives.** -/
theorem Settled.gap {all : List Command} {s : DebugSide} (hs : s.Settled answer all) :
    (s.gap answer T none).Settled answer all :=
  settled_gaps (settled_respond (settled_offer hs _) _) _

/-- **The first bit of a scan arrives**, in time. -/
theorem Settled.first {all : List Command} {s : DebugSide} (hs : s.Settled answer all) {b : Bool}
    (h : (s.gap answer T (some (false, b))).late = false) :
    (s.gap answer T (some (false, b))).Loading all [b] := by
  have hlate : s.late = false ∧ s.debugger.dataLoaded = false := by
    simpa [DebugSide.gap, receive] using h
  cases hs with
  | idle hs hc hr =>
    have hd : (s.receive (some (false, b))).debugger.dataLoaded = false :=
      (s.debugger.dataLoaded_fragments [b]).trans hs.dataLoaded
    rw [DebugSide.gap, offer_of_dataLoaded hd]
    exact ⟨⟨s.debugger, hs, debugger_respond _ _⟩, (commands_respond _ _).trans hc⟩
  | offers c hs hc => exact absurd (hs.dataLoaded.symm.trans hlate.2) (by decide)

variable (answer T) in
/-- **Another bit arrives.** -/
theorem Loading.gap {all : List Command} {l : List Bool} {s : DebugSide} (hs : s.Loading all l) (b : Bool) :
    (s.gap answer T (some (false, b))).Loading all (l ++ [b]) := by
  obtain ⟨⟨d, hd, hl⟩, hc⟩ := hs
  have hf : s.debugger.fragment false b = d.fragments (l ++ [b]) := by
    rw [SystemDebugger.fragments_append, ← hl]
    rfl
  have hloaded : (s.receive (some (false, b))).debugger.dataLoaded = false := by
    change (s.debugger.fragment false b).dataLoaded = false
    rw [hf, SystemDebugger.dataLoaded_fragments, hd.dataLoaded]
  rw [DebugSide.gap, offer_of_dataLoaded hloaded]
  exact ⟨⟨d, hd, (debugger_respond _ _).trans hf⟩, (commands_respond _ _).trans hc⟩

/-- **The last bit arrives**, and the command is put on the bus. -/
theorem Loading.last {all : List Command} {l : List Bool} {s : DebugSide} {b : Bool}
    (hs : s.Loading all (List.replicate 8 false ++ l)) (hl : (l ++ [b]).length = 67) :
    (s.gap answer T (some (true, b))).Settled answer (all ++ [Command.ofData (l ++ [b])]) := by
  obtain ⟨⟨d, hd, hbits⟩, rfl⟩ := hs
  have ho : (s.receive (some (true, b))).Settled answer (s.commands ++ [Command.ofData (l ++ [b])]) := by
    refine .offers (Command.ofData (l ++ [b])) ?_ rfl
    change (s.debugger.fragment true b).Offers _
    rw [hbits]
    exact SystemDebugger.offers_frame hd hl
  exact settled_gaps (settled_respond (settled_offer ho _) _) _

/-! #### A scan, and a read -/

/-- The bits of a scan, as they are handed over. -/
def frame (l : List Bool) (b : Bool) : List Fragment := l.map (fun b => some (false, b)) ++ [some (true, b)]

theorem Settled.wait {all : List Command} {s : DebugSide} (hs : s.Settled answer all) (n : ℕ) :
    (s.wait answer T n).Settled answer all := by
  induction n generalizing s with
  | zero => exact hs
  | succ n ih => exact ih hs.gap

variable (answer T) in
theorem Loading.feed {all : List Command} {l : List Bool} {s : DebugSide} (hs : s.Loading all l)
    (l' : List Bool) :
    (s.feed answer T (l'.map fun b => some (false, b))).Loading all (l ++ l') := by
  induction l' generalizing l s with
  | nil => rwa [List.append_nil]
  | cons b l' ih =>
    have hstep := ih (hs.gap answer T b)
    rwa [List.append_assoc] at hstep

/-- **A frame comes in**, in time, and its command is put on the bus. -/
theorem Settled.frame {all : List Command} {s : DebugSide} (hs : s.Settled answer all) {l : List Bool}
    {b : Bool} (hl : (l ++ [b]).length = 67)
    (h : (s.feed answer T (DebugSide.frame (List.replicate 8 false ++ l) b)).late = false) :
    (s.feed answer T (DebugSide.frame (List.replicate 8 false ++ l) b)).Settled answer
      (all ++ [Command.ofData (l ++ [b])]) := by
  have hcons : DebugSide.frame (List.replicate 8 false ++ l) b =
      some (false, false) :: ((List.replicate 7 false ++ l).map (fun b => some (false, b)) ++ [some (true, b)]) :=
    rfl
  rw [hcons] at h ⊢
  change (DebugSide.feed answer T (s.gap answer T (some (false, false))) _).late = false at h
  change (DebugSide.feed answer T (s.gap answer T (some (false, false))) _).Settled answer _
  have hload := hs.first (late_of_feed h)
  rw [feed_append]
  exact (hload.feed answer T (List.replicate 7 false ++ l)).last hl

theorem late_of_read {s : DebugSide} (h : s.read.late = false) : s.late = false := by
  rw [read, Bool.or_eq_false_iff, Bool.or_eq_false_iff] at h
  exact h.1.1

theorem Settled.of_read {all : List Command} {s : DebugSide} (hs : s.Settled answer all) :
    s.read.Settled answer all := by
  cases hs with
  | idle hs hc hr => exact .idle hs hc hr
  | offers c hs hc => exact .offers c hs hc

/-- **A read in time** finds the response to the last command. -/
theorem Settled.rspData {all : List Command} {s : DebugSide} (hs : s.Settled answer all) (hall : all ≠ [])
    (h : s.read.late = false) : s.rspData = answer all := by
  rw [read, Bool.or_eq_false_iff, Bool.or_eq_false_iff] at h
  obtain ⟨⟨-, hloaded⟩, hpending⟩ := h
  cases hs with
  | idle hs hc hr =>
    have hnil : s.pending = [] := by simpa using hpending
    have hr' := hr.resolve_left hall
    rw [latest, hnil] at hr'
    exact hr'
  | offers c hs hc => exact absurd (hs.dataLoaded.symm.trans hloaded) (by decide)

/-- **What the bus has been presented with** between two scans. -/
theorem Settled.presented {all : List Command} {s : DebugSide} (hs : s.Settled answer all) :
    s.presented = all := by
  cases hs with
  | idle hs hc hr =>
    rw [DebugSide.presented, hs.cmdValid, if_neg (by decide), List.append_nil, hc]
  | offers c hs hc => rw [DebugSide.presented, hs.cmdValid, if_pos rfl, hs.cmd, hc]

/-! #### Unless it was late -/

/-- Settled, unless it was late. -/
def Sound (answer : List Command → Word) (all : List Command) (s : DebugSide) : Prop :=
  s.late = false → s.Settled answer all

theorem Sound.wait {all : List Command} {s : DebugSide} (hs : s.Sound answer all) (n : ℕ) :
    (s.wait answer T n).Sound answer all := fun h => (hs (late_of_feed h)).wait n

theorem Sound.of_read {all : List Command} {s : DebugSide} (hs : s.Sound answer all) :
    s.read.Sound answer all := fun h => (hs (late_of_read h)).of_read

/-- A frame comes in after a gap. -/
theorem Sound.frame {all : List Command} {s : DebugSide} (hs : s.Sound answer all) {l : List Bool} {b : Bool}
    (hl : (l ++ [b]).length = 67) :
    (s.feed answer T (none :: DebugSide.frame (List.replicate 8 false ++ l) b)).Sound answer
      (all ++ [Command.ofData (l ++ [b])]) := fun h => (hs.wait 1 (late_of_feed h)).frame hl h

/-- What a read finds, if it was not late. -/
theorem Sound.rspData {all : List Command} {s : DebugSide} (hs : s.Sound answer all) (hall : all ≠ [])
    (h : s.read.late = false) : s.rspData = answer all := (hs (late_of_read h)).rspData hall h

/-! #### A bus that is never late -/

/-- Nothing is on its way. -/
structure Prompt (s : DebugSide) : Prop where
  dataLoaded : s.debugger.dataLoaded = false
  pending : s.pending = []
  late : s.late = false

/-- **An eager bus is never late**, whatever arrives. -/
theorem Prompt.gap {s : DebugSide} (hs : s.Prompt) (f : Fragment) : (s.gap answer .eager f).Prompt := by
  have hr : (s.receive f).pending = [] ∧ (s.receive f).late = false ∧
      ((s.receive f).debugger.dataLoaded = true → (s.receive f).debugger.headerLoaded = true) := by
    cases f with
    | none => exact ⟨hs.pending, hs.late, fun h => absurd (hs.dataLoaded.symm.trans h) (by decide)⟩
    | some f =>
      obtain ⟨last, b⟩ := f
      refine ⟨hs.pending, by simp [receive, hs.late, hs.dataLoaded], fun h => ?_⟩
      cases last with
      | true => rfl
      | false =>
        have hd := (s.debugger.dataLoaded_fragments [b]).trans hs.dataLoaded
        exact absurd (hd.symm.trans h) (by decide)
  obtain ⟨hpending, hlate, hheader⟩ := hr
  have hsettle : ((s.receive f).debugger.settle true).dataLoaded = false := by
    by_cases hd : (s.receive f).debugger.dataLoaded = true
    · simp [SystemDebugger.settle, hd, hheader hd]
    · rw [SystemDebugger.settle_of_dataLoaded (by simpa using hd)]
      simpa using hd
  have hready : (Timing.eager.ready s.gaps) = true := rfl
  rw [DebugSide.gap, offer, hready, Bool.and_true]
  split_ifs
  · rw [hpending]
    exact ⟨hsettle, rfl, hlate⟩
  · have hnone : ((s.receive f).pending.take (Timing.eager.responses s.gaps)).getLast? = none := by
      rw [hpending]
      rfl
    simp only [respond, hnone]
    exact ⟨hsettle, hpending, hlate⟩

/-- After a reset. -/
def fresh : DebugSide :=
  ⟨⟨.ofNat 67 0, false, .ofNat 8 0, false, 0⟩, false, false, 0, [], [], 0, false⟩

theorem sound_fresh : fresh.Sound answer [] := fun _ => .idle ⟨rfl, rfl, rfl⟩ rfl (Or.inl rfl)

theorem prompt_fresh : fresh.Prompt := ⟨rfl, rfl, rfl⟩

theorem Prompt.of_read {s : DebugSide} (hs : s.Prompt) : s.read.Prompt :=
  ⟨hs.dataLoaded, hs.pending, by simp [read, hs.late, hs.dataLoaded, hs.pending]⟩

end DebugSide

end PyOcdRiscv.Target
