import Mathlib.Algebra.Group.Nat.Defs
import Mathlib.Data.Int.Notation
import Mathlib.Data.List.Basic

/-!
# The simulator's JTAG server

`Jtag` of `jtag.h`, woken by the simulator's loop. A tick looks for a new client every so
often, reads bytes of its client's into a buffer when that is empty, and puts one byte of
the buffer on the pins, with the level on TDO as an answer if the byte asks for one. It
finds its byte by two counters; `Jtag.tick_eq` says that this is a queue, of which
`Server.tick` is the same tick, and that the index is one of the buffer's.
-/

namespace PyOcdRiscv.Sim

/-- What its socket calls answer in a tick, where it makes them. -/
structure Answers where
  /-- `accept`: the new client, or -1. -/
  accept : Option ℕ
  /-- `ioctl`: the number of bytes to be read, or a failure. -/
  ioctl : Option ℤ
  /-- `read`, called for 100 bytes: the bytes, or -1. -/
  read : Option {bs : List UInt8 // bs.length ≤ 100}
  /-- `send`: whether the byte is sent. -/
  send : Bool

/-- What a tick does outside. -/
inductive Event where
  /-- A client is connected. -/
  | accepted (handle : ℕ)
  /-- The client is shut down. -/
  | shutdown (handle : ℕ)
  /-- Bytes are read from the client. -/
  | received (bytes : List UInt8)
  /-- A byte is put on the pins. -/
  | applied (buffer : UInt8)
  /-- A byte is sent to the client. -/
  | replied (buffer : UInt8)
  deriving DecidableEq, Repr

/-- The clients that are accepted in a list of events, -/
def accepted (es : List Event) : List ℕ :=
  es.flatMap fun
    | .accepted handle => [handle]
    | _ => []

/-- those that are shut down, -/
def shutdowns (es : List Event) : List ℕ :=
  es.flatMap fun
    | .shutdown handle => [handle]
    | _ => []

/-- the bytes that are read, -/
def received (es : List Event) : List UInt8 :=
  es.flatMap fun
    | .received bytes => bytes
    | _ => []

/-- those that are put on the pins, -/
def applied (es : List Event) : List UInt8 :=
  es.flatMap fun
    | .applied buffer => [buffer]
    | _ => []

/-- and those that are sent. -/
def replied (es : List Event) : List UInt8 :=
  es.flatMap fun
    | .replied buffer => [buffer]
    | _ => []

/-- The attributes of a `Jtag` that have to do with its client. -/
structure Connection where
  /-- `clientHandle`, with `none` for -1. -/
  clientHandle : Option ℕ
  selfSleep : ℕ
  checkNewConnectionsTimer : ℕ
  deriving DecidableEq, Repr

namespace Connection

/-- `connectionReset`. -/
def connectionReset (c : Connection) : Connection × List Event :=
  ({ c with clientHandle := none }, c.clientHandle.toList.map .shutdown)

/-- The first part of a tick. -/
def checkNewConnections (o : Answers) (c : Connection) : Connection × List Event :=
  let c := { c with checkNewConnectionsTimer := (c.checkNewConnectionsTimer + 1) % 2 ^ 32 }
  if c.checkNewConnectionsTimer = 5000 then
    let c := { c with checkNewConnectionsTimer := 0 }
    match o.accept with
    | some newclientHandle =>
      let r := if c.clientHandle = none then (c, []) else c.connectionReset
      ({ r.1 with clientHandle := some newclientHandle }, r.2 ++ [.accepted newclientHandle])
    | none => (if c.clientHandle = none then { c with selfSleep := 1000 } else c, [])
  else (c, [])

end Connection

/-- Whether a byte asks for the level on TDO. -/
def asks (buffer : UInt8) : Bool := buffer &&& 4 != 0

/-- The level on TDO, as it is sent. -/
def answer (tdo : Bool) : UInt8 := if tdo then 1 else 0

/-- The attributes of a `Jtag` that change. -/
structure Jtag extends Connection where
  rxBuffer : Vector UInt8 100
  rxBufferSize : ℤ
  rxBufferRemaining : ℤ

namespace Jtag

/-- Bytes are read into the front of the buffer. -/
def fill (bs : {bs : List UInt8 // bs.length ≤ 100}) (rxBuffer : Vector UInt8 100) : Vector UInt8 100 :=
  ⟨(bs.1 ++ rxBuffer.toList.drop bs.1.length).toArray, by
    have := bs.2
    simp
    omega⟩

/-- The second part of a tick: the buffer is filled if it is empty. -/
def receive (o : Answers) (s : Jtag) : Jtag × List Event :=
  if s.rxBufferRemaining = 0 then
    match o.ioctl with
    | none =>
      let r := s.connectionReset
      ({ s with toConnection := r.1 }, r.2)
    | some n =>
      if 1 ≤ n then
        match o.read with
        | none =>
          let r := s.connectionReset
          ({ s with toConnection := r.1, rxBufferSize := -1 }, r.2)
        | some bs =>
          ({ s with
            rxBuffer := fill bs s.rxBuffer
            rxBufferSize := bs.1.length
            rxBufferRemaining := bs.1.length }, [.received bs])
      else ({ s with selfSleep := 30 }, [])
  else (s, [])

/-- The third: a byte of the buffer is put on the pins, unless it is empty. There is no
result if the index is not one of the buffer's. -/
def apply (o : Answers) (tdo : Bool) (s : Jtag) : Option (Jtag × List Event) :=
  if s.rxBufferRemaining = 0 then some (s, [])
  else
    ((s.rxBufferSize - s.rxBufferRemaining).toNat?.bind fun i => s.rxBuffer[i]?).map fun buffer =>
      let s := { s with rxBufferRemaining := s.rxBufferRemaining - 1 }
      if asks buffer then
        if o.send then (s, [.applied buffer, .replied (answer tdo)])
        else
          let r := s.connectionReset
          ({ s with toConnection := r.1 }, .applied buffer :: r.2)
      else (s, [.applied buffer])

/-- `tick`, with the level of `*tdo`. -/
def tick (o : Answers) (tdo : Bool) (s : Jtag) : Option (Jtag × List Event) :=
  let c := s.checkNewConnections o
  let s := { s with toConnection := c.1 }
  if s.selfSleep ≠ 0 then some ({ s with selfSleep := s.selfSleep - 1 }, c.2)
  else if s.clientHandle = none then some (s, c.2)
  else
    let r := s.receive o
    (r.1.apply o tdo).map fun a => (a.1, c.2 ++ r.2 ++ a.2)

/-- As the constructor leaves it. The buffer is not initialised. -/
def start (rxBuffer : Vector UInt8 100) : Jtag := ⟨⟨none, 0, 0⟩, rxBuffer, 0, 0⟩

end Jtag

/-! ### The buffer as a queue -/

/-- The server, with the bytes that are read and not yet applied. -/
structure Server extends Connection where
  pending : List UInt8

namespace Server

/-- The second part of a tick. -/
def receive (o : Answers) (s : Server) : Server × List Event :=
  if s.pending = [] then
    match o.ioctl with
    | none => ({ s with toConnection := s.connectionReset.1 }, s.connectionReset.2)
    | some n =>
      if 1 ≤ n then
        match o.read with
        | none => ({ s with toConnection := s.connectionReset.1 }, s.connectionReset.2)
        | some bs => ({ s with pending := bs }, [.received bs])
      else ({ s with selfSleep := 30 }, [])
  else (s, [])

/-- The third. -/
def apply (o : Answers) (tdo : Bool) (s : Server) : Server × List Event :=
  match s.pending with
  | [] => (s, [])
  | buffer :: pending =>
    let s := { s with pending := pending }
    if asks buffer then
      if o.send then (s, [.applied buffer, .replied (answer tdo)])
      else ({ s with toConnection := s.connectionReset.1 }, .applied buffer :: s.connectionReset.2)
    else (s, [.applied buffer])

/-- The tick. -/
def tick (o : Answers) (tdo : Bool) (s : Server) : Server × List Event :=
  let c := s.checkNewConnections o
  let s := { s with toConnection := c.1 }
  if s.selfSleep ≠ 0 then ({ s with selfSleep := s.selfSleep - 1 }, c.2)
  else if s.clientHandle = none then (s, c.2)
  else
    let r := s.receive o
    let a := r.1.apply o tdo
    (a.1, c.2 ++ r.2 ++ a.2)

variable {s : Server} {o : Answers} {tdo : Bool}

theorem tick_asleep (h : (s.checkNewConnections o).1.selfSleep ≠ 0) :
    s.tick o tdo =
      (⟨{ (s.checkNewConnections o).1 with selfSleep := (s.checkNewConnections o).1.selfSleep - 1 }, s.pending⟩,
        (s.checkNewConnections o).2) :=
  if_pos h

theorem tick_idle (h : (s.checkNewConnections o).1.selfSleep = 0)
    (hc : (s.checkNewConnections o).1.clientHandle = none) :
    s.tick o tdo = (⟨(s.checkNewConnections o).1, s.pending⟩, (s.checkNewConnections o).2) := by
  rw [tick, if_neg (not_not.mpr h), if_pos hc]

theorem tick_busy (h : (s.checkNewConnections o).1.selfSleep = 0)
    (hc : (s.checkNewConnections o).1.clientHandle ≠ none) :
    s.tick o tdo = (((receive o ⟨(s.checkNewConnections o).1, s.pending⟩).1.apply o tdo).1,
      (s.checkNewConnections o).2 ++ (receive o ⟨(s.checkNewConnections o).1, s.pending⟩).2 ++
        ((receive o ⟨(s.checkNewConnections o).1, s.pending⟩).1.apply o tdo).2) := by
  rw [tick, if_neg (not_not.mpr h), if_neg hc]

end Server

/-! ### What a tick reads, applies and sends -/

section

variable (es fs : List Event)

@[simp] theorem accepted_append : accepted (es ++ fs) = accepted es ++ accepted fs := List.flatMap_append

@[simp] theorem shutdowns_append : shutdowns (es ++ fs) = shutdowns es ++ shutdowns fs := List.flatMap_append

@[simp] theorem received_append : received (es ++ fs) = received es ++ received fs := List.flatMap_append

@[simp] theorem applied_append : applied (es ++ fs) = applied es ++ applied fs := List.flatMap_append

@[simp] theorem replied_append : replied (es ++ fs) = replied es ++ replied fs := List.flatMap_append

end

/-- A list of events that touches no bytes. -/
def NoBytes (es : List Event) : Prop := received es = [] ∧ applied es = [] ∧ replied es = []

namespace Connection

variable {c : Connection} {o : Answers} {h : ℕ}

theorem connectionReset_noBytes (c : Connection) : NoBytes c.connectionReset.2 := by
  unfold connectionReset
  cases c.clientHandle <;> exact ⟨rfl, rfl, rfl⟩

/-- This tick looks for a new client. -/
def Due (c : Connection) : Prop := (c.checkNewConnectionsTimer + 1) % 2 ^ 32 = 5000

/-- It finds one, -/
theorem checkNewConnections_accept (hc : c.Due) (ho : o.accept = some h) :
    c.checkNewConnections o = (⟨some h, c.selfSleep, 0⟩, c.clientHandle.toList.map .shutdown ++ [.accepted h]) := by
  unfold checkNewConnections
  simp only [show (c.checkNewConnectionsTimer + 1) % 2 ^ 32 = 5000 from hc, if_true, ho]
  cases c.clientHandle <;> simp [connectionReset]

/-- or it does not, -/
theorem checkNewConnections_refused (hc : c.Due) (ho : o.accept = none) :
    c.checkNewConnections o =
      (⟨c.clientHandle, if c.clientHandle = none then 1000 else c.selfSleep, 0⟩, []) := by
  unfold checkNewConnections
  simp only [show (c.checkNewConnectionsTimer + 1) % 2 ^ 32 = 5000 from hc, if_true, ho]
  split_ifs <;> rfl

/-- and the others do not look. -/
theorem checkNewConnections_wait (hc : ¬ c.Due) :
    c.checkNewConnections o = (⟨c.clientHandle, c.selfSleep, (c.checkNewConnectionsTimer + 1) % 2 ^ 32⟩, []) :=
  if_neg hc

theorem due_iff (h : c.checkNewConnectionsTimer < 5000) : c.Due ↔ c.checkNewConnectionsTimer = 4999 := by
  unfold Due
  omega

/-- The counter stays below 5000. -/
theorem checkNewConnections_timer (h : c.checkNewConnectionsTimer < 5000) (o : Answers) :
    (c.checkNewConnections o).1.checkNewConnectionsTimer < 5000 := by
  by_cases hc : c.Due
  · cases ho : o.accept with
    | none =>
      rw [checkNewConnections_refused hc ho]
      exact Nat.zero_lt_succ _
    | some n =>
      rw [checkNewConnections_accept hc ho]
      exact Nat.zero_lt_succ _
  · rw [checkNewConnections_wait hc]
    have hne : c.checkNewConnectionsTimer ≠ 4999 := fun heq => hc ((due_iff h).mpr heq)
    dsimp only
    omega

/-- The ticks until the server looks what there is to be read. -/
def wait (c : Connection) : ℕ :=
  c.selfSleep + if c.clientHandle = none then 5000 - c.checkNewConnectionsTimer else 0

/-- The first part of a tick does not put the server to sleep, and brings it nearer to a client. -/
theorem wait_checkNewConnections (h : c.checkNewConnectionsTimer < 5000)
    (ho : c.clientHandle = none → o.accept ≠ none) :
    (c.checkNewConnections o).1.wait ≤ c.wait ∧
      ((c.checkNewConnections o).1.clientHandle = none → (c.checkNewConnections o).1.wait + 1 ≤ c.wait) := by
  unfold wait
  by_cases hdue : c.Due
  · have htimer := (due_iff h).mp hdue
    cases hacc : o.accept with
    | none =>
      have hclient : c.clientHandle ≠ none := fun hc => ho hc hacc
      rw [checkNewConnections_refused hdue hacc]
      simp only [if_neg hclient]
      exact ⟨Nat.le_refl _, fun hc => absurd hc hclient⟩
    | some n =>
      rw [checkNewConnections_accept hdue hacc]
      exact ⟨Nat.add_le_add_left (Nat.zero_le _) _, fun hc => absurd hc (Option.some_ne_none n)⟩
  · have htimer : c.checkNewConnectionsTimer ≠ 4999 := fun heq => hdue ((due_iff h).mpr heq)
    rw [checkNewConnections_wait hdue]
    dsimp only
    split_ifs with hclient
    · omega
    · exact ⟨Nat.le_refl _, fun hc => absurd hc hclient⟩

/-- The first part of a tick touches no bytes. -/
theorem checkNewConnections_noBytes (o : Answers) (c : Connection) : NoBytes (c.checkNewConnections o).2 := by
  by_cases hc : c.Due
  · cases ho : o.accept with
    | none =>
      rw [checkNewConnections_refused hc ho]
      exact ⟨rfl, rfl, rfl⟩
    | some h =>
      rw [checkNewConnections_accept hc ho]
      cases c.clientHandle <;> exact ⟨rfl, rfl, rfl⟩
  · rw [checkNewConnections_wait hc]
    exact ⟨rfl, rfl, rfl⟩

end Connection

namespace Server

variable (s : Server) (o : Answers) (tdo : Bool)

/-- The second fills the queue, -/
theorem receive_conserves : s.pending ++ received (s.receive o).2 = (s.receive o).1.pending ∧
    applied (s.receive o).2 = [] ∧ replied (s.receive o).2 = [] := by
  obtain ⟨hr, ha, hs⟩ := s.connectionReset_noBytes
  unfold receive
  split_ifs with hp
  · cases o.ioctl with
    | none => exact ⟨by rw [hr, List.append_nil], ha, hs⟩
    | some n =>
      dsimp only
      split_ifs
      · cases o.read with
        | none => exact ⟨by rw [hr, List.append_nil], ha, hs⟩
        | some bs =>
          refine ⟨?_, rfl, rfl⟩
          rw [hp]
          exact List.append_nil _
      · exact ⟨List.append_nil _, rfl, rfl⟩
  · exact ⟨List.append_nil _, rfl, rfl⟩

/-- and the third applies its head, and answers it if it asks and can be answered. -/
theorem apply_conserves : received (s.apply o tdo).2 = [] ∧
    s.pending = applied (s.apply o tdo).2 ++ (s.apply o tdo).1.pending ∧ (applied (s.apply o tdo).2).length ≤ 1 ∧
    replied (s.apply o tdo).2 =
      ((applied (s.apply o tdo).2).filter fun b => asks b && o.send).map fun _ => answer tdo := by
  unfold apply
  cases hp : s.pending with
  | nil => exact ⟨rfl, hp.symm, Nat.zero_le 1, rfl⟩
  | cons b bs =>
    dsimp only
    cases ha : asks b with
    | false => exact ⟨rfl, rfl, Nat.le_refl 1, by simp [applied, replied, ha]⟩
    | true =>
      cases hs : o.send with
      | true => exact ⟨rfl, rfl, Nat.le_refl 1, by simp [applied, replied, ha]⟩
      | false =>
        obtain ⟨hr, happ, hrep⟩ := s.connectionReset_noBytes
        have happlied : applied (Event.applied b :: s.connectionReset.2) = [b] := congrArg (b :: ·) happ
        have hreplied : replied (Event.applied b :: s.connectionReset.2) = [] := hrep
        refine ⟨hr, congrArg (· ++ bs) happlied.symm, Nat.le_of_eq (congrArg List.length happlied), ?_⟩
        exact hreplied.trans (by simp [happlied])

/-- **What is read is applied in order**, at most one byte in a tick, and answered if it asks and
can be answered. -/
theorem tick_conserves : s.pending ++ received (s.tick o tdo).2 = applied (s.tick o tdo).2 ++ (s.tick o tdo).1.pending ∧
    (applied (s.tick o tdo).2).length ≤ 1 ∧ replied (s.tick o tdo).2 =
      ((applied (s.tick o tdo).2).filter fun b => asks b && o.send).map fun _ => answer tdo := by
  obtain ⟨hr, ha, hs⟩ := s.checkNewConnections_noBytes o
  by_cases hsleep : (s.checkNewConnections o).1.selfSleep = 0
  · by_cases hclient : (s.checkNewConnections o).1.clientHandle = none
    · rw [tick_idle hsleep hclient, hr, ha, hs]
      exact ⟨List.append_nil _, Nat.zero_le 1, rfl⟩
    · rw [tick_busy hsleep hclient]
      obtain ⟨hr₂, ha₂, hs₂⟩ := receive_conserves ⟨(s.checkNewConnections o).1, s.pending⟩ o
      obtain ⟨hr₃, ha₃, hlen, hs₃⟩ := apply_conserves (receive o ⟨(s.checkNewConnections o).1, s.pending⟩).1 o tdo
      simp only [received_append, applied_append, replied_append, hr, ha, hs, ha₂, hs₂, hr₃, List.nil_append,
        List.append_nil]
      exact ⟨hr₂.trans ha₃, hlen, hs₃⟩
  · rw [tick_asleep hsleep, hr, ha, hs]
    exact ⟨List.append_nil _, Nat.zero_le 1, rfl⟩

/-! While no call fails, the connection is as the first part of a tick leaves it. -/

/-- The rest of such a tick, from the connection `c` on, where `n` bytes are there and a read gives
`bs`. -/
structure Smooth (c : Connection) (pending : List UInt8) (n : ℤ) (bs : List UInt8) (s : Server)
    (es : List Event) : Prop where
  client : s.clientHandle = c.clientHandle
  timer : s.checkNewConnectionsTimer = c.checkNewConnectionsTimer
  steady : accepted es = [] ∧ shutdowns es = []
  read : received es = [] ∨ received es = bs
  /-- It sleeps on, or waits for a client, or has something to do or else falls asleep. -/
  busy : c.selfSleep = s.selfSleep + 1 ∨ (c.clientHandle = none ∧ s.selfSleep = c.selfSleep) ∨
    (s.selfSleep = c.selfSleep ∧ applied es ≠ []) ∨ (pending = [] ∧ (n < 1 ∨ bs = []))

theorem apply_smooth {o : Answers} (ho : o.send = true) : (s.apply o tdo).1.toConnection = s.toConnection ∧
    accepted (s.apply o tdo).2 = [] ∧ shutdowns (s.apply o tdo).2 = [] ∧
      (s.pending ≠ [] → applied (s.apply o tdo).2 ≠ []) := by
  unfold apply
  cases hp : s.pending with
  | nil => exact ⟨rfl, rfl, rfl, fun h => absurd rfl h⟩
  | cons b bs =>
    simp only [ho, if_true]
    split_ifs
    · exact ⟨rfl, rfl, rfl, fun _ => List.cons_ne_nil b []⟩
    · exact ⟨rfl, rfl, rfl, fun _ => List.cons_ne_nil b []⟩

/-- The byte that is applied, in the queue `q` that is left after the events `es`. -/
theorem smooth_apply {o : Answers} {c : Connection} {pending bs : List UInt8} {n : ℤ} {q : Server} {es : List Event}
    (ho : o.send = true) (hsleep : c.selfSleep = 0) (tdo : Bool) (hsteady : accepted es = [] ∧ shutdowns es = [])
    (happlied : applied es = []) (hreceived : received es = [] ∨ received es = bs)
    (hclient : q.clientHandle = c.clientHandle) (htimer : q.checkNewConnectionsTimer = c.checkNewConnectionsTimer)
    (hbusy : q.selfSleep = 0 ∧ q.pending ≠ [] ∨ pending = [] ∧ (n < 1 ∨ bs = [])) :
    Smooth c pending n bs (q.apply o tdo).1 (es ++ (q.apply o tdo).2) := by
  obtain ⟨hconn, ha, hs, hne⟩ := apply_smooth q tdo ho
  obtain ⟨hr, -, -, -⟩ := apply_conserves q o tdo
  refine ⟨by rw [hconn, hclient], by rw [hconn, htimer], ⟨?_, ?_⟩, ?_, ?_⟩
  · rw [accepted_append, hsteady.1, ha, List.append_nil]
  · rw [shutdowns_append, hsteady.2, hs, List.append_nil]
  · rwa [received_append, hr, List.append_nil]
  · rcases hbusy with ⟨hq, hp⟩ | hnone
    · refine Or.inr (Or.inr (Or.inl ⟨by rw [hconn, hq, hsleep], ?_⟩))
      rw [applied_append, happlied, List.nil_append]
      exact hne hp
    · exact Or.inr (Or.inr (Or.inr hnone))

theorem tick_smooth (accept : Option ℕ) (n : ℤ) (bs : {bs : List UInt8 // bs.length ≤ 100}) :
    ∃ es, (s.tick ⟨accept, some n, some bs, true⟩ tdo).2 =
        (s.checkNewConnections ⟨accept, some n, some bs, true⟩).2 ++ es ∧
      Smooth (s.checkNewConnections ⟨accept, some n, some bs, true⟩).1 s.pending n bs
        (s.tick ⟨accept, some n, some bs, true⟩ tdo).1 es := by
  generalize ho : (⟨accept, some n, some bs, true⟩ : Answers) = o
  by_cases hsleep : (s.checkNewConnections o).1.selfSleep = 0
  · by_cases hclient : (s.checkNewConnections o).1.clientHandle = none
    · rw [tick_idle hsleep hclient]
      exact ⟨[], (List.append_nil _).symm, rfl, rfl, ⟨rfl, rfl⟩, Or.inl rfl, Or.inr (Or.inl ⟨hclient, rfl⟩)⟩
    · rw [tick_busy hsleep hclient, List.append_assoc]
      refine ⟨_, rfl, ?_⟩
      have hsend : o.send = true := by rw [← ho]
      have hreceive : receive o ⟨(s.checkNewConnections o).1, s.pending⟩ =
          if s.pending = [] then
            if 1 ≤ n then (⟨(s.checkNewConnections o).1, bs⟩, [.received bs])
            else (⟨{ (s.checkNewConnections o).1 with selfSleep := 30 }, s.pending⟩, [])
          else (⟨(s.checkNewConnections o).1, s.pending⟩, []) := by
        rw [← ho]
        rfl
      rw [hreceive]
      split_ifs with hp hn
      · refine smooth_apply hsend hsleep tdo ⟨rfl, rfl⟩ rfl (Or.inr (List.append_nil _)) rfl rfl ?_
        by_cases hbs : bs.1 = []
        · exact Or.inr ⟨hp, Or.inr hbs⟩
        · exact Or.inl ⟨hsleep, hbs⟩
      · exact smooth_apply hsend hsleep tdo ⟨rfl, rfl⟩ rfl (Or.inl rfl) rfl rfl (Or.inr ⟨hp, Or.inl (by omega)⟩)
      · exact smooth_apply hsend hsleep tdo ⟨rfl, rfl⟩ rfl (Or.inl rfl) rfl rfl (Or.inl ⟨hsleep, hp⟩)
  · rw [tick_asleep hsleep]
    refine ⟨[], (List.append_nil _).symm, rfl, rfl, ⟨rfl, rfl⟩, Or.inl rfl, Or.inl ?_⟩
    dsimp only
    omega

end Server

namespace Jtag

/-- The bytes of the buffer that are not yet applied. -/
def pending (s : Jtag) : List UInt8 :=
  (s.rxBuffer.toList.take s.rxBufferSize.toNat).drop (s.rxBufferSize - s.rxBufferRemaining).toNat

/-- The server that it is. -/
def server (s : Jtag) : Server := ⟨s.toConnection, s.pending⟩

/-- **What the counters keep.** Once a read has failed, the size is -1. -/
structure Counts (s : Jtag) : Prop where
  nonneg : 0 ≤ s.rxBufferRemaining
  le : s.rxBufferRemaining ≠ 0 → s.rxBufferRemaining ≤ s.rxBufferSize
  size : s.rxBufferSize ≤ 100

variable {s : Jtag}

theorem start_counts (rxBuffer : Vector UInt8 100) : (start rxBuffer).Counts :=
  ⟨Int.le_refl _, fun h => absurd rfl h, Int.zero_le_ofNat 100⟩

@[simp] theorem start_server (rxBuffer : Vector UInt8 100) : (start rxBuffer).server = ⟨⟨none, 0, 0⟩, []⟩ := rfl

theorem Counts.length_pending (h : s.Counts) : (s.pending.length : ℤ) = s.rxBufferRemaining := by
  obtain ⟨h0, hle, h100⟩ := h
  rw [pending, List.length_drop, List.length_take, Vector.length_toList]
  by_cases hr : s.rxBufferRemaining = 0
  · omega
  · have := hle hr
    omega

theorem Counts.pending_eq_nil (h : s.Counts) : s.pending = [] ↔ s.rxBufferRemaining = 0 := by
  rw [← List.length_eq_zero_iff, ← h.length_pending]
  exact Int.natCast_eq_zero.symm

/-- Filling it. -/
theorem pending_fill (c : Connection) (rxBuffer : Vector UInt8 100) (bs : {bs : List UInt8 // bs.length ≤ 100}) :
    pending ⟨c, fill bs rxBuffer, bs.1.length, bs.1.length⟩ = bs := by
  have hfill : (fill bs rxBuffer).toList = bs.1 ++ rxBuffer.toList.drop bs.1.length := rfl
  rw [pending, hfill, Int.toNat_natCast, Int.sub_self, List.take_left]
  rfl

/-- The byte that is next, and what is left. -/
theorem Counts.pending_eq_cons (h : s.Counts) {b : UInt8} {bs : List UInt8} (hp : s.pending = b :: bs) :
    ((s.rxBufferSize - s.rxBufferRemaining).toNat?.bind fun i => s.rxBuffer[i]?) = some b ∧
      ∀ c, pending { s with toConnection := c, rxBufferRemaining := s.rxBufferRemaining - 1 } = bs := by
  have hlen := h.length_pending
  rw [hp, List.length_cons] at hlen
  have hle := h.le (by omega)
  -- the index, as a number
  obtain ⟨i, hi⟩ : ∃ i : ℕ, s.rxBufferSize - s.rxBufferRemaining = i := ⟨_, (Int.toNat_of_nonneg (by omega)).symm⟩
  have hnext : s.rxBufferSize - (s.rxBufferRemaining - 1) = (i + 1 : ℕ) := by omega
  rw [pending, hi, Int.toNat_natCast] at hp
  have hget := congrArg List.head? hp
  have htail := congrArg List.tail hp
  rw [List.head?_drop, List.getElem?_take_of_lt (by omega), Vector.getElem?_toList] at hget
  rw [List.tail_drop] at htail
  refine ⟨?_, fun c => ?_⟩
  · rw [hi]
    exact hget
  · rw [pending, hnext, Int.toNat_natCast]
    exact htail

/-- The second part of a tick is that of the queue. -/
theorem Counts.receive_eq (h : s.Counts) (o : Answers) :
    (s.receive o).1.Counts ∧ ((s.receive o).1.server, (s.receive o).2) = s.server.receive o ∧
      (o.read ≠ none → 0 ≤ s.rxBufferSize → 0 ≤ (s.receive o).1.rxBufferSize) := by
  obtain ⟨accept, ioctl, read, send⟩ := o
  rw [Jtag.receive, Server.receive]
  by_cases hr : s.rxBufferRemaining = 0
  · have hp : s.server.pending = [] := h.pending_eq_nil.mpr hr
    rw [if_pos hr, if_pos hp]
    cases ioctl with
    | none => exact ⟨⟨h.nonneg, h.le, h.size⟩, rfl, fun _ h0 => h0⟩
    | some n =>
      by_cases hn : 1 ≤ n
      · simp only [if_pos hn]
        cases read with
        | none =>
          have hcounts : Counts ⟨s.connectionReset.1, s.rxBuffer, -1, s.rxBufferRemaining⟩ :=
            ⟨h.nonneg, fun h0 => absurd hr h0, by dsimp only; omega⟩
          have hempty : pending ⟨s.connectionReset.1, s.rxBuffer, -1, s.rxBufferRemaining⟩ = [] :=
            hcounts.pending_eq_nil.mpr hr
          refine ⟨hcounts, ?_, fun hread => absurd rfl hread⟩
          rw [server, hempty, ← hp]
          rfl
        | some bs =>
          have hlen := bs.2
          refine ⟨⟨Int.natCast_nonneg _, fun _ => Int.le_refl _, by dsimp only; omega⟩, ?_,
            fun _ _ => Int.natCast_nonneg _⟩
          rw [server, pending_fill]
          rfl
      · simp only [if_neg hn]
        exact ⟨⟨h.nonneg, h.le, h.size⟩, rfl, fun _ h0 => h0⟩
  · have hp : s.server.pending ≠ [] := fun hp => hr (h.pending_eq_nil.mp hp)
    rw [if_neg hr, if_neg hp]
    exact ⟨h, rfl, fun _ h0 => h0⟩

/-- And so is the third. -/
theorem Counts.apply_eq (h : s.Counts) (o : Answers) (tdo : Bool) : ∃ s', s'.Counts ∧
    s.apply o tdo = some (s', (s.server.apply o tdo).2) ∧ s'.server = (s.server.apply o tdo).1 ∧
      s'.rxBufferSize = s.rxBufferSize := by
  rw [Jtag.apply, Server.apply]
  cases hp : s.pending with
  | nil =>
    rw [if_pos (h.pending_eq_nil.mp hp)]
    simp only [server, hp]
    exact ⟨s, h, rfl, by rw [hp], rfl⟩
  | cons b bs =>
    have hlen := h.length_pending
    rw [hp, List.length_cons] at hlen
    have hle := h.le (by omega)
    obtain ⟨hb, hbs⟩ := h.pending_eq_cons hp
    have hcounts (c : Connection) :
        Counts { s with toConnection := c, rxBufferRemaining := s.rxBufferRemaining - 1 } :=
      ⟨by dsimp only; omega, fun _ => by dsimp only; omega, h.size⟩
    have hserver (c : Connection) :
        server { s with toConnection := c, rxBufferRemaining := s.rxBufferRemaining - 1 } = ⟨c, bs⟩ := by
      rw [server, hbs]
    rw [if_neg (by omega), hb, Option.map_some]
    simp only [server, hp]
    by_cases hasks : asks b = true
    · cases hsend : o.send with
      | true =>
        simp only [hasks, if_true]
        exact ⟨_, hcounts s.toConnection, rfl, hserver s.toConnection, rfl⟩
      | false =>
        simp only [hasks, if_true]
        exact ⟨_, hcounts s.connectionReset.1, rfl, hserver s.connectionReset.1, rfl⟩
    · simp only [hasks]
      exact ⟨_, hcounts s.toConnection, rfl, hserver s.toConnection, rfl⟩

/-- **The buffer is a queue.** Wherever the counters are in order, a tick finds its byte,
leaves them in order, and is that of the queue. While no read fails the size is one. -/
theorem Counts.tick_eq (h : s.Counts) (o : Answers) (tdo : Bool) : ∃ s', s'.Counts ∧
    s.tick o tdo = some (s', (s.server.tick o tdo).2) ∧ s'.server = (s.server.tick o tdo).1 ∧
      (o.read ≠ none → 0 ≤ s.rxBufferSize → 0 ≤ s'.rxBufferSize) := by
  have hcounts (c : Connection) : Counts { s with toConnection := c } := ⟨h.nonneg, h.le, h.size⟩
  by_cases hsleep : (s.checkNewConnections o).1.selfSleep = 0
  · by_cases hclient : (s.checkNewConnections o).1.clientHandle = none
    · rw [Server.tick_idle (s := s.server) hsleep hclient]
      refine ⟨_, hcounts (s.checkNewConnections o).1, ?_, rfl, fun _ h0 => h0⟩
      rw [tick, if_neg (not_not.mpr hsleep), if_pos hclient]
      rfl
    · obtain ⟨hr, hreceive, hsize⟩ := (hcounts (s.checkNewConnections o).1).receive_eq o
      obtain ⟨s', ha, happly, hs', hsize'⟩ := hr.apply_eq o tdo
      obtain ⟨hr₁, hr₂⟩ := Prod.mk.inj hreceive
      rw [hr₁] at happly hs'
      rw [Server.tick_busy (s := s.server) hsleep hclient]
      refine ⟨s', ha, ?_, hs', fun hread h0 => hsize' ▸ hsize hread h0⟩
      rw [tick, if_neg (not_not.mpr hsleep), if_neg hclient]
      dsimp only
      rw [happly, hr₂]
      rfl
  · rw [Server.tick_asleep (s := s.server) hsleep]
    refine ⟨_, hcounts _, ?_, rfl, fun _ h0 => h0⟩
    rw [tick, if_pos hsleep]
    rfl

end Jtag

end PyOcdRiscv.Sim
