import PyOcdRiscv.Lib.Tap
import PyOcdRiscv.Sim.JtagServer
import Mathlib.Data.List.Forall2
import Mathlib.Data.List.Induction

/-!
# A bit over the socket

`JtagSimController.readwritebit` of `sim.py` against the simulator's JTAG server: a client
that sends two bytes for each call and waits for one, two streams of bytes, and a server that
reads what it likes of them and puts one byte on the pins in a tick, after which the model is
evaluated. The client's sends and receives, the ticks and the iterations of the loop in which
the server is not woken come in any order.

`Stage` is how far the open call is, which is decided by what of its two bytes is applied, and
`Inv` what holds besides. `calls_answered` says what comes of it: each call is one rising edge of
TCK, and returns the level on TDO right before. That is what the controller of `Jtag.Sim` is
built on.
-/

namespace PyOcdRiscv.Sim.Stream

open Lib

/-! ### The pins -/

/-- The pins that the server drives. -/
structure Pins where
  tms : Bool
  tdi : Bool
  tck : Bool
  deriving DecidableEq, Repr

/-- The pins with a byte applied. -/
def Pins.ofByte (buffer : UInt8) : Pins := ⟨buffer &&& 1 != 0, buffer &&& 2 != 0, buffer &&& 8 != 0⟩

/-- What the model shows once it is evaluated. -/
structure Sample where
  pins : Pins
  tdo : Bool
  deriving DecidableEq, Repr

/-- A rising edge of TCK: what is shown right before, and the pins at it. -/
structure Rise where
  before : Sample
  pins : Pins
  deriving DecidableEq, Repr

/-- The rising edges of a waveform. -/
def rises : List Sample → List Rise
  | x :: y :: w =>
    if x.pins.tck = false ∧ y.pins.tck = true then ⟨x, y.pins⟩ :: rises (y :: w) else rises (y :: w)
  | _ => []

/-- An iteration of the loop: what the server does, if it is woken, what the others that are woken
do to the model, and what the model shows at its end. -/
structure Cycle (μ : Type) where
  events : List Event
  others : μ → μ
  shown : Sample

/-! ### The two programs -/

/-- `chr(val).encode()`. -/
def encode (val : ℕ) : List UInt8 := String.utf8EncodeChar (Char.ofNat val)

/-- The values of `readwritebit`, with `TMS` 1, `TDI` 2, `TDO` 4 and `TCK` 8: the first, -/
def lowVal (e : Edge) : ℕ := e.tms.toNat * 1 + e.tdi.toNat * 2

/-- and the second. -/
def highVal (e : Edge) : ℕ := e.tms.toNat * 1 + e.tdi.toNat * 2 + 8 + 4

/-- Where the client is. -/
inductive Phase where
  /-- It is not connected yet, -/
  | offline
  /-- between calls, -/
  | idle
  /-- in a call, with the first value sent, -/
  | low (e : Edge)
  /-- or with both sent, waiting for the answer. -/
  | high (e : Edge)
  deriving DecidableEq, Repr

/-- The client, the server, the streams between them and the model, with what has been
observed of them. -/
structure System (μ : Type) where
  server : Jtag
  /-- A client that is connected and not yet accepted. -/
  backlog : Option ℕ
  toServer : List UInt8
  toClient : List UInt8
  phase : Phase
  pins : Pins
  design : μ
  /-- The bytes that the client has sent. -/
  sent : List UInt8
  /-- The calls that have returned, with their values. -/
  done : List (Edge × ℕ)
  /-- The iterations of the loop. -/
  cycles : List (Cycle μ)

variable {μ : Type}

namespace System

/-- The client sends a value. -/
def send (val : ℕ) (phase : Phase) (s : System μ) : System μ :=
  { s with toServer := s.toServer ++ encode val, sent := s.sent ++ encode val, phase := phase }

/-- What the socket calls of a tick answer. A read of 100 bytes gives the first `k` of those that
are there. -/
def answers (k : ℕ) (s : System μ) : Answers :=
  ⟨s.backlog, some s.toServer.length, some ⟨s.toServer.take (min k 100), by rw [List.length_take]; omega⟩, true⟩

/-- What the events of a tick do to the streams and the pins. -/
def deliver (es : List Event) (s : System μ) : System μ :=
  { s with
    backlog := if accepted es = [] then s.backlog else none
    toServer := s.toServer.drop (received es).length
    toClient := s.toClient ++ replied es
    pins := (applied es).foldl (fun _ => Pins.ofByte) s.pins }

variable (eval : Pins → μ → μ) (tdo : μ → Bool)

/-- The end of an iteration: whatever else is woken has done `g` to the model, and it is evaluated. -/
def evaluate (es : List Event) (g : μ → μ) (s : System μ) : System μ :=
  let design := eval s.pins (g s.design)
  { s with design := design, cycles := s.cycles ++ [⟨es, g, ⟨s.pins, tdo design⟩⟩] }

/-- An iteration in which the server is woken. -/
def tick (k : ℕ) (g : μ → μ) (s : System μ) : Option (System μ) :=
  (s.server.tick (s.answers k) (tdo s.design)).map fun r =>
    (deliver r.2 { s with server := r.1 }).evaluate eval tdo r.2 g

/-- Before the client connects. -/
def start (rxBuffer : Vector UInt8 100) (design : μ) : System μ :=
  ⟨Jtag.start rxBuffer, none, [], [], .offline, ⟨false, false, false⟩, design, [], [], []⟩

end System

/-- What the client does next: it connects, and makes any calls. -/
inductive ClientStep (s : System μ) : System μ → Prop where
  | connect (handle : ℕ) : s.phase = .offline → ClientStep s { s with phase := .idle, backlog := some handle }
  | sendLow (e : Edge) : s.phase = .idle → ClientStep s (s.send (lowVal e) (.low e))
  | sendHigh (e : Edge) : s.phase = .low e → ClientStep s (s.send (highVal e) (.high e))
  | recv (e : Edge) (r : UInt8) (rest : List UInt8) : s.phase = .high e → s.toClient = r :: rest →
      ClientStep s { s with phase := .idle, toClient := rest, done := s.done ++ [(e, r.toNat)] }

/-- Runs, in which the steps come in any order, with the number of ticks. -/
inductive Run (eval : Pins → μ → μ) (tdo : μ → Bool) (s : System μ) : ℕ → System μ → Prop where
  | refl : Run eval tdo s 0 s
  | client {n : ℕ} {t u : System μ} : Run eval tdo s n t → ClientStep t u → Run eval tdo s n u
  | tick {n : ℕ} {t u : System μ} (k : ℕ) (g : μ → μ) : Run eval tdo s n t → 0 < k →
      t.tick eval tdo k g = some u → Run eval tdo s (n + 1) u
  | other {n : ℕ} {t : System μ} (g : μ → μ) : Run eval tdo s n t → Run eval tdo s n (t.evaluate eval tdo [] g)

/-! ### What is observed -/

namespace System

/-- The bytes applied, -/
def applied (s : System μ) : List UInt8 := s.cycles.flatMap fun c => Sim.applied c.events

/-- those sent that are not, -/
def unapplied (s : System μ) : List UInt8 := s.server.pending ++ s.toServer

/-- the answers sent, -/
def replies (s : System μ) : List UInt8 := s.cycles.flatMap fun c => replied c.events

/-- what the model has shown, -/
def waveform (s : System μ) : List Sample := s.cycles.map Cycle.shown

/-- and the rising edges in it. -/
def rises (s : System μ) : List Rise := Stream.rises s.waveform

end System

/-- What a byte on the pins and the evaluation at the end of an iteration make of the pins and the model. -/
def Cycle.next (eval : Pins → μ → μ) (x : Pins × μ) (c : Cycle μ) : Pins × μ :=
  let pins := (Sim.applied c.events).foldl (fun _ => Pins.ofByte) x.1
  (pins, eval pins (c.others x.2))

/-- What is shown of the pins and the model. -/
def sampleOf (tdo : μ → Bool) (x : Pins × μ) : Sample := ⟨x.1, tdo x.2⟩

/-- **The iterations evaluate the model**, from the pins and the model `x₀` on. -/
structure Evaluated (eval : Pins → μ → μ) (tdo : μ → Bool) (x₀ : Pins × μ) (s : System μ) : Prop where
  /-- The pins and the model are what the iterations make of them, -/
  state : (s.pins, s.design) = s.cycles.foldl (Cycle.next eval) x₀
  /-- and each has shown what it has made of them. -/
  shown : ∀ before c after, s.cycles = before ++ c :: after →
    c.shown = sampleOf tdo ((before ++ [c]).foldl (Cycle.next eval) x₀)

/-- The pins in a call. -/
def pinsOf (e : Edge) (tck : Bool) : Pins := ⟨e.tms, e.tdi, tck⟩

/-- The rising edge is the call's, and its value the level before. -/
def Rise.Of (r : Rise) (d : Edge × ℕ) : Prop :=
  r.before.pins = pinsOf d.1 false ∧ r.pins = pinsOf d.1 true ∧ d.2 = r.before.tdo.toNat

/-! ### The bytes of a call -/

/-- The first byte of a call, -/
def lowByte (e : Edge) : UInt8 := UInt8.ofNat (lowVal e)

/-- and the second. -/
def highByte (e : Edge) : UInt8 := UInt8.ofNat (highVal e)

section

variable (e : Edge)

theorem encode_lowVal : encode (lowVal e) = [lowByte e] := by
  obtain ⟨tms, tdi⟩ := e
  cases tms <;> cases tdi <;> rfl

theorem encode_highVal : encode (highVal e) = [highByte e] := by
  obtain ⟨tms, tdi⟩ := e
  cases tms <;> cases tdi <;> rfl

theorem ofByte_lowByte : Pins.ofByte (lowByte e) = pinsOf e false := by
  obtain ⟨tms, tdi⟩ := e
  cases tms <;> cases tdi <;> rfl

theorem ofByte_highByte : Pins.ofByte (highByte e) = pinsOf e true := by
  obtain ⟨tms, tdi⟩ := e
  cases tms <;> cases tdi <;> rfl

/-- The second byte asks for TDO, and the first does not. -/
theorem asks_lowByte : asks (lowByte e) = false := by
  obtain ⟨tms, tdi⟩ := e
  cases tms <;> cases tdi <;> rfl

theorem asks_highByte : asks (highByte e) = true := by
  obtain ⟨tms, tdi⟩ := e
  cases tms <;> cases tdi <;> rfl

end

theorem answer_toNat (level : Bool) : (answer level).toNat = level.toNat := by cases level <;> rfl

/-! ### Rising edges at the end of a waveform -/

theorem rises_append_pair (w : List Sample) (x y : Sample) :
    rises (w ++ [x, y]) = rises (w ++ [x]) ++ rises [x, y] := by
  induction w with
  | nil => rfl
  | cons v w ih =>
    cases w with
    | nil =>
      simp only [List.cons_append, List.nil_append, rises]
      split_ifs <;> rfl
    | cons u w =>
      simp only [List.cons_append, rises] at ih ⊢
      rw [ih]
      split_ifs <;> rfl

/-- No edge, -/
theorem rises_concat_of_not {w : List Sample} {y : Sample}
    (h : ∀ x, w.getLast? = some x → ¬ (x.pins.tck = false ∧ y.pins.tck = true)) : rises (w ++ [y]) = rises w := by
  cases w using List.reverseRecOn with
  | nil => rfl
  | append_singleton w x =>
    have hx := h x List.getLast?_concat
    rw [List.append_assoc, List.singleton_append, rises_append_pair]
    simp [rises, hx]

/-- and an edge. -/
theorem rises_concat {w : List Sample} {x y : Sample} (hw : w.getLast? = some x) (hx : x.pins.tck = false)
    (hy : y.pins.tck = true) : rises (w ++ [y]) = rises w ++ [⟨x, y.pins⟩] := by
  obtain ⟨w, rfl⟩ := List.getLast?_eq_some_iff.mp hw
  rw [List.append_assoc, List.singleton_append, rises_append_pair]
  simp [rises, hx, hy]

/-! ### An iteration -/

variable {eval : Pins → μ → μ} {tdo : μ → Bool} {s s' : System μ}

/-- **What an iteration does**, in which the bytes `bs` are applied. -/
structure Iterates (tdo : μ → Bool) (s : System μ) (bs : List UInt8) (s' : System μ) : Prop where
  phase : s'.phase = s.phase
  sent : s'.sent = s.sent
  done : s'.done = s.done
  length : bs.length ≤ 1
  unapplied : s.unapplied = bs ++ s'.unapplied
  toClient : s'.toClient = s.toClient ++ (bs.filter asks).map fun _ => answer (tdo s.design)
  pins : s'.pins = bs.foldl (fun _ => Pins.ofByte) s.pins
  applied : s'.applied = s.applied ++ bs
  replies : s'.replies = s.replies ++ (bs.filter asks).map fun _ => answer (tdo s.design)
  waveform : s'.waveform = s.waveform ++ [⟨s'.pins, tdo s'.design⟩]

section

variable (es : List Event) (g : μ → μ)

theorem evaluate_applied : (s.evaluate eval tdo es g).applied = s.applied ++ applied es := by
  unfold System.applied System.evaluate
  rw [List.flatMap_append, List.flatMap_singleton]

theorem evaluate_replies : (s.evaluate eval tdo es g).replies = s.replies ++ replied es := by
  unfold System.replies System.evaluate
  rw [List.flatMap_append, List.flatMap_singleton]

theorem evaluate_waveform : (s.evaluate eval tdo es g).waveform =
    s.waveform ++ [⟨s.pins, tdo (s.evaluate eval tdo es g).design⟩] :=
  List.map_append

end

/-- One in which the server is not woken. -/
theorem iterates_other (eval : Pins → μ → μ) (tdo : μ → Bool) (s : System μ) (g : μ → μ) :
    Iterates tdo s [] (s.evaluate eval tdo [] g) where
  phase := rfl
  sent := rfl
  done := rfl
  length := Nat.zero_le 1
  unapplied := rfl
  toClient := (List.append_nil _).symm
  pins := rfl
  applied := evaluate_applied [] g
  replies := evaluate_replies [] g
  waveform := evaluate_waveform [] g

/-- What the server does in a tick, as a queue. -/
def System.turn (tdo : μ → Bool) (k : ℕ) (s : System μ) : Server × List Event :=
  s.server.server.tick (s.answers k) (tdo s.design)

/-- A tick finds its byte. -/
theorem tick_eq (eval : Pins → μ → μ) (tdo : μ → Bool) (h : s.server.Counts) (k : ℕ) (g : μ → μ) :
    ∃ j, j.Counts ∧ j.server = (s.turn tdo k).1 ∧ (0 ≤ s.server.rxBufferSize → 0 ≤ j.rxBufferSize) ∧
      s.tick eval tdo k g = some
        ((System.deliver (s.turn tdo k).2 { s with server := j }).evaluate eval tdo (s.turn tdo k).2 g) := by
  obtain ⟨j, hj, htick, hserver, hsize⟩ := h.tick_eq (s.answers k) (tdo s.design)
  refine ⟨j, hj, hserver, hsize (Option.some_ne_none _), ?_⟩
  rw [System.tick, htick]
  rfl

/-- A tick is the first part and one in which no call fails. -/
theorem turn_smooth (tdo : μ → Bool) (s : System μ) (k : ℕ) : ∃ es,
    (s.turn tdo k).2 = (s.server.checkNewConnections (s.answers k)).2 ++ es ∧
      Server.Smooth (s.server.checkNewConnections (s.answers k)).1 s.server.pending s.toServer.length
        (s.toServer.take (min k 100)) (s.turn tdo k).1 es :=
  s.server.server.tick_smooth (tdo s.design) s.backlog s.toServer.length
    ⟨s.toServer.take (min k 100), by rw [List.length_take]; omega⟩

/-- What it reads comes first. -/
theorem turn_received (tdo : μ → Bool) (s : System μ) (k : ℕ) : received (s.turn tdo k).2 <+: s.toServer := by
  obtain ⟨es, hes, hsmooth⟩ := turn_smooth tdo s k
  obtain ⟨hr, -, -⟩ := s.server.checkNewConnections_noBytes (s.answers k)
  rw [hes, received_append, hr, List.nil_append]
  rcases hsmooth.read with h | h
  · rw [h]
    exact List.nil_prefix
  · rw [h]
    exact List.take_prefix _ _

/-- It is an iteration. -/
theorem iterates_tick (eval : Pins → μ → μ) (k : ℕ) (g : μ → μ) {j : Jtag} (hj : j.server = (s.turn tdo k).1) :
    Iterates tdo s (applied (s.turn tdo k).2)
      ((System.deliver (s.turn tdo k).2 { s with server := j }).evaluate eval tdo (s.turn tdo k).2 g) := by
  obtain ⟨hqueue, hlen, hreplied⟩ := s.server.server.tick_conserves (s.answers k) (tdo s.design)
  have hstream := List.prefix_iff_eq_append.mp (turn_received tdo s k)
  have hpending : j.pending = (s.turn tdo k).1.pending := congrArg Server.pending hj
  have hasks : replied (s.turn tdo k).2 =
      ((applied (s.turn tdo k).2).filter asks).map fun _ => answer (tdo s.design) := by
    refine hreplied.trans ?_
    simp only [System.answers, Bool.and_true]
    rfl
  refine ⟨rfl, rfl, rfl, hlen, ?_, congrArg (s.toClient ++ ·) hasks, rfl, evaluate_applied _ g, ?_,
    evaluate_waveform _ g⟩
  · calc s.unapplied = s.server.pending ++ s.toServer := rfl
      _ = s.server.pending ++ (received (s.turn tdo k).2 ++ s.toServer.drop (received (s.turn tdo k).2).length) := by
        rw [hstream]
      _ = applied (s.turn tdo k).2 ++ (s.turn tdo k).1.pending ++
          s.toServer.drop (received (s.turn tdo k).2).length := by
        rw [← List.append_assoc]
        exact congrArg (· ++ _) hqueue
      _ = _ := by
        rw [List.append_assoc, ← hpending]
        rfl
  · rw [← hasks]
    exact evaluate_replies _ g

/-! ### How far a call is -/

/-- **How far the open call is**, by what of its two bytes is applied. The calls that have returned
are the rising edges so far. -/
inductive Stage (tdo : μ → Bool) (s : System μ) : Prop
  | idle : s.phase = .offline ∨ s.phase = .idle → s.unapplied = [] → s.toClient = [] →
      List.Forall₂ Rise.Of s.rises s.done → Stage tdo s
  /-- Nothing is applied yet. -/
  | begun (e : Edge) : s.phase = .low e ∧ s.unapplied = [lowByte e] ∨
        s.phase = .high e ∧ s.unapplied = [lowByte e, highByte e] →
      s.toClient = [] → List.Forall₂ Rise.Of s.rises s.done → Stage tdo s
  /-- The first byte is applied. -/
  | low (e : Edge) : s.phase = .low e ∧ s.unapplied = [] ∨ s.phase = .high e ∧ s.unapplied = [highByte e] →
      s.toClient = [] → List.Forall₂ Rise.Of s.rises s.done →
      s.waveform.getLast? = some ⟨pinsOf e false, tdo s.design⟩ → Stage tdo s
  /-- Both are, and the answer is on its way. -/
  | high (e : Edge) (level : Bool) (rs : List Rise) : s.phase = .high e → s.unapplied = [] →
      s.toClient = [answer level] → s.rises = rs ++ [⟨⟨pinsOf e false, level⟩, pinsOf e true⟩] →
      List.Forall₂ Rise.Of rs s.done → Stage tdo s

namespace Stage

/-- Outside of a call nothing is on its way. -/
theorem not_open (h : Stage tdo s) (hphase : s.phase = .offline ∨ s.phase = .idle) :
    s.unapplied = [] ∧ s.toClient = [] ∧ List.Forall₂ Rise.Of s.rises s.done := by
  cases h with
  | idle _ hu hc hd => exact ⟨hu, hc, hd⟩
  | begun e hp => rcases hphase with h | h <;> simp [h] at hp
  | low e hp => rcases hphase with h | h <;> simp [h] at hp
  | high e level rs hp => rcases hphase with h | h <;> simp [h] at hp

/-- With one byte sent, that is applied or it is not. -/
theorem of_low (h : Stage tdo s) {e : Edge} (hphase : s.phase = .low e) :
    s.toClient = [] ∧ List.Forall₂ Rise.Of s.rises s.done ∧ (s.unapplied = [lowByte e] ∨
      s.unapplied = [] ∧ s.waveform.getLast? = some ⟨pinsOf e false, tdo s.design⟩) := by
  cases h with
  | idle hp => simp [hphase] at hp
  | begun e' hp hc hd =>
    obtain ⟨rfl, hu⟩ : e = e' ∧ s.unapplied = [lowByte e'] := by simpa [hphase] using hp
    exact ⟨hc, hd, Or.inl hu⟩
  | low e' hp hc hd hlast =>
    obtain ⟨rfl, hu⟩ : e = e' ∧ s.unapplied = [] := by simpa [hphase] using hp
    exact ⟨hc, hd, Or.inr ⟨hu, hlast⟩⟩
  | high e' level rs hp => simp [hphase] at hp

/-- An answer is the level before the call's own edge. -/
theorem of_answer (h : Stage tdo s) {e : Edge} (hphase : s.phase = .high e) {r : UInt8} {rest : List UInt8}
    (hclient : s.toClient = r :: rest) : ∃ level rs, r = answer level ∧ rest = [] ∧ s.unapplied = [] ∧
      s.rises = rs ++ [⟨⟨pinsOf e false, level⟩, pinsOf e true⟩] ∧ List.Forall₂ Rise.Of rs s.done := by
  cases h with
  | idle hp => simp [hphase] at hp
  | begun e' _ hc => simp [hclient] at hc
  | low e' _ hc => simp [hclient] at hc
  | high e' level rs hp hu hc hr hd =>
    obtain rfl : e = e' := Phase.high.inj (hphase.symm.trans hp)
    obtain ⟨hfirst, hrest⟩ := List.cons.inj (hclient.symm.trans hc)
    exact ⟨level, rs, hfirst, hrest, hu, hr, hd⟩

end Stage

/-- What the model shows is what it showed last. -/
def Shown (tdo : μ → Bool) (s : System μ) : Prop :=
  ∀ x, s.waveform.getLast? = some x → x = ⟨s.pins, tdo s.design⟩

variable {bs : List UInt8}

theorem Iterates.shown (h : Iterates tdo s bs s') : s'.waveform.getLast? = some ⟨s'.pins, tdo s'.design⟩ := by
  rw [h.waveform, List.getLast?_concat]

/-- Without a second byte applied there is no edge. -/
theorem Iterates.rises_eq (h : Iterates tdo s bs s') (hs : Shown tdo s)
    (hpins : s'.pins = s.pins ∨ s'.pins.tck = false) : s'.rises = s.rises := by
  unfold System.rises
  rw [h.waveform]
  refine rises_concat_of_not fun x hx => ?_
  rintro ⟨hlow, hhigh⟩
  rw [hs x hx] at hlow
  rcases hpins with hp | hp
  · rw [hp, hlow] at hhigh
    exact Bool.false_ne_true hhigh
  · rw [hp] at hhigh
    exact Bool.false_ne_true hhigh

/-- An iteration in which no byte is applied. -/
theorem Stage.pass (h : Stage tdo s) (hs : Shown tdo s) (hi : Iterates tdo s [] s') : Stage tdo s' := by
  have hun : s'.unapplied = s.unapplied := hi.unapplied.symm
  have hclient : s'.toClient = s.toClient := hi.toClient.trans (List.append_nil _)
  have hrises : s'.rises = s.rises := hi.rises_eq hs (Or.inl hi.pins)
  cases h with
  | idle hphase hu hc hd =>
    refine .idle ?_ ?_ ?_ ?_
    · rwa [hi.phase]
    · rwa [hun]
    · rwa [hclient]
    · rwa [hrises, hi.done]
  | begun e hphase hc hd =>
    refine .begun e ?_ ?_ ?_
    · rwa [hi.phase, hun]
    · rwa [hclient]
    · rwa [hrises, hi.done]
  | low e hphase hc hd hlast =>
    refine .low e ?_ ?_ ?_ ?_
    · rwa [hi.phase, hun]
    · rwa [hclient]
    · rwa [hrises, hi.done]
    · have hpins : pinsOf e false = s.pins := congrArg Sample.pins (hs _ hlast)
      rw [hi.shown, hpins, hi.pins]
      rfl
  | high e level rs hphase hu hc hr hd =>
    refine .high e level rs ?_ ?_ ?_ ?_ ?_
    · rwa [hi.phase]
    · rwa [hun]
    · rwa [hclient]
    · rwa [hrises]
    · rwa [hi.done]

/-- One in which a byte is: the call goes on by one stage. -/
theorem Stage.step {b : UInt8} (h : Stage tdo s) (hs : Shown tdo s) (hi : Iterates tdo s [b] s') : Stage tdo s' ∧
    ∃ rs, s'.rises = s.rises ++ rs ∧
      (rs.map fun r => answer r.before.tdo) = ([b].filter asks).map fun _ => answer (tdo s.design) := by
  have hpins : s'.pins = Pins.ofByte b := hi.pins
  have hun : s.unapplied = b :: s'.unapplied := hi.unapplied
  cases h with
  | idle hphase hu => simp [hu] at hun
  | begun e hphase hc hd =>
    obtain ⟨rfl, hphase'⟩ : b = lowByte e ∧
        (s'.phase = .low e ∧ s'.unapplied = [] ∨ s'.phase = .high e ∧ s'.unapplied = [highByte e]) := by
      rw [hi.phase]
      rcases hphase with ⟨hp, hu⟩ | ⟨hp, hu⟩
      · obtain ⟨hb, hrest⟩ := List.cons.inj (hun.symm.trans hu)
        exact ⟨hb, Or.inl ⟨hp, hrest⟩⟩
      · obtain ⟨hb, hrest⟩ := List.cons.inj (hun.symm.trans hu)
        exact ⟨hb, Or.inr ⟨hp, hrest⟩⟩
    rw [ofByte_lowByte] at hpins
    have hrises : s'.rises = s.rises := hi.rises_eq hs (Or.inr (by rw [hpins]; rfl))
    refine ⟨.low e hphase' ?_ ?_ ?_, [], ?_, ?_⟩
    · rw [hi.toClient, hc]
      simp [asks_lowByte]
    · rwa [hrises, hi.done]
    · rw [hi.shown, hpins]
    · rw [hrises, List.append_nil]
    · simp [asks_lowByte]
  | low e hphase hc hd hlast =>
    obtain ⟨hp, hu⟩ := hphase.resolve_left fun hp => by simp [hp.2] at hun
    obtain ⟨rfl, hrest⟩ := List.cons.inj (hun.symm.trans hu)
    rw [ofByte_highByte] at hpins
    have hrises : s'.rises = s.rises ++ [⟨⟨pinsOf e false, tdo s.design⟩, pinsOf e true⟩] := by
      unfold System.rises
      rw [hi.waveform, rises_concat hlast rfl (by rw [hpins]; rfl), hpins]
    refine ⟨.high e (tdo s.design) s.rises ?_ hrest ?_ hrises ?_, _, hrises, ?_⟩
    · rw [hi.phase, hp]
    · rw [hi.toClient, hc]
      simp [asks_highByte]
    · rwa [hi.done]
    · simp [asks_highByte]
  | high e level rs hphase hu => simp [hu] at hun

/-! ### Every run -/

/-- The client is offline, waits to be accepted, or is. -/
def Linked (clientHandle backlog : Option ℕ) (phase : Phase) : Prop :=
  clientHandle = none ∧ (backlog = none ↔ phase = .offline) ∨
    clientHandle ≠ none ∧ backlog = none ∧ phase ≠ .offline

/-- **What holds in every state.** -/
structure Inv (tdo : μ → Bool) (s : System μ) : Prop where
  counts : s.server.Counts
  size : 0 ≤ s.server.rxBufferSize
  timer : s.server.checkNewConnectionsTimer < 5000
  link : Linked s.server.clientHandle s.backlog s.phase
  bytes : s.sent = s.applied ++ s.unapplied
  shown : Shown tdo s
  stage : Stage tdo s
  replies : s.replies = s.rises.map fun r => answer r.before.tdo
  calm : ∀ c ∈ s.cycles, (applied c.events).length ≤ 1 ∧ shutdowns c.events = []

theorem Inv.start (rxBuffer : Vector UInt8 100) (design : μ) : Inv tdo (System.start rxBuffer design) where
  counts := Jtag.start_counts rxBuffer
  size := Int.le_refl 0
  timer := Nat.zero_lt_succ _
  link := Or.inl ⟨rfl, Iff.intro (fun _ => rfl) fun _ => rfl⟩
  bytes := rfl
  shown _ hx := absurd hx (by simp [System.waveform, System.start])
  stage := .idle (Or.inl rfl) rfl rfl .nil
  replies := rfl
  calm _ hc := absurd hc List.not_mem_nil

theorem send_unapplied (val : ℕ) (phase : Phase) : (s.send val phase).unapplied = s.unapplied ++ encode val :=
  (List.append_assoc _ _ _).symm

theorem Linked.online {clientHandle backlog : Option ℕ} {phase phase' : Phase}
    (h : Linked clientHandle backlog phase) (hp : phase ≠ .offline) (hp' : phase' ≠ .offline) :
    Linked clientHandle backlog phase' := by
  rcases h with ⟨hserver, hb⟩ | ⟨hserver, hb, -⟩
  · exact Or.inl ⟨hserver, fun h0 => absurd (hb.mp h0) hp, fun h0 => absurd h0 hp'⟩
  · exact Or.inr ⟨hserver, hb, hp'⟩

/-- What the client sends is on its way. -/
theorem Inv.send (h : Inv tdo s) (hs : s.phase ≠ .offline) {val : ℕ} {phase : Phase} (hphase : phase ≠ .offline)
    (hstage : Stage tdo (s.send val phase)) : Inv tdo (s.send val phase) := by
  refine ⟨h.counts, h.size, h.timer, h.link.online hs hphase, ?_, h.shown, hstage, h.replies, h.calm⟩
  rw [send_unapplied, ← List.append_assoc]
  exact congrArg (· ++ encode val) h.bytes

/-- The client's turn. -/
theorem Inv.client (h : Inv tdo s) (hstep : ClientStep s s') : Inv tdo s' := by
  cases hstep with
  | connect handle hphase =>
    obtain ⟨hu, hc, hd⟩ := h.stage.not_open (Or.inl hphase)
    refine ⟨h.counts, h.size, h.timer, ?_, h.bytes, h.shown, .idle (Or.inr rfl) hu hc hd, h.replies, h.calm⟩
    rcases h.link with ⟨hserver, -⟩ | ⟨-, -, hne⟩
    · exact Or.inl ⟨hserver, by simp⟩
    · exact absurd hphase hne
  | sendLow e hphase =>
    obtain ⟨hu, hc, hd⟩ := h.stage.not_open (Or.inr hphase)
    refine h.send (by simp [hphase]) Phase.noConfusion (.begun e (Or.inl ⟨rfl, ?_⟩) hc hd)
    rw [send_unapplied, hu, encode_lowVal, List.nil_append]
  | sendHigh e hphase =>
    obtain ⟨hc, hd, hu | ⟨hu, hlast⟩⟩ := h.stage.of_low hphase
    · refine h.send (by simp [hphase]) Phase.noConfusion (.begun e (Or.inr ⟨rfl, ?_⟩) hc hd)
      rw [send_unapplied, hu, encode_highVal, List.singleton_append]
    · refine h.send (by simp [hphase]) Phase.noConfusion (.low e (Or.inr ⟨rfl, ?_⟩) hc hd hlast)
      rw [send_unapplied, hu, encode_highVal, List.nil_append]
  | recv e r rest hphase hclient =>
    obtain ⟨level, rs, rfl, rfl, hu, hr, hd⟩ := h.stage.of_answer hphase hclient
    refine ⟨h.counts, h.size, h.timer, h.link.online (by simp [hphase]) Phase.noConfusion, h.bytes, h.shown,
      .idle (Or.inr rfl) hu rfl ?_, h.replies, h.calm⟩
    change List.Forall₂ Rise.Of s.rises _
    rw [hr]
    exact List.rel_append hd (.cons ⟨rfl, rfl, answer_toNat level⟩ .nil)

/-- The rest of an iteration. -/
theorem Inv.iterate (h : Inv tdo s) {bs : List UInt8} (hi : Iterates tdo s bs s') :
    s'.sent = s'.applied ++ s'.unapplied ∧ Shown tdo s' ∧ Stage tdo s' ∧
      s'.replies = s'.rises.map fun r => answer r.before.tdo := by
  refine ⟨?_, ?_, ?_⟩
  · rw [hi.sent, hi.applied, h.bytes, hi.unapplied, List.append_assoc]
  · intro x hx
    exact Option.some.inj (hx.symm.trans hi.shown)
  · match bs, hi.length with
    | [], _ =>
      refine ⟨h.stage.pass h.shown hi, ?_⟩
      rw [hi.rises_eq h.shown (Or.inl hi.pins), hi.replies, ← h.replies]
      exact List.append_nil _
    | [b], _ =>
      obtain ⟨hstage, rs, hrises, hanswers⟩ := h.stage.step h.shown hi
      refine ⟨hstage, ?_⟩
      rw [hrises, List.map_append, hanswers, hi.replies, h.replies]

/-- An iteration in which the server is not woken. -/
theorem Inv.other (h : Inv tdo s) (g : μ → μ) : Inv tdo (s.evaluate eval tdo [] g) := by
  obtain ⟨hbytes, hshown, hstage, hreplies⟩ := h.iterate (iterates_other eval tdo s g)
  refine ⟨h.counts, h.size, h.timer, h.link, hbytes, hshown, hstage, hreplies, ?_⟩
  intro c hc
  rcases List.mem_append.mp hc with hc | hc
  · exact h.calm c hc
  · rw [List.mem_singleton.mp hc]
    exact ⟨Nat.zero_le 1, rfl⟩

/-- The client that is connected is accepted, and stays. -/
theorem Linked.turn (h : Linked s.server.clientHandle s.backlog s.phase) (tdo : μ → Bool) (k : ℕ) :
    shutdowns (s.turn tdo k).2 = [] ∧ Linked (s.turn tdo k).1.clientHandle
      (if accepted (s.turn tdo k).2 = [] then s.backlog else none) s.phase := by
  obtain ⟨es, hes, hsmooth⟩ := turn_smooth tdo s k
  rw [hes, shutdowns_append, accepted_append, hsmooth.steady.1, hsmooth.steady.2, hsmooth.client, List.append_nil,
    List.append_nil]
  rcases h with ⟨hserver, hb⟩ | ⟨hserver, hb, hphase⟩
  · by_cases hdue : s.server.Due
    · cases hacc : s.backlog with
      | none =>
        rw [Connection.checkNewConnections_refused hdue hacc]
        exact ⟨rfl, Or.inl ⟨hserver, by simpa [hacc] using hb⟩⟩
      | some handle =>
        rw [Connection.checkNewConnections_accept hdue hacc, hserver]
        exact ⟨rfl, Or.inr ⟨Option.some_ne_none _, rfl, fun h0 => by simp [hacc] at hb; exact hb h0⟩⟩
    · rw [Connection.checkNewConnections_wait hdue]
      exact ⟨rfl, Or.inl ⟨hserver, hb⟩⟩
  · by_cases hdue : s.server.Due
    · rw [Connection.checkNewConnections_refused hdue hb]
      exact ⟨rfl, Or.inr ⟨hserver, hb, hphase⟩⟩
    · rw [Connection.checkNewConnections_wait hdue]
      exact ⟨rfl, Or.inr ⟨hserver, hb, hphase⟩⟩

/-- **A tick** never fails. -/
theorem Inv.tick (h : Inv tdo s) (eval : Pins → μ → μ) (k : ℕ) (g : μ → μ) : ∃ s',
    s.tick eval tdo k g = some s' ∧ Inv tdo s' ∧ s'.sent = s.sent ∧
      s'.applied = s.applied ++ applied (s.turn tdo k).2 ∧ s'.server.server = (s.turn tdo k).1 := by
  obtain ⟨j, hj, hserver, hsize, htick⟩ := tick_eq eval tdo h.counts k g
  have hi := iterates_tick eval k g hserver
  obtain ⟨hbytes, hshown, hstage, hreplies⟩ := h.iterate hi
  obtain ⟨hshut, hlink⟩ := h.link.turn tdo k
  refine ⟨_, htick, ⟨hj, hsize h.size, ?_, ?_, hbytes, hshown, hstage, hreplies, ?_⟩, rfl, hi.applied, hserver⟩
  · obtain ⟨es, -, hsmooth⟩ := turn_smooth tdo s k
    have htimer : j.checkNewConnectionsTimer = (s.turn tdo k).1.checkNewConnectionsTimer :=
      congrArg (·.checkNewConnectionsTimer) hserver
    change j.checkNewConnectionsTimer < 5000
    rw [htimer, hsmooth.timer]
    exact Connection.checkNewConnections_timer h.timer _
  · have hclient : j.clientHandle = (s.turn tdo k).1.clientHandle := congrArg (·.clientHandle) hserver
    rw [← hclient] at hlink
    exact hlink
  · intro c hc
    rcases List.mem_append.mp hc with hc | hc
    · exact h.calm c hc
    · rw [List.mem_singleton.mp hc]
      exact ⟨hi.length, hshut⟩

theorem Run.inv {n : ℕ} (h : Run eval tdo s n s') (hs : Inv tdo s) : Inv tdo s' := by
  induction h with
  | refl => exact hs
  | client _ hstep ih => exact ih.client hstep
  | tick k g _ _ htick ih =>
    obtain ⟨u, hu, hinv, -⟩ := ih.tick eval k g
    obtain rfl := Option.some.inj (htick.symm.trans hu)
    exact hinv
  | other g _ ih => exact ih.other g

/-! ### The model -/

variable {x₀ : Pins × μ}

/-- An iteration, whoever is woken. -/
theorem Evaluated.concat (h : Evaluated eval tdo x₀ s) {c : Cycle μ} (hcycles : s'.cycles = s.cycles ++ [c])
    (hstate : (s'.pins, s'.design) = c.next eval (s.pins, s.design)) (hshown : c.shown = ⟨s'.pins, tdo s'.design⟩) :
    Evaluated eval tdo x₀ s' := by
  have hfold : (s'.pins, s'.design) = s'.cycles.foldl (Cycle.next eval) x₀ := by
    rw [hcycles, List.foldl_append, ← h.state]
    exact hstate
  refine ⟨hfold, fun before d after hsplit => ?_⟩
  cases after using List.reverseRecOn with
  | nil =>
    -- the iteration itself
    obtain ⟨-, hlast⟩ := List.append_inj' (hcycles.symm.trans hsplit) rfl
    obtain rfl : c = d := (List.cons.inj hlast).1
    rw [← hsplit, ← hfold]
    exact hshown
  | append_singleton after y =>
    rw [← List.cons_append, ← List.append_assoc] at hsplit
    exact h.shown before d after (List.append_inj' (hcycles.symm.trans hsplit) rfl).1

/-- The client does not touch it. -/
theorem Evaluated.client (h : Evaluated eval tdo x₀ s) (hstep : ClientStep s s') : Evaluated eval tdo x₀ s' := by
  cases hstep with
  | connect => exact ⟨h.state, h.shown⟩
  | sendLow => exact ⟨h.state, h.shown⟩
  | sendHigh => exact ⟨h.state, h.shown⟩
  | recv => exact ⟨h.state, h.shown⟩

theorem Run.evaluated {n : ℕ} (h : Run eval tdo s n s') (hs : Evaluated eval tdo x₀ s) : Evaluated eval tdo x₀ s' := by
  induction h with
  | refl => exact hs
  | client _ hstep ih => exact ih.client hstep
  | tick k g _ _ htick ih =>
    obtain ⟨r, -, rfl⟩ := Option.map_eq_some_iff.mp htick
    exact ih.concat rfl rfl rfl
  | other g _ ih => exact ih.concat rfl rfl rfl

theorem Evaluated.start (eval : Pins → μ → μ) (tdo : μ → Bool) (rxBuffer : Vector UInt8 100) (design : μ) :
    Evaluated eval tdo (⟨false, false, false⟩, design) (System.start rxBuffer design) where
  state := rfl
  shown before c after h := by cases before <;> cases h

/-! ### Nothing waits forever -/

/-- The ticks until `p` bytes are applied. -/
def System.distance (p : ℕ) (s : System μ) : ℕ := (p - s.applied.length) + s.server.wait

/-- Each tick comes nearer. -/
theorem Inv.tick_distance (h : Inv tdo s) {k : ℕ} (hk : 0 < k) {p : ℕ} (hp : p ≤ s.sent.length)
    (hlt : s.applied.length < p) (happlied : s'.applied = s.applied ++ applied (s.turn tdo k).2)
    (hserver : s'.server.server = (s.turn tdo k).1) : s'.distance p + 1 ≤ s.distance p := by
  have hwait : s'.server.wait = (s.turn tdo k).1.wait := congrArg (·.wait) hserver
  have hun : s.unapplied ≠ [] := by
    intro hun
    rw [h.bytes, hun, List.append_nil] at hp
    omega
  have hoffline : s.phase ≠ .offline := fun hphase => hun (h.stage.not_open (Or.inl hphase)).1
  have hacc : s.server.clientHandle = none → (s.answers k).accept ≠ none := by
    intro hc
    rcases h.link with ⟨-, hb⟩ | ⟨hne, -⟩
    · exact fun h0 => hoffline (hb.mp h0)
    · exact absurd hc hne
  obtain ⟨hle, hnone⟩ := Connection.wait_checkNewConnections h.timer hacc
  obtain ⟨es, hes, hsmooth⟩ := turn_smooth tdo s k
  obtain ⟨-, ha, -⟩ := s.server.checkNewConnections_noBytes (s.answers k)
  -- but for what is left to sleep, the server waits as the first part leaves it
  have hsame : (s.turn tdo k).1.wait + (s.server.checkNewConnections (s.answers k)).1.selfSleep =
      (s.server.checkNewConnections (s.answers k)).1.wait + (s.turn tdo k).1.selfSleep := by
    unfold Connection.wait
    rw [hsmooth.client, hsmooth.timer]
    omega
  have hlen : s'.applied.length = s.applied.length + (applied es).length := by
    rw [happlied, List.length_append, hes, applied_append, ha, List.nil_append]
  unfold System.distance
  rw [hwait, hlen]
  rcases hsmooth.busy with hsleep | ⟨hc, hsleep⟩ | ⟨hsleep, hne⟩ | ⟨hpending, hempty⟩
  · omega
  · have := hnone hc
    omega
  · have := List.length_pos_iff.mpr hne
    omega
  · -- there is something to be read
    refine absurd ?_ hun
    have hstream : s.toServer = [] := by
      rcases hempty with hlt | htake
      · exact List.length_eq_zero_iff.mp (by omega)
      · exact (List.take_eq_nil_iff.mp htake).resolve_left (by omega)
    rw [System.unapplied, hpending, hstream, List.append_nil]

/-- Over a run. -/
theorem Run.distance {n : ℕ} (h : Run eval tdo s n s') (hs : Inv tdo s) : s.sent <+: s'.sent ∧
    (s.sent.length ≤ s'.applied.length ∨ s'.distance s.sent.length + n ≤ s.distance s.sent.length) := by
  induction h with
  | refl => exact ⟨List.prefix_rfl, Or.inr (Nat.le_refl _)⟩
  | @client n t u _ hstep ih =>
    have hkeep : t.sent <+: u.sent ∧ u.applied = t.applied ∧ u.server = t.server := by
      cases hstep with
      | connect => exact ⟨List.prefix_rfl, rfl, rfl⟩
      | sendLow => exact ⟨List.prefix_append _ _, rfl, rfl⟩
      | sendHigh => exact ⟨List.prefix_append _ _, rfl, rfl⟩
      | recv => exact ⟨List.prefix_rfl, rfl, rfl⟩
    obtain ⟨hsent, happlied, hserver⟩ := hkeep
    refine ⟨ih.1.trans hsent, ?_⟩
    rw [System.distance, happlied, hserver]
    exact ih.2
  | @tick n t u k g hrun hk htick ih =>
    obtain ⟨v, hv, -, hsent, happlied, hserver⟩ := (hrun.inv hs).tick eval k g
    obtain rfl := Option.some.inj (htick.symm.trans hv)
    have hgrows : t.applied.length ≤ u.applied.length := by
      rw [happlied, List.length_append]
      exact Nat.le_add_right _ _
    rw [hsent]
    refine ⟨ih.1, ?_⟩
    by_cases hlt : t.applied.length < s.sent.length
    · have hnear := (hrun.inv hs).tick_distance hk ih.1.length_le hlt happlied hserver
      exact Or.inr (by omega)
    · exact Or.inl (Nat.le_trans (Nat.le_of_not_lt hlt) hgrows)
  | other g _ ih =>
    refine ⟨ih.1, ?_⟩
    rw [System.distance, evaluate_applied, show applied [] = [] from rfl, List.append_nil]
    exact ih.2

/-- **What is sent is applied**, after so many ticks. -/
theorem Run.applied {n : ℕ} (h : Run eval tdo s n s') (hs : Inv tdo s) (hn : s.distance s.sent.length < n) :
    s.sent <+: s'.applied := by
  obtain ⟨hsent, hlen⟩ := h.distance hs
  have hbytes := (h.inv hs).bytes
  have happlied : s'.applied <+: s'.sent := ⟨s'.unapplied, hbytes.symm⟩
  exact List.prefix_of_prefix_length_le hsent happlied (by omega)

/-! ### The calls -/

/-- **The protocol**, in a state of a run that has begun with the model in the state `design`. -/
structure Answered (eval : Pins → μ → μ) (tdo : μ → Bool) (design : μ) (s : System μ) : Prop where
  /-- The bytes sent are applied once each and in order, but for those on the way, -/
  bytes : s.sent = s.applied ++ s.unapplied
  /-- in an iteration at most one, while nobody is shut down, -/
  calm : ∀ c ∈ s.cycles, (applied c.events).length ≤ 1 ∧ shutdowns c.events = []
  /-- with the model evaluated, and its TDO shown, at the end of each iteration, -/
  evaluated : Evaluated eval tdo (⟨false, false, false⟩, design) s
  /-- and after so many ticks those are applied too. -/
  ticks : ∃ m, ∀ n u, Run eval tdo s n u → m ≤ n → s.sent <+: u.applied
  /-- Each call has one rising edge, and its value is the level right before; the open one may
  have had its edge, with the answer on its way. -/
  calls : ∃ rs more, s.rises = rs ++ more ∧ List.Forall₂ Rise.Of rs s.done ∧
    (more = [] ∧ s.toClient = [] ∨ ∃ e level, s.phase = .high e ∧ s.toClient = [answer level] ∧
      more = [⟨⟨pinsOf e false, level⟩, pinsOf e true⟩])
  /-- Each edge has one answer, -/
  replies : s.replies = s.rises.map fun r => answer r.before.tdo
  /-- and once the bytes of a call are applied it is there. -/
  returns : ∀ e, s.phase = .high e → s.unapplied = [] → s.toClient ≠ []
  /-- The counters of the buffer, -/
  counters : 0 ≤ s.server.rxBufferRemaining ∧ s.server.rxBufferRemaining ≤ s.server.rxBufferSize ∧
    s.server.rxBufferSize ≤ 100
  /-- and the index. -/
  index : ∀ k g, ∃ u, s.tick eval tdo k g = some u

/-- Once the bytes of a call are applied its answer is there. -/
theorem Inv.returns (h : Inv tdo s) {e : Edge} (hphase : s.phase = .high e) (hu : s.unapplied = []) :
    s.toClient ≠ [] := by
  cases h.stage with
  | idle hp => simp [hphase] at hp
  | begun e' hp => simp [hphase, hu] at hp
  | low e' hp => simp [hphase, hu] at hp
  | high e' level rs _ _ hc => simp [hc]

theorem Inv.answered (h : Inv tdo s) {design : μ} (he : Evaluated eval tdo (⟨false, false, false⟩, design) s) :
    Answered eval tdo design s where
  bytes := h.bytes
  calm := h.calm
  evaluated := he
  ticks := ⟨s.distance s.sent.length + 1, fun _ _ hrun hn => hrun.applied h hn⟩
  calls := by
    cases h.stage with
    | idle _ _ hc hd => exact ⟨s.rises, [], (List.append_nil _).symm, hd, Or.inl ⟨rfl, hc⟩⟩
    | begun e _ hc hd => exact ⟨s.rises, [], (List.append_nil _).symm, hd, Or.inl ⟨rfl, hc⟩⟩
    | low e _ hc hd => exact ⟨s.rises, [], (List.append_nil _).symm, hd, Or.inl ⟨rfl, hc⟩⟩
    | high e level rs hp _ hc hr hd => exact ⟨rs, _, hr, hd, Or.inr ⟨e, level, hp, hc, rfl⟩⟩
  replies := h.replies
  returns e hphase hu := h.returns hphase hu
  counters := by
    refine ⟨h.counts.nonneg, ?_, h.counts.size⟩
    by_cases hr : s.server.rxBufferRemaining = 0
    · rw [hr]
      exact h.size
    · exact h.counts.le hr
  index k g := by
    obtain ⟨u, hu, -⟩ := h.tick eval k g
    exact ⟨u, hu⟩

/-- Of an edge, the level before is one that has been shown. -/
theorem mem_of_mem_rises {w : List Sample} {r : Rise} (h : r ∈ rises w) : r.before ∈ w := by
  induction w with
  | nil => cases h
  | cons x w ih =>
    cases w with
    | nil => cases h
    | cons y w =>
      rw [rises] at h
      split_ifs at h
      · rcases List.mem_cons.mp h with rfl | h
        · exact List.mem_cons_self
        · exact List.mem_cons_of_mem _ (ih h)
      · exact List.mem_cons_of_mem _ (ih h)

/-- What is shown is the TDO of the model, evaluated with the pins that are shown. -/
theorem Evaluated.of_mem_waveform (h : Evaluated eval tdo x₀ s) {x : Sample} (hx : x ∈ s.waveform) :
    ∃ design, x.tdo = tdo (eval x.pins design) := by
  obtain ⟨c, hc, rfl⟩ := List.mem_map.mp hx
  obtain ⟨before, after, hsplit⟩ := List.append_of_mem hc
  have hshown := h.shown before c after hsplit
  rw [List.foldl_append, List.foldl_cons, List.foldl_nil] at hshown
  exact ⟨_, by rw [hshown]; rfl⟩

theorem Run.trans {n m : ℕ} {u : System μ} (h : Run eval tdo s n s') (h' : Run eval tdo s' m u) :
    Run eval tdo s (n + m) u := by
  induction h' with
  | refl => exact h
  | client _ hstep ih => exact ih.client hstep
  | tick k g _ hk htick ih => exact ih.tick k g hk htick
  | other g _ ih => exact ih.other g

/-- There can always be so many ticks more, and they leave the client alone. -/
theorem Inv.exists_ticks (h : Inv tdo s) (eval : Pins → μ → μ) (m : ℕ) :
    ∃ u, Run eval tdo s m u ∧ Inv tdo u ∧ u.phase = s.phase ∧ u.done = s.done ∧ u.sent = s.sent := by
  induction m with
  | zero => exact ⟨s, .refl, h, rfl, rfl, rfl⟩
  | succ m ih =>
    obtain ⟨u, hrun, hu, hphase, hdone, hsent⟩ := ih
    obtain ⟨v, htick, hv, -⟩ := hu.tick eval 1 id
    obtain ⟨r, -, rfl⟩ := Option.map_eq_some_iff.mp htick
    exact ⟨_, hrun.tick 1 id Nat.one_pos htick, hv, hphase, hdone, hsent⟩

/-- **Every call returns** if the server is woken often enough, -/
theorem Inv.exists_call (h : Inv tdo s) (eval : Pins → μ → μ) (hphase : s.phase = .idle) (e : Edge) :
    ∃ n u v, Run eval tdo s n u ∧ u.phase = .idle ∧ u.done = s.done ++ [(e, v)] := by
  have hsend : Run eval tdo s 0 ((s.send (lowVal e) (.low e)).send (highVal e) (.high e)) :=
    .client (.client .refl (.sendLow e hphase)) (.sendHigh e rfl)
  have hsent := hsend.inv h
  obtain ⟨u, hrun, hu, huphase, hudone, husent⟩ := hsent.exists_ticks eval (System.distance _ _ + 1)
  -- after so many ticks both bytes are applied
  have happlied := hrun.applied hsent (Nat.lt_succ_self _)
  rw [← husent, hu.bytes] at happlied
  have hempty : u.unapplied = [] := by
    have hle := happlied.length_le
    rw [List.length_append] at hle
    exact List.length_eq_zero_iff.mp (by omega)
  obtain ⟨r, rest, hr⟩ := List.exists_cons_of_ne_nil (hu.returns huphase hempty)
  exact ⟨_, _, r.toNat, hsend.trans (hrun.client (.recv e r rest huphase hr)), rfl, by rw [hudone]; rfl⟩

/-- and any calls can be made one after the other. -/
theorem exists_calls (eval : Pins → μ → μ) (tdo : μ → Bool) (rxBuffer : Vector UInt8 100) (design : μ)
    (es : List Edge) : ∃ n s, Run eval tdo (System.start rxBuffer design) n s ∧ s.phase = .idle ∧
      s.done.map Prod.fst = es := by
  induction es using List.reverseRecOn with
  | nil => exact ⟨0, _, .client .refl (.connect 3 rfl), rfl, rfl⟩
  | append_singleton es e ih =>
    obtain ⟨n, s, hrun, hphase, hdone⟩ := ih
    obtain ⟨m, u, v, hcall, huphase, hudone⟩ := (hrun.inv (Inv.start rxBuffer design)).exists_call eval hphase e
    refine ⟨n + m, u, hrun.trans hcall, huphase, ?_⟩
    rw [hudone, List.map_append, hdone, List.map_singleton]

/-- Where the TDO of a model that is evaluated is a matter of the pins, each call returns what it is
at the pins of its first byte. -/
theorem Answered.done_eq_out {design : μ} (h : Answered eval tdo design s) {out : Pins → Bool}
    (hout : ∀ pins m, tdo (eval pins m) = out pins) :
    s.done = (s.done.map Prod.fst).map fun e => (e, (out (pinsOf e false)).toNat) := by
  obtain ⟨rs, more, hrises, hcalls, -⟩ := h.calls
  have hbefore (r : Rise) (hr : r ∈ rs) : r.before.tdo = out r.before.pins := by
    have hmem : r ∈ s.rises := by
      rw [hrises]
      exact List.mem_append_left _ hr
    obtain ⟨m, hm⟩ := h.evaluated.of_mem_waveform (mem_of_mem_rises hmem)
    rw [hm, hout]
  generalize s.done = ds at *
  clear hrises
  induction hcalls with
  | nil => rfl
  | @cons r d rs ds hr _ ih =>
    obtain ⟨hpins, -, hvalue⟩ := hr
    rw [List.map_cons, List.map_cons, ← ih fun r' hr' => hbefore r' (List.mem_cons_of_mem _ hr'), ← hpins,
      ← hbefore r List.mem_cons_self, ← hvalue]

/-- **Each call is answered for its own edge**, whatever the order of the steps. -/
theorem calls_answered (eval : Pins → μ → μ) (tdo : μ → Bool) (rxBuffer : Vector UInt8 100) (design : μ) {n : ℕ}
    (h : Run eval tdo (System.start rxBuffer design) n s) : Answered eval tdo design s :=
  (h.inv (Inv.start rxBuffer design)).answered (h.evaluated (.start eval tdo rxBuffer design))

/-- Two calls that return, where TDO is TDI once the model is evaluated. -/
theorem calls_answered_two : ∃ n s, Run (fun pins _ => pins.tdi) id
      (System.start (Vector.replicate 100 0) false) n s ∧
    s.done = [(⟨true, false⟩, 0), (⟨false, true⟩, 1)] ∧ Answered (fun pins _ => pins.tdi) id false s := by
  obtain ⟨n, s, hrun, -, hcalls⟩ := exists_calls (fun pins _ => pins.tdi) id (Vector.replicate 100 0) false
    [⟨true, false⟩, ⟨false, true⟩]
  have hanswered := calls_answered (fun pins _ => pins.tdi) id (Vector.replicate 100 0) false hrun
  refine ⟨n, s, hrun, ?_, hanswered⟩
  have hout : s.done = (s.done.map Prod.fst).map fun e => (e, (Pins.tdi (pinsOf e false)).toNat) :=
    hanswered.done_eq_out fun _ _ => rfl
  rw [hout, hcalls]
  rfl

/-- The edge as the target's port sees it. -/
def Rise.edge (r : Rise) : Edge := ⟨r.pins.tms, r.pins.tdi⟩

/-- Where the level that the model shows before an edge is that after the edges before it, the calls
return what the controller of `Jtag.Sim` returns on a clock line. -/
theorem Answered.done_eq_sample {design : μ} (h : Answered eval tdo design s) {level : History → Bool}
    (hlevel : ∀ rs r more, s.rises = rs ++ r :: more → r.before.tdo = level (rs.map Rise.edge)) :
    s.done.map Prod.snd = (sample level [] (s.done.map Prod.fst)).map Bool.toNat := by
  obtain ⟨rs, more, hrises, hcalls, -⟩ := h.calls
  suffices hfrom : ∀ pre, s.rises = pre ++ rs ++ more →
      s.done.map Prod.snd = (sample level (pre.map Rise.edge) (s.done.map Prod.fst)).map Bool.toNat from hfrom [] hrises
  generalize s.done = ds at *
  clear hrises
  induction hcalls with
  | nil => exact fun _ _ => rfl
  | @cons r d rs ds hr _ ih =>
    intro pre hpre
    obtain ⟨-, hpins, hvalue⟩ := hr
    have hedge : r.edge = d.1 := by rw [Rise.edge, hpins]; rfl
    have hnext := ih (pre ++ [r]) (by rw [hpre]; simp)
    have hbefore := hlevel pre r (rs ++ more) (by rw [hpre]; simp)
    rw [List.map_append, List.map_singleton, hedge] at hnext
    rw [List.map_cons, List.map_cons, sample_cons, List.map_cons, hnext, hvalue, hbefore]

end PyOcdRiscv.Sim.Stream
