import PyOcdRiscv.Sim.Workspace
import Mathlib.Tactic.Linarith
import Mathlib.Tactic.Ring

/-!
# The simulator's UART

`UartTx` and `UartRx` of `uart.h` on one line, woken by the simulator's loop. The receiver
looks for a start bit every `R / 4`, so it sees one no later than that after it has begun, and
takes its samples `R / 4` further on: that is in the first half of each bit. `Inv` says this
of every moment. In `frame` the transmitter is in cell `c` of a frame and the receiver waits
for its sample of cell `k + 1`, which lies `m` cells ahead; what is left to wait for the two
says that the sample is neither early nor late.
-/

namespace PyOcdRiscv.Sim

/-- `State`, of either class. -/
inductive UartState where
  | START | DATA | STOP
  deriving DecidableEq, Repr

/-- The attributes of a `UartRx` that change. -/
structure UartRx where
  state : UartState
  data : BitVec 8
  counter : ℕ
  deriving DecidableEq, Repr

/-- The attributes of a `UartTx` that change. -/
structure UartTx where
  state : UartState
  data : BitVec 8
  counter : ℕ
  inputsQueue : List (BitVec 8)
  deriving DecidableEq, Repr

/-- What a `UartRx` prints. -/
inductive Output where
  | char (data : BitVec 8)
  | frameError
  deriving DecidableEq, Repr

/-- The two, the line between them and what has been printed. -/
structure UartLink where
  /-- `*rx` and `*tx`. -/
  line : Bool
  rx : UartRx
  tx : UartTx
  output : List Output
  deriving DecidableEq, Repr

/-- `UartRx::tick`. The rate is an unsigned number of 32 bits. -/
def UartRx.tick (uartTimeRate : ℕ) (w : UartLink) : UartLink × Option ℕ :=
  match w.rx.state with
  | .START =>
    if w.line = false then
      ({ w with rx := ⟨.DATA, 0, 0⟩ }, some (uartTimeRate * 5 % 2 ^ 32 / 4))
    else (w, some (uartTimeRate / 4))
  | .DATA =>
    let data := w.rx.data ||| (BitVec.ofBool w.line).setWidth 8 <<< w.rx.counter
    let counter := w.rx.counter + 1
    ({ w with rx := ⟨if counter = 8 then .STOP else .DATA, data, counter⟩ }, some uartTimeRate)
  | .STOP =>
    ({ w with
      rx := { w.rx with state := .START }
      output := w.output ++ [if w.line then .char w.rx.data else .frameError] }, some (uartTimeRate / 4))

/-- `UartTx::tick`. -/
def UartTx.tick (uartTimeRate : ℕ) (w : UartLink) : UartLink × Option ℕ :=
  match w.tx.state with
  | .START =>
    match w.tx.inputsQueue with
    | data :: inputsQueue =>
      ({ w with line := false, tx := ⟨.DATA, data, 0, inputsQueue⟩ }, some uartTimeRate)
    | [] => (w, some (uartTimeRate * 50 % 2 ^ 32))
  | .DATA =>
    let counter := w.tx.counter + 1
    ({ w with
      line := (w.tx.data.sshiftRight w.tx.counter).getLsbD 0
      tx := { w.tx with state := if counter = 8 then .STOP else .DATA, counter := counter } },
      some uartTimeRate)
  | .STOP => ({ w with line := true, tx := { w.tx with state := .START } }, some uartTimeRate)

/-- Bytes come in at the input thread. -/
def UartLink.push (bs : List (BitVec 8)) (w : UartLink) : UartLink :=
  { w with tx := { w.tx with inputsQueue := w.tx.inputsQueue ++ bs } }

/-- The two as their constructors leave them, in either order. -/
def uartWorkspace (uartTimeRate : ℕ) (rxFirst : Bool) : Workspace UartLink where
  timeProcesses :=
    let rx : TimeProcess UartLink := TimeProcess.schedule ⟨0, false, UartRx.tick uartTimeRate⟩ uartTimeRate
    let tx : TimeProcess UartLink := TimeProcess.schedule ⟨0, false, UartTx.tick uartTimeRate⟩ uartTimeRate
    if rxFirst then [rx, tx] else [tx, rx]
  world := ⟨true, ⟨.START, 0, 0⟩, ⟨.START, 0, 0, []⟩, []⟩
  time := 0

/-- `n` iterations, with the bytes `arrivals k` coming in before iteration `k`. The model does
not touch the line. -/
def uartRun (uartTimeRate : ℕ) (rxFirst : Bool) (arrivals : ℕ → List (BitVec 8)) :
    ℕ → Option (Workspace UartLink)
  | 0 => some (uartWorkspace uartTimeRate rxFirst)
  | n + 1 => (uartRun uartTimeRate rxFirst arrivals n).bind fun s =>
    Workspace.iteration id { s with world := s.world.push (arrivals n) }

/-- The bytes that have come in before iteration `n`. -/
def arrived (arrivals : ℕ → List (BitVec 8)) : ℕ → List (BitVec 8)
  | 0 => []
  | n + 1 => arrived arrivals n ++ arrivals n

/-! ### Where the two are -/

/-- The transmitter is in cell `c` of a frame: 0 is the start bit, 1 to 8 are the data bits
and 9 is the stop bit. -/
def UartTx.InCell (tx : UartTx) (c : ℕ) : Prop :=
  if c < 8 then tx.state = .DATA ∧ tx.counter = c else if c = 8 then tx.state = .STOP else tx.state = .START

/-- The level of a cell. -/
def UartTx.level (tx : UartTx) (c : ℕ) : Bool :=
  if c = 0 then false else if c = 9 then true else tx.data.getLsbD (c - 1)

/-- The receiver waits for its sample of cell `k + 1`, and has those before it. -/
structure UartRx.Waits (rx : UartRx) (k : ℕ) (byte : BitVec 8) : Prop where
  state : if k < 8 then rx.state = .DATA ∧ rx.counter = k else rx.state = .STOP
  data : ∀ j < 8, rx.data.getLsbD j = (decide (j < k) && byte.getLsbD j)

/-- **Where the two are**, when the receiver is to be woken after `a` and the transmitter after
`b`, at time `t`. The bytes `sent` are those that have come in so far; unless there are none
left the last of them has been printed by the time `deadline`. -/
inductive Inv (R : ℕ) (sent : List (BitVec 8)) (w : UartLink) (a b t deadline : ℕ) : Prop where
  /-- Between frames: the receiver looks at the line at most `R / 4` after the transmitter's
  next turn. -/
  | idle : w.rx.state = .START → w.tx.state = .START → w.line = true → a ≤ b + R / 4 →
      w.output ++ w.tx.inputsQueue.map .char = sent.map .char →
      (w.tx.inputsQueue = [] ∨ t + (b + 10 * R * w.tx.inputsQueue.length) ≤ deadline) →
      Inv R sent w a b t deadline
  /-- The start bit has begun, and the receiver has not seen it yet. -/
  | begun : w.rx.state = .START → w.tx.InCell 0 → w.line = false → b ≤ R → a + R ≤ b + R / 4 →
      w.output ++ .char w.tx.data :: w.tx.inputsQueue.map .char = sent.map .char →
      t + (9 * R + b + 10 * R * w.tx.inputsQueue.length) ≤ deadline → Inv R sent w a b t deadline
  /-- In a frame. -/
  | frame (c k m e : ℕ) : w.tx.InCell c → w.rx.Waits k w.tx.data → w.line = w.tx.level c → k ≤ 8 →
      c + m = k + 1 → c + e = 9 → b ≤ R → m * R + R / 4 + b ≤ R + a → R + a ≤ m * R + 2 * (R / 4) + b →
      w.output ++ .char w.tx.data :: w.tx.inputsQueue.map .char = sent.map .char →
      t + (e * R + b + 10 * R * w.tx.inputsQueue.length) ≤ deadline → Inv R sent w a b t deadline

variable {R : ℕ} {sent : List (BitVec 8)} {w : UartLink} {a b t deadline : ℕ}

/-- Time passes. -/
theorem Inv.pass (h : Inv R sent w a b t deadline) {d : ℕ} (ha : d ≤ a) (hb : d ≤ b) :
    Inv R sent w (a - d) (b - d) (t + d) deadline := by
  cases h with
  | idle hrx htx hline hab hout hdue => exact .idle hrx htx hline (by omega) hout (hdue.imp_right (by omega))
  | begun hrx htx hline hb hab hout hdue => exact .begun hrx htx hline (by omega) (by omega) hout (by omega)
  | frame c k m e htx hrx hline hk hm he hb hlo hhi hout hdue =>
    exact .frame c k m e htx hrx hline hk hm he (by omega) (by omega) (by omega) hout (by omega)

/-! ### Ticks -/

/-- A bit that has been sampled. -/
theorem UartRx.Waits.sample {rx : UartRx} {k : ℕ} {byte : BitVec 8} (h : rx.Waits k byte) (hk : k < 8) :
    UartRx.Waits ⟨if k + 1 = 8 then .STOP else .DATA,
      rx.data ||| (BitVec.ofBool (byte.getLsbD k)).setWidth 8 <<< k, k + 1⟩ (k + 1) byte where
  state := by
    by_cases h8 : k + 1 = 8
    · simp [h8]
    · simp [h8, show k + 1 < 8 by omega]
  data j hj := by
    have hbit : ((BitVec.ofBool (byte.getLsbD k)).setWidth 8).getLsbD (j - k) =
        (decide (j - k = 0) && byte.getLsbD k) := by
      rw [BitVec.getLsbD_setWidth, BitVec.getLsbD_ofBool, decide_eq_true (by omega : j - k < 8), Bool.true_and]
    rw [BitVec.getLsbD_or, BitVec.getLsbD_shiftLeft, h.data j hj, hbit, decide_eq_true hj, Bool.true_and]
    rcases Nat.lt_trichotomy j k with hlt | rfl | hgt
    · simp [hlt, Nat.lt_succ_of_lt hlt]
    · simp
    · simp [Nat.not_lt_of_lt hgt, show ¬ j < k + 1 by omega, show j - k ≠ 0 by omega]

/-- All eight bits. -/
theorem UartRx.Waits.eq {rx : UartRx} {byte : BitVec 8} (h : rx.Waits 8 byte) : rx.data = byte := by
  apply BitVec.eq_of_getLsbD_eq
  intro j hj
  rw [h.data j hj, decide_eq_true hj, Bool.true_and]

theorem UartRx.tick_quiet (hrx : w.rx.state = .START) (hline : w.line = true) :
    UartRx.tick R w = (w, some (R / 4)) := by
  simp [UartRx.tick, hrx, hline]

/-- The start bit is seen. -/
theorem UartRx.tick_start (h50 : 50 * R < 2 ^ 32) (hrx : w.rx.state = .START) (hline : w.line = false) :
    UartRx.tick R w = ({ w with rx := ⟨.DATA, 0, 0⟩ }, some (R + R / 4)) := by
  have hrate : R * 5 % 2 ^ 32 / 4 = R + R / 4 := by
    rw [Nat.mod_eq_of_lt (by omega)]
    omega
  simp [UartRx.tick, hrx, hline, ← hrate]

/-- A sample of a data bit. -/
theorem UartRx.Waits.tick_bit {k : ℕ} (h : w.rx.Waits k w.tx.data) (hk : k < 8)
    (hline : w.line = w.tx.level (k + 1)) : UartRx.tick R w = ({ w with rx := ⟨if k + 1 = 8 then .STOP else .DATA,
      w.rx.data ||| (BitVec.ofBool (w.tx.data.getLsbD k)).setWidth 8 <<< k, k + 1⟩ }, some R) := by
  have hstate := h.state
  rw [if_pos hk] at hstate
  have hlevel : w.line = w.tx.data.getLsbD k := by
    rw [hline, UartTx.level, if_neg (Nat.succ_ne_zero k), if_neg (by omega), Nat.add_sub_cancel]
  simp [UartRx.tick, hstate.1, hstate.2, hlevel]

/-- The sample of the stop bit. -/
theorem UartRx.Waits.tick_stop (h : w.rx.Waits 8 w.tx.data) (hline : w.line = w.tx.level 9) :
    UartRx.tick R w = ({ w with
      rx := { w.rx with state := .START }
      output := w.output ++ [.char w.tx.data] }, some (R / 4)) := by
  have hstate : w.rx.state = .STOP := h.state
  simp [UartRx.tick, hstate, hline, UartTx.level, h.eq]

theorem UartTx.InCell.tick_bit {c : ℕ} (h : w.tx.InCell c) (hc : c < 8) : UartTx.tick R w = ({ w with
    line := w.tx.data.getLsbD c
    tx := { w.tx with state := if c + 1 = 8 then .STOP else .DATA, counter := c + 1 } }, some R) := by
  rw [UartTx.InCell, if_pos hc] at h
  have hbit : (w.tx.data.sshiftRight c).getLsbD 0 = w.tx.data.getLsbD c := by
    rw [BitVec.getLsbD_sshiftRight]
    simp [hc]
  simp only [UartTx.tick, h.1, h.2, hbit]

theorem UartTx.InCell.tick_stop (h : w.tx.InCell 8) :
    UartTx.tick R w = ({ w with line := true, tx := { w.tx with state := .START } }, some R) := by
  have hstate : w.tx.state = .STOP := h
  simp [UartTx.tick, hstate]

section Ticks

variable (hR : 4 ≤ R) (h50 : 50 * R < 2 ^ 32)
include hR

/-- A sample is taken when nothing is left of the way to its cell. -/
theorem ahead_eq_zero {m : ℕ} (h : m * R + R / 4 + b ≤ R) : m = 0 := by
  by_contra hm
  have hle : 1 * R ≤ m * R := Nat.mul_le_mul_right R (Nat.one_le_iff_ne_zero.mpr hm)
  omega

/-- The transmitter goes on only while the receiver's sample lies ahead. -/
theorem ahead_pos {m : ℕ} (h : R + a ≤ m * R + 2 * (R / 4)) : 0 < m := by
  by_contra hm
  obtain rfl : m = 0 := by omega
  rw [Nat.zero_mul] at h
  omega

include h50

/-- **The receiver's turn.** -/
theorem Inv.rx (h : Inv R sent w 0 b t deadline) : ∃ d, (UartRx.tick R w).2 = some d ∧ 0 < d ∧ d < forever ∧
    Inv R sent (UartRx.tick R w).1 d b t deadline := by
  have hforever : R * 5 < forever := by
    unfold forever
    omega
  cases h with
  | idle hrx htx hline hab hout hdue =>
    rw [UartRx.tick_quiet hrx hline]
    exact ⟨R / 4, rfl, by omega, by omega, .idle hrx htx hline (by omega) hout hdue⟩
  | begun hrx htx hline hb hab hout hdue =>
    rw [UartRx.tick_start h50 hrx hline]
    have hwaits : UartRx.Waits ⟨.DATA, 0, 0⟩ 0 w.tx.data := ⟨⟨rfl, rfl⟩, fun j _ => by simp⟩
    exact ⟨R + R / 4, rfl, by omega, by omega,
      .frame 0 0 1 9 htx hwaits hline (by decide) rfl rfl hb (by omega) (by omega) hout hdue⟩
  | frame c k m e htx hrx hline hk hm he hb hlo hhi hout hdue =>
    -- the transmitter is in the cell that is sampled
    obtain rfl := ahead_eq_zero hR hlo
    obtain rfl : c = k + 1 := by omega
    by_cases hk8 : k < 8
    · rw [hrx.tick_bit hk8 hline]
      exact ⟨R, rfl, by omega, by omega, .frame (k + 1) (k + 1) 1 e htx (hrx.sample hk8) hline (by omega) rfl he hb
        (by omega) (by omega) hout hdue⟩
    · obtain rfl : k = 8 := by omega
      obtain rfl : e = 0 := by omega
      rw [hrx.tick_stop hline]
      refine ⟨R / 4, rfl, by omega, by omega, .idle rfl htx hline (by omega) ?_ (Or.inr (by dsimp only; omega))⟩
      rw [← hout]
      simp

/-- **The transmitter's turn.** -/
theorem Inv.tx (h : Inv R sent w a 0 t deadline) : ∃ d, (UartTx.tick R w).2 = some d ∧ 0 < d ∧ d < forever ∧
    Inv R sent (UartTx.tick R w).1 a d t deadline := by
  have hforever : R * 50 < forever := by
    unfold forever
    omega
  cases h with
  | idle hrx htx hline hab hout hdue =>
    obtain ⟨q, hq⟩ : ∃ q, q = w.tx.inputsQueue := ⟨_, rfl⟩
    rw [← hq] at hout hdue
    cases q with
    | nil =>
      have htick : UartTx.tick R w = (w, some (R * 50 % 2 ^ 32)) := by
        simp [UartTx.tick, htx, ← hq]
      have hmod : R * 50 % 2 ^ 32 = R * 50 := Nat.mod_eq_of_lt (by omega)
      rw [htick, hmod]
      rw [hq] at hout
      exact ⟨R * 50, rfl, by omega, hforever, .idle hrx htx hline (by omega) hout (Or.inl hq.symm)⟩
    | cons data rest =>
      have htick : UartTx.tick R w = ({ w with line := false, tx := ⟨.DATA, data, 0, rest⟩ }, some R) := by
        simp [UartTx.tick, htx, ← hq]
      have hdue' := hdue.resolve_left (by simp)
      rw [List.length_cons, Nat.mul_succ] at hdue'
      rw [htick]
      exact ⟨R, rfl, by omega, by omega, .begun hrx ⟨rfl, rfl⟩ rfl (le_refl R) (by omega) hout
        (by dsimp only; omega)⟩
  | begun hrx htx hline hb hab hout hdue => omega
  | frame c k m e htx hrx hline hk hm he hb hlo hhi hout hdue =>
    -- the receiver's sample lies ahead, so the frame has another cell
    have hpos := ahead_pos hR (show R + a ≤ m * R + 2 * (R / 4) by omega)
    obtain ⟨m, rfl⟩ : ∃ m', m = m' + 1 := ⟨m - 1, by omega⟩
    obtain ⟨e, rfl⟩ : ∃ e', e = e' + 1 := ⟨e - 1, by omega⟩
    rw [Nat.succ_mul] at hlo hhi hdue
    by_cases hc : c < 8
    · rw [htx.tick_bit hc]
      refine ⟨R, rfl, by omega, by omega, .frame (c + 1) k m e ?_ hrx ?_ hk (by omega) (by omega) (le_refl R)
        (by omega) (by omega) hout (by dsimp only; omega)⟩
      · by_cases h8 : c + 1 = 8
        · simp [UartTx.InCell, h8]
        · simp [UartTx.InCell, h8, show c + 1 < 8 by omega]
      · simp [UartTx.level, show c ≠ 8 by omega]
    · obtain rfl : c = 8 := by omega
      rw [htx.tick_stop]
      exact ⟨R, rfl, by omega, by omega, .frame 9 k m e rfl hrx rfl hk (by omega) (by omega) (le_refl R)
        (by omega) (by omega) hout (by dsimp only; omega)⟩

end Ticks

/-! ### Runs -/

/-- The ticks, in the order of the list. -/
def uartTicks (R : ℕ) (rxFirst : Bool) : List (UartLink → UartLink × Option ℕ) :=
  if rxFirst then [UartRx.tick R, UartTx.tick R] else [UartTx.tick R, UartRx.tick R]

/-- `Inv`, with the delays in the order of the list. -/
def Linked (R : ℕ) (rxFirst : Bool) (sent : List (BitVec 8)) (deadline : ℕ) (w : UartLink) (ds : List ℕ)
    (t : ℕ) : Prop :=
  ∃ a b, ds = (if rxFirst then [a, b] else [b, a]) ∧ Inv R sent w a b t deadline

variable {rxFirst : Bool}

theorem Linked.pass {ds : List ℕ} {delay : ℕ} (hds : ∀ d ∈ ds, delay ≤ d)
    (h : Linked R rxFirst sent deadline w ds t) :
    Linked R rxFirst sent deadline w (ds.map (· - delay)) (t + delay) := by
  obtain ⟨a, b, rfl, hinv⟩ := h
  have hab : delay ≤ a ∧ delay ≤ b := by
    cases rxFirst with
    | true => exact ⟨hds a (by simp), hds b (by simp)⟩
    | false => exact ⟨hds a (by simp), hds b (by simp)⟩
  refine ⟨a - delay, b - delay, ?_, hinv.pass hab.1 hab.2⟩
  cases rxFirst <;> rfl

/-- The turn of either. -/
theorem linked_ticks (hR : 4 ≤ R) (h50 : 50 * R < 2 ^ 32) {k : ℕ} {tick : UartLink → UartLink × Option ℕ}
    (hk : (uartTicks R rxFirst)[k]? = some tick) : Ticks (Linked R rxFirst sent deadline) tick k := by
  rintro w ds₁ ds₂ t hlen ⟨a, b, hds, hinv⟩
  have hk2 : k < 2 := by
    have hlt := (List.getElem?_eq_some_iff.mp hk).1
    cases rxFirst <;> exact hlt
  have hrx (h : Inv R sent w 0 b t deadline) := h.rx hR h50
  have htx (h : Inv R sent w a 0 t deadline) := h.tx hR h50
  match k, ds₁, rxFirst with
  | 0, [], true =>
    obtain ⟨rfl, rfl⟩ := List.cons.inj hds
    obtain rfl := Option.some.inj hk
    obtain ⟨d, hd, hpos, hlt, h⟩ := hrx hinv
    exact ⟨d, hd, hpos, hlt, d, b, rfl, h⟩
  | 0, [], false =>
    obtain ⟨rfl, rfl⟩ := List.cons.inj hds
    obtain rfl := Option.some.inj hk
    obtain ⟨d, hd, hpos, hlt, h⟩ := htx hinv
    exact ⟨d, hd, hpos, hlt, a, d, rfl, h⟩
  | 1, [x], true =>
    obtain ⟨hx, hds'⟩ := List.cons.inj hds
    obtain ⟨rfl, rfl⟩ := List.cons.inj hds'
    subst hx
    obtain rfl := Option.some.inj hk
    obtain ⟨d, hd, hpos, hlt, h⟩ := htx hinv
    exact ⟨d, hd, hpos, hlt, x, d, rfl, h⟩
  | 1, [x], false =>
    obtain ⟨hx, hds'⟩ := List.cons.inj hds
    obtain ⟨rfl, rfl⟩ := List.cons.inj hds'
    subst hx
    obtain rfl := Option.some.inj hk
    obtain ⟨d, hd, hpos, hlt, h⟩ := hrx hinv
    exact ⟨d, hd, hpos, hlt, d, x, rfl, h⟩

/-- More bytes come in. -/
theorem Inv.push (h : Inv R sent w a b t deadline) (bs : List (BitVec 8)) :
    ∃ deadline', (bs = [] → deadline' = deadline) ∧ Inv R (sent ++ bs) (w.push bs) a b t deadline' := by
  by_cases hbs : bs = []
  · subst hbs
    refine ⟨deadline, fun _ => rfl, ?_⟩
    have hpush : w.push [] = w := by simp [UartLink.push]
    rw [hpush, List.append_nil]
    exact h
  · cases h with
    | idle hrx htx hline hab hout hdue =>
      refine ⟨_, fun hf => absurd hf hbs, .idle hrx htx hline hab ?_ (Or.inr (le_refl _))⟩
      simp [UartLink.push, ← hout]
    | begun hrx htx hline hb hab hout hdue =>
      refine ⟨_, fun hf => absurd hf hbs, .begun hrx htx hline hb hab ?_ (le_refl _)⟩
      simp [UartLink.push, ← hout]
    | frame c k m e htx hrx hline hk hm he hb hlo hhi hout hdue =>
      refine ⟨_, fun hf => absurd hf hbs, .frame c k m e htx hrx hline hk hm he hb hlo hhi ?_ (le_refl _)⟩
      simp [UartLink.push, ← hout]

/-- What has been printed is what came in first, -/
theorem Inv.prefix (h : Inv R sent w a b t deadline) : ∃ bs, bs <+: sent ∧ w.output = bs.map .char := by
  have hof (rest : List Output) (hout : w.output ++ rest = sent.map .char) :
      ∃ bs, bs <+: sent ∧ w.output = bs.map .char := by
    obtain ⟨bs, cs, rfl, hbs, -⟩ := List.map_eq_append_iff.mp hout.symm
    exact ⟨bs, List.prefix_append bs cs, hbs.symm⟩
  cases h with
  | idle _ _ _ _ hout _ => exact hof _ hout
  | begun _ _ _ _ _ hout _ => exact hof _ hout
  | frame c k m e _ _ _ _ _ _ _ _ _ hout _ => exact hof _ hout

/-- and all of it after the deadline. -/
theorem Inv.all (h : Inv R sent w a b t deadline) (ht : deadline < t) : w.output = sent.map .char := by
  cases h with
  | idle _ _ _ _ hout hdue =>
    have hempty := hdue.resolve_right (by omega)
    rwa [hempty, List.map_nil, List.append_nil] at hout
  | begun _ _ _ _ _ _ hdue => omega
  | frame c k m e _ _ _ _ _ _ _ _ _ _ hdue => omega

/-- The workspace at time `t`, when the bytes `sent` have come in. -/
structure Running (R : ℕ) (rxFirst : Bool) (sent : List (BitVec 8)) (deadline t : ℕ) (s : Workspace UartLink) :
    Prop where
  ticks : s.timeProcesses.map TimeProcess.tick = uartTicks R rxFirst
  waits : ∃ ds, List.Forall₂ TimeProcess.Waits s.timeProcesses ds ∧ (∀ d ∈ ds, 0 < d) ∧ ds ≠ [] ∧
    Linked R rxFirst sent deadline s.world ds t

variable {s : Workspace UartLink}

theorem Running.start (hR : 4 ≤ R) (h50 : 50 * R < 2 ^ 32) :
    Running R rxFirst [] 0 0 (uartWorkspace R rxFirst) := by
  have hwaits (tick : UartLink → UartLink × Option ℕ) :
      TimeProcess.Waits (TimeProcess.schedule ⟨0, false, tick⟩ R) R := by
    refine ⟨rfl, Nat.mod_eq_of_lt (by omega), ?_⟩
    unfold forever
    omega
  have hinv : Inv R [] (uartWorkspace R rxFirst).world R R 0 0 :=
    .idle rfl rfl rfl (Nat.le_add_right R _) rfl (Or.inl rfl)
  cases rxFirst with
  | true => exact ⟨rfl, [R, R], .cons (hwaits _) (.cons (hwaits _) .nil), by simp; omega, by simp, R, R, rfl, hinv⟩
  | false => exact ⟨rfl, [R, R], .cons (hwaits _) (.cons (hwaits _) .nil), by simp; omega, by simp, R, R, rfl, hinv⟩

/-- An iteration, when bytes have come in. -/
theorem Running.step (hR : 4 ≤ R) (h50 : 50 * R < 2 ^ 32) (h : Running R rxFirst sent deadline t s)
    (bs : List (BitVec 8)) : ∃ s' deadline' t',
      Workspace.iteration id { s with world := s.world.push bs } = some s' ∧ t < t' ∧
        (bs = [] → deadline' = deadline) ∧ Running R rxFirst (sent ++ bs) deadline' t' s' := by
  obtain ⟨hticks, ds, hwaits, hpos, hne, a, b, hds, hinv⟩ := h
  obtain ⟨deadline', hdeadline, hinv'⟩ := hinv.push bs
  obtain ⟨s', ds', t', hrun, ht, hticks', hwaits', hpos', hlinked⟩ :=
    Workspace.iteration_inv (P := Linked R rxFirst (sent ++ bs) deadline')
      (s := { s with world := s.world.push bs })
      (fun w ds t delay hds hP => hP.pass hds) (fun _ _ _ hP => hP) hne hwaits hpos
      (fun k p hk => linked_ticks hR h50 (by rw [← hticks, List.getElem?_map, hk]; rfl)) ⟨a, b, hds, hinv'⟩
  refine ⟨s', deadline', t', hrun, ht, hdeadline, hticks'.trans hticks, ds', hwaits', hpos', ?_, hlinked⟩
  obtain ⟨a', b', rfl, -⟩ := hlinked
  cases rxFirst <;> simp

/-- **Every iteration of a run.** -/
theorem uartRun_running (hR : 4 ≤ R) (h50 : 50 * R < 2 ^ 32) (rxFirst : Bool)
    (arrivals : ℕ → List (BitVec 8)) (n : ℕ) :
    ∃ s deadline t, uartRun R rxFirst arrivals n = some s ∧ Running R rxFirst (arrived arrivals n) deadline t s := by
  induction n with
  | zero => exact ⟨_, 0, 0, rfl, Running.start hR h50⟩
  | succ n ih =>
    obtain ⟨s, deadline, t, hrun, hs⟩ := ih
    obtain ⟨s', deadline', t', hstep, -, -, hs'⟩ := hs.step hR h50 (arrivals n)
    refine ⟨s', deadline', t', ?_, hs'⟩
    rw [uartRun, hrun]
    exact hstep

/-- When nothing comes in any more, the deadline stays and time goes on. -/
theorem uartRun_later (hR : 4 ≤ R) (h50 : 50 * R < 2 ^ 32) {arrivals : ℕ → List (BitVec 8)} {n : ℕ}
    (hnone : ∀ k, n ≤ k → arrivals k = []) (hrun : uartRun R rxFirst arrivals n = some s)
    (hs : Running R rxFirst (arrived arrivals n) deadline t s) (j : ℕ) :
    ∃ s' t', uartRun R rxFirst arrivals (n + j) = some s' ∧ t + j ≤ t' ∧
      Running R rxFirst (arrived arrivals n) deadline t' s' := by
  induction j with
  | zero => exact ⟨s, t, hrun, le_refl _, hs⟩
  | succ j ih =>
    obtain ⟨s', t', hrun', ht', hs'⟩ := ih
    obtain ⟨s'', deadline', t'', hstep, ht'', hdeadline, hs''⟩ := hs'.step hR h50 []
    obtain rfl := hdeadline rfl
    rw [List.append_nil] at hs''
    refine ⟨s'', t'', ?_, by omega, hs''⟩
    rw [← Nat.add_assoc, uartRun, hrun', hnone (n + j) (Nat.le_add_right n j)]
    exact hstep

/-- **The receiver prints what was sent.** At any rate, in either order of the list and
whenever the bytes come in, what has been printed after any number of iterations is what
came in first, with no frame error; and once nothing comes in any more, all of it is
printed. -/
theorem uart_prints_sent (hR : 4 ≤ R) (h50 : 50 * R < 2 ^ 32) (rxFirst : Bool)
    (arrivals : ℕ → List (BitVec 8)) :
    (∀ n, ∃ s, uartRun R rxFirst arrivals n = some s ∧
      ∃ bs, bs <+: arrived arrivals n ∧ s.world.output = bs.map .char) ∧
    ∀ n, (∀ k, n ≤ k → arrivals k = []) → ∃ m, ∀ k, m ≤ k → ∃ s, uartRun R rxFirst arrivals k = some s ∧
      s.world.output = (arrived arrivals n).map .char := by
  constructor
  · intro n
    obtain ⟨s, deadline, t, hrun, hs⟩ := uartRun_running hR h50 rxFirst arrivals n
    obtain ⟨-, ds, -, -, -, a, b, -, hinv⟩ := hs
    exact ⟨s, hrun, hinv.prefix⟩
  · intro n hnone
    obtain ⟨s, deadline, t, hrun, hs⟩ := uartRun_running hR h50 rxFirst arrivals n
    refine ⟨n + (deadline + 1), fun k hk => ?_⟩
    obtain ⟨j, rfl⟩ := Nat.exists_eq_add_of_le (Nat.le_trans (Nat.le_add_right n _) hk)
    obtain ⟨s', t', hrun', ht', hs'⟩ := uartRun_later hR h50 hnone hrun hs j
    obtain ⟨-, ds, -, -, -, a, b, -, hinv⟩ := hs'
    exact ⟨s', hrun', hinv.all (by omega)⟩

/-- At the lowest rate, with two bytes waiting from the start. -/
theorem uart_prints_sent_two : ∃ m, ∀ k, m ≤ k → ∃ s,
    uartRun 4 true (fun n => if n = 0 then [0x55, 0xff] else []) k = some s ∧
      s.world.output = [.char 0x55, .char 0xff] :=
  (uart_prints_sent (show 4 ≤ 4 by decide) (by decide) true fun n => if n = 0 then [0x55, 0xff] else []).2 1
    fun k hk => if_neg (Nat.one_le_iff_ne_zero.mp hk)

end PyOcdRiscv.Sim
