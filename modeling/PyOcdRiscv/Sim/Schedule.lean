import PyOcdRiscv.Sim.ClockDomain
import Mathlib.Order.Bounds.Basic

/-!
# What a call of `schedule` leads to

Any processes, whatever they do when they are ticked. A process that calls `schedule` is ticked
once, when the delay has passed (`OnTime`), and one that does not is not ticked any more,
or so it is meant: the first loop of an iteration looks at `wakeEnable`, but the second only
at the counter. The counter of a process that is not to be woken goes on counting, and if it
equals the shortest delay, the process is ticked. `punctual_iff` says that this is all that goes
wrong.
-/

namespace PyOcdRiscv.Sim

variable {σ : Type}

/-- A tick of a process, and the delay it calls `schedule` with, an unsigned number of 64 bits. -/
structure Tick where
  time : ℕ
  scheduled : Option ℕ
  deriving DecidableEq, Repr

/-- What a process adds to its ticks in its turn. -/
def TimeProcess.turn (p : TimeProcess σ) (delay time : ℕ) (w : σ) : List Tick :=
  if (p.wakeDelay + (2 ^ 64 - delay)) % 2 ^ 64 = 0 then [⟨time, (p.tick w).2.map (· % 2 ^ 64)⟩] else []

/-- The ticks of process `i` in an iteration: one or none. The processes before it have had
their turns. -/
def Round.ticks (i : ℕ) (q : Round σ) : List Tick :=
  let delay := nextDelay q.before.timeProcesses forever
  match q.before.timeProcesses[i]? with
  | some p => p.turn delay q.time (wakeAll delay (q.before.timeProcesses.take i) q.before.world).2
  | none => []

def Run.ticks (i : ℕ) (r : Run σ) : List Tick := r.rounds.flatMap (Round.ticks i)

/-- The time at which a process is to be woken. -/
def TimeProcess.due (p : TimeProcess σ) (time : ℕ) : Option ℕ :=
  if p.wakeEnable then some (time + p.wakeDelay) else none

/-! ### What a schedule is for -/

/-- The time for which the last call was made, if there is one that no tick has followed. -/
def outstanding : Option ℕ → List Tick → Option ℕ
  | due, [] => due
  | _, e :: es => outstanding (e.scheduled.map (e.time + ·)) es

/-- Each tick comes at the time for which the call before it was made. -/
def OnTime : Option ℕ → List Tick → Prop
  | _, [] => True
  | due, e :: es => due = some e.time ∧ OnTime (e.scheduled.map (e.time + ·)) es

theorem outstanding_append (due : Option ℕ) (es es' : List Tick) :
    outstanding due (es ++ es') = outstanding (outstanding due es) es' := by
  induction es generalizing due with
  | nil => rfl
  | cons e es ih => exact ih _

theorem onTime_append (due : Option ℕ) (es es' : List Tick) :
    OnTime due (es ++ es') ↔ OnTime due es ∧ OnTime (outstanding due es) es' := by
  induction es generalizing due with
  | nil => simp [OnTime, outstanding]
  | cons e es ih => rw [List.cons_append, OnTime, ih, OnTime, outstanding, and_assoc]

/-- **Every call leads to one tick, at its time, and there are no others**: in a run from `s`, as
far as it has come. -/
def Run.Punctual (s : Workspace σ) (r : Run σ) : Prop :=
  ∀ i p, s.timeProcesses[i]? = some p → OnTime (p.due 0) (r.ticks i) ∧
    ∀ t ∈ outstanding (p.due 0) (r.ticks i), r.time ≤ t

/-- The counter of a process that is not to be woken is not the shortest delay that another waits
for. -/
def Spares (ps : List (TimeProcess σ)) : Prop :=
  ∀ p ∈ ps, p.wakeEnable = false →
    ¬ IsLeast {d | d ≠ forever ∧ ∃ q ∈ ps, q.wakeEnable = true ∧ q.wakeDelay = d} p.wakeDelay

/-! ### A turn -/

theorem nextDelay_isLeast {ps : List (TimeProcess σ)} (h : nextDelay ps forever ≠ forever) :
    IsLeast {d | d ≠ forever ∧ ∃ q ∈ ps, q.wakeEnable = true ∧ q.wakeDelay = d} (nextDelay ps forever) := by
  refine ⟨⟨h, (nextDelay_eq_or ps forever).resolve_left h⟩, ?_⟩
  rintro d ⟨-, q, hq, henable, rfl⟩
  exact nextDelay_le_of_mem hq henable forever

theorem nextDelay_eq_of_isLeast {ps : List (TimeProcess σ)} (hps : ∀ p ∈ ps, p.wakeDelay < 2 ^ 64) {d : ℕ}
    (h : IsLeast {d | d ≠ forever ∧ ∃ q ∈ ps, q.wakeEnable = true ∧ q.wakeDelay = d} d) :
    nextDelay ps forever = d := by
  obtain ⟨hne, q, hq, henable, rfl⟩ := h.1
  have hlt := hps q hq
  have hle := nextDelay_le_of_mem hq henable forever
  have hnext : nextDelay ps forever ≠ forever := by
    unfold forever at *
    omega
  exact (nextDelay_isLeast hnext).unique h

variable {p : TimeProcess σ} {delay time : ℕ}

/-- **The turn of a process**, unless it is not to be woken and its counter is the shortest
delay: it is ticked if its time has come, and waits for the rest of its delay if not. -/
theorem TimeProcess.turn_onTime (time : ℕ) (hp : p.wakeDelay < 2 ^ 64) (hd : delay < 2 ^ 64)
    (hle : p.wakeEnable = true → delay ≤ p.wakeDelay) (hspares : p.wakeEnable = false → p.wakeDelay ≠ delay) (w : σ) :
    OnTime (p.due time) (p.turn delay (time + delay) w) ∧
      outstanding (p.due time) (p.turn delay (time + delay) w) = (p.wake delay w).1.due (time + delay) ∧
      (p.wake delay w).1.wakeDelay < 2 ^ 64 := by
  by_cases heq : p.wakeDelay = delay
  · have henable : p.wakeEnable = true := by
      by_contra hf
      exact hspares (Bool.eq_false_of_not_eq_true hf) heq
    rw [turn, if_pos ((sub_eq_zero_iff hp hd).mpr heq), TimeProcess.wake_of_eq hp heq]
    refine ⟨⟨by rw [due, if_pos henable, heq], trivial⟩, ?_⟩
    cases (p.tick w).2 with
    | none => exact ⟨rfl, Nat.two_pow_pos 64⟩
    | some d => exact ⟨rfl, Nat.mod_lt _ (by decide)⟩
  · rw [turn, if_neg ((sub_eq_zero_iff hp hd).not.mpr heq), TimeProcess.wake_of_ne hp hd heq]
    refine ⟨trivial, ?_, Nat.mod_lt _ (by decide)⟩
    rw [outstanding, due, due]
    split_ifs with henable
    · have hle := hle henable
      congr 1
      dsimp only
      omega
    · rfl

/-- A process that is not to be woken has a tick all the same if its counter is the shortest
delay. -/
theorem TimeProcess.not_onTime_turn (hp : p.wakeDelay < 2 ^ 64) (henable : p.wakeEnable = false)
    (heq : p.wakeDelay = delay) (w : σ) : ¬ OnTime (p.due time) (p.turn delay (time + delay) w) := by
  subst heq
  rw [turn, if_pos ((sub_eq_zero_iff hp hp).mpr rfl), due, if_neg (by simp [henable])]
  rintro ⟨h, -⟩
  cases h

/-! ### Runs -/

variable {s : Workspace σ} {r r' : Run σ} {eval : σ → σ}

/-- **What a run keeps**: each process is to be woken when its outstanding call is due. -/
structure Kept (s : Workspace σ) (r : Run σ) : Prop where
  length : r.workspace.timeProcesses.length = s.timeProcesses.length
  wakeDelay : ∀ p ∈ r.workspace.timeProcesses, p.wakeDelay < 2 ^ 64
  ticks : ∀ i p p', s.timeProcesses[i]? = some p → r.workspace.timeProcesses[i]? = some p' →
    OnTime (p.due 0) (r.ticks i) ∧ outstanding (p.due 0) (r.ticks i) = p'.due r.time

theorem Kept.start (hs : ∀ p ∈ s.timeProcesses, p.wakeDelay < 2 ^ 64) : Kept s ⟨s, 0, []⟩ where
  length := rfl
  wakeDelay := hs
  ticks i p p' hp hp' := by
    obtain rfl := Option.some.inj (hp.symm.trans hp')
    exact ⟨trivial, rfl⟩

/-- No process comes or goes. -/
theorem exists_process {ps ps' : List (TimeProcess σ)} (h : ps'.length = ps.length) {i : ℕ} :
    (∃ p, ps[i]? = some p) ↔ ∃ p', ps'[i]? = some p' := by
  rw [← Option.isSome_iff_exists, ← Option.isSome_iff_exists]
  simp [h]

theorem Kept.punctual (h : Kept s r) : r.Punctual s := by
  intro i p hp
  obtain ⟨p', hp'⟩ := (exists_process h.length).mp ⟨p, hp⟩
  obtain ⟨honTime, hdue⟩ := h.ticks i p p' hp hp'
  refine ⟨honTime, ?_⟩
  rw [hdue, TimeProcess.due]
  split_ifs
  · rintro t ⟨⟩
    exact Nat.le_add_right _ _
  · rintro t ⟨⟩

/-- The ticks of a run of one more iteration, in which process `i` has had its turn. -/
theorem Run.next_ticks (hnext : r.next eval = some r') {i : ℕ} (hp : r.workspace.timeProcesses[i]? = some p) :
    ∃ w, r'.ticks i = r.ticks i ++ p.turn (nextDelay r.workspace.timeProcesses forever)
        (r.time + nextDelay r.workspace.timeProcesses forever) w ∧
      r'.workspace.timeProcesses[i]? = some (p.wake (nextDelay r.workspace.timeProcesses forever) w).1 := by
  obtain ⟨s', hs', rfl⟩ := Run.next_eq_some.mp hnext
  obtain ⟨-, rfl⟩ := Workspace.iteration_eq_some.mp hs'
  refine ⟨(wakeAll (nextDelay r.workspace.timeProcesses forever) (r.workspace.timeProcesses.take i)
    r.workspace.world).2, ?_, ?_⟩
  · rw [Run.ticks, List.flatMap_append, List.flatMap_singleton, Round.ticks]
    dsimp only
    rw [hp]
    rfl
  · rw [wakeAll_getElem?, hp]
    rfl

theorem Run.next_time (hnext : r.next eval = some r') :
    r'.time = r.time + nextDelay r.workspace.timeProcesses forever ∧
      nextDelay r.workspace.timeProcesses forever ≠ forever ∧
      r'.workspace.timeProcesses.length = r.workspace.timeProcesses.length := by
  obtain ⟨s', hs', rfl⟩ := Run.next_eq_some.mp hnext
  obtain ⟨hne, rfl⟩ := Workspace.iteration_eq_some.mp hs'
  exact ⟨rfl, hne, length_wakeAll _ _ _⟩

/-- **An iteration.** -/
theorem Kept.next (h : Kept s r) (hspares : Spares r.workspace.timeProcesses) (hnext : r.next eval = some r') :
    Kept s r' := by
  obtain ⟨htime, hne, hlength⟩ := Run.next_time hnext
  have hturn {i : ℕ} {p : TimeProcess σ} (hp : r.workspace.timeProcesses[i]? = some p) (w : σ) :=
    p.turn_onTime r.time (h.wakeDelay p (List.mem_of_getElem? hp))
      (Nat.lt_of_le_of_lt (nextDelay_le_start r.workspace.timeProcesses forever) (by decide))
      (fun henable => nextDelay_le_of_mem (List.mem_of_getElem? hp) henable forever)
      (fun henable heq => hspares p (List.mem_of_getElem? hp) henable (heq ▸ nextDelay_isLeast hne)) w
  refine ⟨hlength.trans h.length, ?_, ?_⟩
  · intro p' hp'
    obtain ⟨i, hi⟩ := List.mem_iff_getElem?.mp hp'
    obtain ⟨p, hp⟩ := (exists_process hlength).mpr ⟨p', hi⟩
    obtain ⟨w, -, hprocess⟩ := Run.next_ticks hnext hp
    obtain rfl := Option.some.inj (hprocess.symm.trans hi)
    exact (hturn hp w).2.2
  · intro i p p'' hp hp''
    obtain ⟨p', hp'⟩ := (exists_process h.length).mp ⟨p, hp⟩
    obtain ⟨w, hticks, hprocess⟩ := Run.next_ticks hnext hp'
    obtain rfl := Option.some.inj (hprocess.symm.trans hp'')
    obtain ⟨honTime, hdue⟩ := h.ticks i p p' hp hp'
    obtain ⟨honTime', hdue', -⟩ := hturn hp' w
    rw [hticks, htime, onTime_append, outstanding_append, hdue]
    exact ⟨⟨honTime, honTime'⟩, hdue'⟩

/-- An iteration after which the run is still punctual has spared the processes that are not to
be woken. -/
theorem Kept.spares (h : Kept s r) (eval : σ → σ) (hnext : ∀ r', r.next eval = some r' → r'.Punctual s) :
    Spares r.workspace.timeProcesses := by
  intro p' hp' henable hleast
  obtain ⟨i, hi⟩ := List.mem_iff_getElem?.mp hp'
  obtain ⟨p, hp⟩ := (exists_process h.length).mpr ⟨p', hi⟩
  have heq := nextDelay_eq_of_isLeast h.wakeDelay hleast
  have hne : nextDelay r.workspace.timeProcesses forever ≠ forever := heq ▸ hleast.1.1
  obtain ⟨r', hr'⟩ : ∃ r', r.next eval = some r' :=
    ⟨_, Run.next_eq_some.mpr ⟨_, Workspace.iteration_eq_some.mpr ⟨hne, rfl⟩, rfl⟩⟩
  obtain ⟨w, hticks, -⟩ := Run.next_ticks hr' hi
  obtain ⟨honTime, -⟩ := hnext r' hr' i p hp
  obtain ⟨-, hdue⟩ := h.ticks i p p' hp hi
  rw [hticks, onTime_append, hdue] at honTime
  exact TimeProcess.not_onTime_turn (h.wakeDelay p' hp') henable heq.symm w honTime.2

/-- **When every call of `schedule` leads to one tick at its time, and no other tick is made.**
For any processes and any model, a run is punctual all along exactly if no iteration finds a
process that is not to be woken with the shortest delay in its counter. And it does not end
before a tick that is due after a finite delay. -/
theorem punctual_iff (hs : ∀ p ∈ s.timeProcesses, p.wakeDelay < 2 ^ 64) (eval : ℕ → σ → σ) (n : ℕ) :
    ((∀ m ≤ n, ∀ r, s.run eval m = some r → r.Punctual s) ↔
      ∀ m < n, ∀ r, s.run eval m = some r → Spares r.workspace.timeProcesses) ∧
    ∀ r, s.run eval n = some r → r.next (eval n) = none →
      ∀ p ∈ r.workspace.timeProcesses, p.wakeEnable = true → forever ≤ p.wakeDelay := by
  have hkept (m : ℕ) (hm : m ≤ n) (hspares : ∀ k < m, ∀ r, s.run eval k = some r → Spares r.workspace.timeProcesses) :
      ∀ r, s.run eval m = some r → Kept s r := by
    induction m with
    | zero =>
      rintro r ⟨⟩
      exact Kept.start hs
    | succ m ih =>
      intro r' hr'
      obtain ⟨r, hr, hnext⟩ := Option.bind_eq_some_iff.mp hr'
      have hr₀ := ih (Nat.le_of_succ_le hm) (fun k hk => hspares k (Nat.lt_succ_of_lt hk)) r hr
      exact hr₀.next (hspares m (Nat.lt_succ_self m) r hr) hnext
  refine ⟨⟨fun h m => ?_, fun h m hm r hr => ?_⟩, fun r _ hnone p hp henable => ?_⟩
  · induction m using Nat.strong_induction_on with
    | _ m ih =>
      intro hm r hr
      have hr₀ := hkept m (Nat.le_of_lt hm) (fun k hk => ih k hk (Nat.lt_trans hk hm)) r hr
      refine hr₀.spares (eval m) fun r' hnext => h (m + 1) hm r' ?_
      rw [Workspace.run, hr]
      exact hnext
  · exact (hkept m hm (fun k hk => h k (Nat.lt_of_lt_of_le hk hm)) r hr).punctual
  · have hfail : nextDelay r.workspace.timeProcesses forever = forever := by
      by_contra hne
      rw [Run.next, Workspace.iteration] at hnone
      simp [hne] at hnone
    rw [← hfail]
    exact nextDelay_le_of_mem hp henable forever

/-! ### A process that is ticked again -/

/-- The attributes of an `AsyncReset` that change, and `*reset`. -/
structure AsyncReset where
  reset : UInt8
  state : ℕ
  deriving DecidableEq, Repr

namespace AsyncReset

def init (invert : UInt8) : AsyncReset := ⟨1 ^^^ invert, 0⟩

/-- `AsyncReset::tick`. It does not call `schedule` in state 1. -/
def tick (duration : ℕ) (invert : UInt8) (a : AsyncReset) : AsyncReset × Option ℕ :=
  match a.state with
  | 0 => (⟨1 ^^^ invert, 1⟩, some duration)
  | 1 => (⟨0 ^^^ invert, 2⟩, none)
  | _ => (a, none)

/-- The process, with the call of `schedule` in the constructor. -/
def process (duration : ℕ) (invert : UInt8) : OtherProcess AsyncReset :=
  ⟨0, true, fun _ => tick duration invert⟩

end AsyncReset

/-- The clock of the Saxon simulation, and a reset. -/
def clockAndReset (duration : ℕ) : Workspace (ClockWorld Empty AsyncReset) :=
  (ClockDomain.init 20 [] (fun _ a => a) fun _ a => a).workspace 300 [] [AsyncReset.process duration 0]
    (AsyncReset.init 0)

theorem clockAndReset_wakeDelay (duration : ℕ) : ∀ p ∈ (clockAndReset duration).timeProcesses, p.wakeDelay < 2 ^ 64 := by
  simp [clockAndReset, ClockDomain.workspace, OtherProcess.timeProcess, AsyncReset.process, TimeProcess.schedule]

/-- A check of `Spares`, and of the range of the counters. -/
def sparesAll (ps : List (TimeProcess σ)) : Bool :=
  ps.all fun p => p.wakeDelay < 2 ^ 64 && (p.wakeEnable || p.wakeDelay != nextDelay ps forever)

theorem spares_of_sparesAll {ps : List (TimeProcess σ)} (h : sparesAll ps = true) : Spares ps := by
  simp only [sparesAll, List.all_eq_true, Bool.and_eq_true, decide_eq_true_iff, Bool.or_eq_true, bne_iff_ne] at h
  intro p hp henable hleast
  rcases (h p hp).2 with hwoken | hne
  · rw [henable] at hwoken
    cases hwoken
  · exact hne (nextDelay_eq_of_isLeast (fun q hq => (h q hq).1) hleast).symm

/-- A reset of 505, between two edges of the clock: from its second tick on it is not to be woken, and
it is not ticked again. -/
theorem punctual_iff_reset :
    ∃ r, (clockAndReset 505).run (fun _ => ClockWorld.evaluate fun _ a => a) 40 = some r ∧
      r.Punctual (clockAndReset 505) ∧ r.ticks 1 = [⟨0, some 505⟩, ⟨505, none⟩] := by
  have hspares : ∀ m < 40, ((clockAndReset 505).run (fun _ => ClockWorld.evaluate fun _ a => a) m).all
      (fun r => sparesAll r.workspace.timeProcesses) = true := by decide +kernel
  obtain ⟨r, hr, hticks⟩ := Option.map_eq_some_iff.mp
    (show ((clockAndReset 505).run (fun _ => ClockWorld.evaluate fun _ a => a) 40).map (Run.ticks 1) =
      some [⟨0, some 505⟩, ⟨505, none⟩] by decide +kernel)
  refine ⟨r, hr, (punctual_iff (clockAndReset_wakeDelay 505) _ 40).1.mpr (fun m hm r₀ hr₀ => ?_) 40 (le_refl 40) r hr,
    hticks⟩
  have hm₀ := hspares m hm
  rw [hr₀] at hm₀
  exact spares_of_sparesAll hm₀

/-- The reset is ticked a third time at 500, in the iteration that calls `postCycle`. -/
theorem saxon_ticks : ((clockAndReset 500).run (fun _ => ClockWorld.evaluate fun _ a => a) 33).map (Run.ticks 1) =
    some [⟨0, some 500⟩, ⟨500, none⟩, ⟨500, none⟩] := by decide +kernel

/-- **A process that has not called `schedule` is ticked again.** -/
theorem saxon_not_punctual : ¬ ∀ (σ : Type) (s : Workspace σ) (eval : ℕ → σ → σ) (n : ℕ) (r : Run σ),
    (∀ p ∈ s.timeProcesses, p.wakeDelay < 2 ^ 64) → s.run eval n = some r → r.Punctual s := by
  intro h
  obtain ⟨r, hr, hticks⟩ := Option.map_eq_some_iff.mp saxon_ticks
  obtain ⟨honTime, -⟩ := h _ (clockAndReset 500) _ 33 r (clockAndReset_wakeDelay 500) hr 1 _ rfl
  rw [hticks] at honTime
  cases honTime.2.2.1

end PyOcdRiscv.Sim
