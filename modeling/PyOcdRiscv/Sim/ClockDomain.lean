import PyOcdRiscv.Sim.Workspace
import Mathlib.Data.List.Chain
import Mathlib.Tactic.Ring

/-!
# The simulator's clock

`ClockDomain` of `framework.h`, woken by the simulator's loop among any other processes. Its
tick has three phases, told apart by `*clk` and `postCycle`: it calls `preCycle` of its
elements and raises the clock, asks to be woken again at once and calls `postCycle`, and
half a period later lowers the clock. In between the model is evaluated.

Whatever is done to the model, the elements and the other processes is an act, and the world keeps
a list of them beside their effect. `ClockMoves` says what an iteration can be, `Standing` what
every one keeps, with the `Phase` the tick is in, and `Clocked` what comes of it.
-/

namespace PyOcdRiscv.Sim

/-- Any other process. It may read the clock. -/
structure OtherProcess (τ : Type) where
  wakeDelay : ℕ
  wakeEnable : Bool
  tick : Bool → τ → τ × Option ℕ

/-- What is done to the model, the elements and the other processes. -/
inductive ClockAct (ε τ : Type) where
  | preCycle (simElement : ε)
  | postCycle (simElement : ε)
  /-- A tick of another process. -/
  | other (p : OtherProcess τ) (clk : Bool)
  /-- `top->eval()`. -/
  | evaluate (clk : Bool)

/-- The world of a clock domain, with what has been done to it so far. -/
structure ClockWorld (ε τ : Type) where
  /-- `*clk`. -/
  clk : Bool
  postCycle : Bool
  /-- The model, the elements and the other processes. -/
  rest : τ
  acts : List (ClockAct ε τ)

/-- A `ClockDomain`, with what the methods of its elements do. -/
structure ClockDomain (ε τ : Type) where
  tooglePeriod : ℕ
  simElements : List ε
  preCycle : ε → τ → τ
  postCycle : ε → τ → τ

variable {ε τ : Type}

namespace ClockDomain

/-- The constructor, but for its call of `schedule`. -/
def init (period : ℕ) (simElements : List ε) (preCycle postCycle : ε → τ → τ) : ClockDomain ε τ :=
  ⟨period / 2, simElements, preCycle, postCycle⟩

def callPreCycle (c : ClockDomain ε τ) (w : ClockWorld ε τ) (simElement : ε) : ClockWorld ε τ :=
  { w with rest := c.preCycle simElement w.rest, acts := w.acts ++ [.preCycle simElement] }

def callPostCycle (c : ClockDomain ε τ) (w : ClockWorld ε τ) (simElement : ε) : ClockWorld ε τ :=
  { w with rest := c.postCycle simElement w.rest, acts := w.acts ++ [.postCycle simElement] }

/-- `ClockDomain::tick`. -/
def tick (c : ClockDomain ε τ) (w : ClockWorld ε τ) : ClockWorld ε τ × Option ℕ :=
  if w.clk = false then
    let w := c.simElements.foldl c.callPreCycle w
    ({ w with postCycle := true, clk := true }, some 0)
  else
    let w :=
      if w.postCycle then c.simElements.foldl c.callPostCycle { w with postCycle := false }
      else { w with clk := false }
    (w, some c.tooglePeriod)

end ClockDomain

def OtherProcess.timeProcess (p : OtherProcess τ) : TimeProcess (ClockWorld ε τ) where
  wakeDelay := p.wakeDelay
  wakeEnable := p.wakeEnable
  tick w := ({ w with rest := (p.tick w.clk w.rest).1, acts := w.acts ++ [.other p w.clk] }, (p.tick w.clk w.rest).2)

/-- What an evaluation of the model does. -/
def ClockWorld.evaluate (eval : Bool → τ → τ) (w : ClockWorld ε τ) : ClockWorld ε τ :=
  { w with rest := eval w.clk w.rest, acts := w.acts ++ [.evaluate w.clk] }

/-- A clock domain in a list of processes, as its constructor leaves it. -/
def ClockDomain.workspace (c : ClockDomain ε τ) (delay : ℕ) (ps qs : List (OtherProcess τ)) (rest : τ) :
    Workspace (ClockWorld ε τ) where
  timeProcesses := ps.map OtherProcess.timeProcess ++
    TimeProcess.schedule ⟨0, false, c.tick⟩ delay :: qs.map OtherProcess.timeProcess
  world := ⟨false, false, rest, []⟩
  time := 0

/-! ### What is seen of a run -/

/-- Of the other processes `os`, which stand behind `k` processes, those that the next iteration ticks. -/
def Workspace.ticked (s : Workspace (ClockWorld ε τ)) (k : ℕ) (os : List (OtherProcess τ)) : List (OtherProcess τ) :=
  (((s.timeProcesses.drop k).zip os).filter fun x => x.1.isDue (nextDelay s.timeProcesses forever)).map Prod.snd

/-- What an act does. -/
def ClockAct.run (preCycle postCycle : ε → τ → τ) (eval : Bool → τ → τ) (rest : τ) : ClockAct ε τ → τ
  | .preCycle simElement => preCycle simElement rest
  | .postCycle simElement => postCycle simElement rest
  | .other p clk => (p.tick clk rest).1
  | .evaluate clk => eval clk rest

namespace Round

/-- A rising edge: the model is evaluated with `clk` high, and was not before. -/
def rises (q : Round (ClockWorld ε τ)) : Bool := !q.before.world.clk && q.after.world.clk

def falls (q : Round (ClockWorld ε τ)) : Bool := q.before.world.clk && !q.after.world.clk

/-- What is done in an iteration. -/
def acts (q : Round (ClockWorld ε τ)) : List (ClockAct ε τ) :=
  q.after.world.acts.drop q.before.world.acts.length

/-- **An iteration in which these calls of elements are made**: the processes before the clock domain
that are due are ticked, then the calls are made, the processes behind it that are due are ticked with
the clock as it is now, and the model is evaluated with it. -/
def Calls (ps qs : List (OtherProcess τ)) (calls : List (ClockAct ε τ)) (q : Round (ClockWorld ε τ)) : Prop :=
  q.acts = (q.before.ticked 0 ps).map (.other · q.before.world.clk) ++ calls ++
    (q.before.ticked (ps.length + 1) qs).map (.other · q.after.world.clk) ++ [.evaluate q.after.world.clk]

end Round

/-- The times of the rising edges. -/
def Run.rises (r : Run (ClockWorld ε τ)) : List ℕ := (r.rounds.filter Round.rises).map Round.time

def Run.falls (r : Run (ClockWorld ε τ)) : List ℕ := (r.rounds.filter Round.falls).map Round.time

/-- Each element is called once before the evaluation of a rising edge and once after it, before
time goes on, and not otherwise. -/
structure Served (simElements : List ε) (ps qs : List (OtherProcess τ)) (rounds : List (Round (ClockWorld ε τ))) :
    Prop where
  preCycle : ∀ q ∈ rounds, q.rises = true → q.Calls ps qs (simElements.map .preCycle)
  postCycle : rounds.IsChain fun q q' =>
    q.rises = true → q'.time = q.time ∧ q'.Calls ps qs (simElements.map .postCycle)
  first : ∀ q ∈ rounds.head?, q.rises = false → q.Calls ps qs []
  otherwise : rounds.IsChain fun q q' => q.rises = false → q'.rises = false → q'.Calls ps qs []

/-- **What a clock is for.** The edges come at their times, none is overdue, the elements are
called, and what is done in an iteration makes of the model, the elements and the other processes
what the next one finds. -/
structure Clocked (delay half : ℕ) (simElements : List ε) (preCycle postCycle : ε → τ → τ)
    (ps qs : List (OtherProcess τ)) (eval : ℕ → Bool → τ → τ) (r : Run (ClockWorld ε τ)) : Prop where
  rises : ∃ k, r.rises = (List.range k).map (fun i => delay + i * (2 * half)) ∧ r.time ≤ delay + k * (2 * half)
  falls : ∃ k, r.falls = (List.range k).map (fun i => delay + i * (2 * half) + half) ∧
    r.time ≤ delay + k * (2 * half) + half
  served : Served simElements ps qs r.rounds
  done : ∀ (n : ℕ) (q : Round _), r.rounds[n]? = some q →
    q.after.world.rest = q.acts.foldl (ClockAct.run preCycle postCycle (eval n)) q.before.world.rest
  chained : r.rounds.IsChain fun q q' => q'.before = q.after

/-! ### A tick -/

variable {c : ClockDomain ε τ} {eval : Bool → τ → τ} {w w' : ClockWorld ε τ}

/-- The world with these acts done. -/
def ClockWorld.perform (c : ClockDomain ε τ) (eval : Bool → τ → τ) (as : List (ClockAct ε τ)) (w : ClockWorld ε τ) :
    ClockWorld ε τ :=
  { w with rest := as.foldl (ClockAct.run c.preCycle c.postCycle eval) w.rest, acts := w.acts ++ as }

/-- The world with the registers of the clock domain so. -/
def ClockWorld.set (clk postCycle : Bool) (w : ClockWorld ε τ) : ClockWorld ε τ :=
  { w with clk := clk, postCycle := postCycle }

theorem ClockWorld.perform_perform (as bs : List (ClockAct ε τ)) (w : ClockWorld ε τ) :
    (w.perform c eval as).perform c eval bs = w.perform c eval (as ++ bs) := by
  simp only [perform, List.foldl_append, List.append_assoc]

theorem ClockWorld.perform_set (as : List (ClockAct ε τ)) (clk postCycle : Bool) (w : ClockWorld ε τ) :
    (w.set clk postCycle).perform c eval as = (w.perform c eval as).set clk postCycle := rfl

@[simp] theorem ClockWorld.perform_nil (w : ClockWorld ε τ) : w.perform c eval [] = w := by
  simp only [perform, List.foldl_nil, List.append_nil]

/-- Acts of one kind, one after the other. -/
theorem ClockWorld.foldl_eq {α : Type} {act : ClockWorld ε τ → α → ClockWorld ε τ} {f : α → ClockAct ε τ}
    (hact : ∀ w a, act w a = w.perform c eval [f a]) (as : List α) (w : ClockWorld ε τ) :
    as.foldl act w = w.perform c eval (as.map f) := by
  induction as generalizing w with
  | nil => exact (perform_nil w).symm
  | cons a as ih => rw [List.foldl_cons, ih, hact, perform_perform, List.map_cons, List.singleton_append]

/-- The clock rises, -/
theorem ClockDomain.tick_low (c : ClockDomain ε τ) (eval : Bool → τ → τ) (hclk : w.clk = false) :
    c.tick w = ((w.perform c eval (c.simElements.map .preCycle)).set true true, some 0) := by
  have hact (w : ClockWorld ε τ) (e : ε) : c.callPreCycle w e = w.perform c eval [.preCycle e] := rfl
  rw [tick, if_pos hclk, ClockWorld.foldl_eq hact]
  rfl

/-- the elements are called once more, -/
theorem ClockDomain.tick_risen (c : ClockDomain ε τ) (eval : Bool → τ → τ) (hclk : w.clk = true)
    (hpost : w.postCycle = true) :
    c.tick w = ((w.perform c eval (c.simElements.map .postCycle)).set true false, some c.tooglePeriod) := by
  have hact (w : ClockWorld ε τ) (e : ε) : c.callPostCycle w e = w.perform c eval [.postCycle e] := rfl
  rw [tick, if_neg (by simp [hclk]), if_pos hpost, ClockWorld.foldl_eq hact, ← hclk]
  rfl

/-- and it falls. -/
theorem ClockDomain.tick_high (c : ClockDomain ε τ) (hclk : w.clk = true) (hpost : w.postCycle = false) :
    c.tick w = (w.set false false, some c.tooglePeriod) := by
  simp [tick, hclk, hpost, ClockWorld.set]

/-! ### An iteration -/

/-- The process is the other one, with what is left of its delay. -/
def TimeProcess.Plays (p : TimeProcess (ClockWorld ε τ)) (o : OtherProcess τ) : Prop := p.tick = o.timeProcess.tick

theorem OtherProcess.plays (os : List (OtherProcess τ)) :
    List.Forall₂ (TimeProcess.Plays (ε := ε)) (os.map OtherProcess.timeProcess) os := by
  induction os with
  | nil => exact .nil
  | cons o os ih => exact .cons rfl ih

/-- Other processes: those that are due are ticked. -/
theorem wakeAll_plays {ps : List (TimeProcess (ClockWorld ε τ))} {os : List (OtherProcess τ)}
    (h : List.Forall₂ TimeProcess.Plays ps os) (c : ClockDomain ε τ) (eval : Bool → τ → τ) (delay : ℕ)
    (w : ClockWorld ε τ) : List.Forall₂ TimeProcess.Plays (wakeAll delay ps w).1 os ∧
      (wakeAll delay ps w).2 = w.perform c eval
        ((((ps.zip os).filter fun x => x.1.isDue delay).map Prod.snd).map (.other · w.clk)) := by
  induction h generalizing w with
  | nil => exact ⟨.nil, (ClockWorld.perform_nil w).symm⟩
  | @cons p o ps os hp _ ih =>
    obtain ⟨hps, hworld⟩ := ih (p.wake delay w).2
    refine ⟨.cons ((p.wake_tick delay w).trans hp) hps, ?_⟩
    rw [wakeAll, hworld, List.zip_cons_cons, List.filter_cons, p.wake_world]
    by_cases hdue : p.isDue delay = true
    · have hact : (p.tick w).1 = w.perform c eval [.other o w.clk] := by
        rw [hp]
        rfl
      rw [if_pos hdue, if_pos hdue, hact, ClockWorld.perform_perform]
      rfl
    · rw [if_neg hdue, if_neg hdue]

/-- The clock domain is one of the processes, between the others, and to be woken after `x`. -/
def Hosts (c : ClockDomain ε τ) (os us : List (OtherProcess τ)) (s : Workspace (ClockWorld ε τ)) (x : ℕ) : Prop :=
  ∃ ps p qs, s.timeProcesses = ps ++ p :: qs ∧ List.Forall₂ TimeProcess.Plays ps os ∧
    List.Forall₂ TimeProcess.Plays qs us ∧ p.tick = c.tick ∧ p.wakeEnable = true ∧ p.wakeDelay = x ∧ x < 2 ^ 64

/-- An iteration that leaves the registers of the clock domain so, with these calls of elements. -/
def Workspace.Iterates (c : ClockDomain ε τ) (eval : Bool → τ → τ) (ps qs : List (OtherProcess τ))
    (s : Workspace (ClockWorld ε τ)) (clk postCycle : Bool) (calls : List (ClockAct ε τ)) (w' : ClockWorld ε τ) : Prop :=
  w' = (s.world.perform c eval ((s.ticked 0 ps).map (.other · s.world.clk) ++ calls ++
    (s.ticked (ps.length + 1) qs).map (.other · clk) ++ [.evaluate clk])).set clk postCycle

/-- **What an iteration can be**: the clock domain waits on, or has its turn. -/
inductive ClockMoves (c : ClockDomain ε τ) (eval : Bool → τ → τ) (ps qs : List (OtherProcess τ))
    (s : Workspace (ClockWorld ε τ)) (x delay : ℕ) (s' : Workspace (ClockWorld ε τ)) : Prop where
  | wait : delay < x → Hosts c ps qs s' (x - delay) →
      s.Iterates c eval ps qs s.world.clk s.world.postCycle [] s'.world → ClockMoves c eval ps qs s x delay s'
  | rise : delay = x → s.world.clk = false → Hosts c ps qs s' 0 →
      s.Iterates c eval ps qs true true (c.simElements.map .preCycle) s'.world →
      ClockMoves c eval ps qs s x delay s'
  | post : delay = x → s.world.clk = true → s.world.postCycle = true → Hosts c ps qs s' (c.tooglePeriod % 2 ^ 64) →
      s.Iterates c eval ps qs true false (c.simElements.map .postCycle) s'.world →
      ClockMoves c eval ps qs s x delay s'
  | fall : delay = x → s.world.clk = true → s.world.postCycle = false → Hosts c ps qs s' (c.tooglePeriod % 2 ^ 64) →
      s.Iterates c eval ps qs false false [] s'.world → ClockMoves c eval ps qs s x delay s'

variable {os us : List (OtherProcess τ)} {s s' : Workspace (ClockWorld ε τ)} {x : ℕ}

theorem Hosts.next (h : Hosts c os us s x) (hs : s.iteration (ClockWorld.evaluate eval) = some s') :
    ClockMoves c eval os us s x (nextDelay s.timeProcesses forever) s' := by
  obtain ⟨ps, p, qs, hsplit, hps, hqs, htick, henable, rfl, hlt⟩ := h
  obtain ⟨-, rfl⟩ := Workspace.iteration_eq_some.mp hs
  have hle : nextDelay s.timeProcesses forever ≤ p.wakeDelay :=
    nextDelay_le_of_mem (by rw [hsplit]; simp) henable forever
  generalize hdelay : nextDelay s.timeProcesses forever = delay at hle
  have hbefore : s.ticked 0 os = ((ps.zip os).filter fun x => x.1.isDue delay).map Prod.snd := by
    have hzip : (ps ++ p :: qs).zip (os ++ []) = ps.zip os ++ (p :: qs).zip [] := List.zip_append hps.length_eq
    rw [List.append_nil, List.zip_nil_right, List.append_nil] at hzip
    rw [Workspace.ticked, List.drop_zero, hdelay, hsplit, hzip]
  have hbehind : s.ticked (os.length + 1) us = ((qs.zip us).filter fun x => x.1.isDue delay).map Prod.snd := by
    rw [Workspace.ticked, hdelay, hsplit, ← hps.length_eq, List.drop_append, List.drop_eq_nil_of_le (Nat.le_succ _),
      Nat.add_sub_cancel_left]
    rfl
  obtain ⟨hps', hworld⟩ := wakeAll_plays hps c eval delay s.world
  -- what is left of the iteration, when the clock domain has left the world `w`
  have hrest {p' : TimeProcess (ClockWorld ε τ)} {w : ClockWorld ε τ} {clk postCycle : Bool}
      {calls : List (ClockAct ε τ)} (hwake : p.wake delay (wakeAll delay ps s.world).2 = (p', w))
      (hw : w = ((wakeAll delay ps s.world).2.perform c eval calls).set clk postCycle) (htick' : p'.tick = c.tick)
      (henable' : p'.wakeEnable = true) (hlt' : p'.wakeDelay < 2 ^ 64) :
      Hosts c os us ⟨(wakeAll delay s.timeProcesses s.world).1,
          (wakeAll delay s.timeProcesses s.world).2.evaluate eval, (s.time + delay) % 2 ^ 64⟩ p'.wakeDelay ∧
        s.Iterates c eval os us clk postCycle calls
          ((wakeAll delay s.timeProcesses s.world).2.evaluate eval) := by
    obtain ⟨hqs', hworld'⟩ := wakeAll_plays hqs c eval delay w
    rw [hsplit, wakeAll_append, wakeAll, hwake]
    refine ⟨⟨_, p', _, rfl, hps', hqs', htick', henable', rfl, hlt'⟩, ?_⟩
    rw [Workspace.Iterates, hbefore, hbehind]
    dsimp only
    rw [hworld', hw, hworld, ClockWorld.perform_perform, ClockWorld.perform_set, ClockWorld.perform_perform]
    change ClockWorld.perform c eval [.evaluate clk] (ClockWorld.set clk postCycle _) = _
    rw [ClockWorld.perform_set, ClockWorld.perform_perform]
    rfl
  have hclk : (wakeAll delay ps s.world).2.clk = s.world.clk := by rw [hworld]; rfl
  have hpost : (wakeAll delay ps s.world).2.postCycle = s.world.postCycle := by rw [hworld]; rfl
  rcases Nat.lt_or_eq_of_le hle with hless | rfl
  · have hsub : (p.wakeDelay + (2 ^ 64 - delay)) % 2 ^ 64 = p.wakeDelay - delay := by omega
    have hw : (wakeAll delay ps s.world).2 =
        ((wakeAll delay ps s.world).2.perform c eval []).set s.world.clk s.world.postCycle := by
      rw [ClockWorld.perform_nil, ← hclk, ← hpost]
      rfl
    obtain ⟨hhosts, hiter⟩ := hrest (TimeProcess.wake_of_ne hlt (Nat.lt_trans hless hlt) (Nat.ne_of_gt hless) _) hw htick
      henable (Nat.mod_lt _ (by decide))
    rw [hsub] at hhosts
    exact .wait hless hhosts hiter
  · have hwake := TimeProcess.wake_of_eq hlt rfl (wakeAll p.wakeDelay ps s.world).2
    rw [htick] at hwake
    rcases Bool.eq_false_or_eq_true s.world.clk with hhigh | hlow
    · rcases Bool.eq_false_or_eq_true s.world.postCycle with hrisen | hcalled
      · rw [c.tick_risen eval (hclk.trans hhigh) (hpost.trans hrisen)] at hwake
        obtain ⟨hhosts, hiter⟩ := hrest hwake rfl htick rfl (Nat.mod_lt _ (by decide))
        exact .post rfl hhigh hrisen hhosts hiter
      · rw [c.tick_high (hclk.trans hhigh) (hpost.trans hcalled)] at hwake
        obtain ⟨hhosts, hiter⟩ := hrest hwake (by rw [ClockWorld.perform_nil]) htick rfl (Nat.mod_lt _ (by decide))
        exact .fall rfl hhigh hcalled hhosts hiter
    · rw [c.tick_low eval (hclk.trans hlow)] at hwake
      obtain ⟨hhosts, hiter⟩ := hrest hwake rfl htick rfl (Nat.mod_lt _ (by decide))
      exact .rise rfl hlow hhosts hiter

/-- What an iteration has done. -/
theorem Workspace.Iterates.acts {t : ℕ} {clk postCycle : Bool} {calls : List (ClockAct ε τ)}
    (h : s.Iterates c eval os us clk postCycle calls s'.world) :
    s'.world.clk = clk ∧ s'.world.postCycle = postCycle ∧ Round.Calls os us calls ⟨s, s', t⟩ ∧
      s'.world.rest = (Round.acts ⟨s, s', t⟩).foldl (ClockAct.run c.preCycle c.postCycle eval) s.world.rest := by
  have hacts : Round.acts ⟨s, s', t⟩ = (s.ticked 0 os).map (.other · s.world.clk) ++ calls ++
      (s.ticked (os.length + 1) us).map (.other · clk) ++ [.evaluate clk] := by
    rw [Round.acts, h]
    exact List.drop_left
  have hclk : s'.world.clk = clk := by rw [h]; rfl
  refine ⟨hclk, by rw [h]; rfl, by rw [Round.Calls, hacts, hclk], ?_⟩
  rw [hacts, h]
  rfl

/-! ### Runs -/

variable {els : List ε} {qs : List (Round (ClockWorld ε τ))} {q q' : Round (ClockWorld ε τ)}

theorem Served.snoc (h : Served els os us qs) (hlast : ∀ q ∈ qs.getLast?, q.rises = false)
    (hcalls : q'.Calls os us (if q'.rises then els.map .preCycle else [])) : Served els os us (qs ++ [q']) where
  preCycle q hq hrises := by
    rcases List.mem_append.mp hq with hq | hq
    · exact h.preCycle q hq hrises
    · obtain rfl := List.mem_singleton.mp hq
      rwa [if_pos hrises] at hcalls
  postCycle := by
    refine List.isChain_append.mpr ⟨h.postCycle, List.isChain_singleton _, fun q hq _ _ hrises => ?_⟩
    rw [hlast q hq] at hrises
    cases hrises
  first q hq hrises := by
    cases qs with
    | nil =>
      obtain rfl := Option.some.inj hq
      rwa [if_neg (by simp [hrises])] at hcalls
    | cons q₀ qs => exact h.first q hq hrises
  otherwise := by
    refine List.isChain_append.mpr ⟨h.otherwise, List.isChain_singleton _, fun q _ q'' hq'' _ hrises => ?_⟩
    obtain rfl := Option.some.inj hq''
    rwa [if_neg (by simp [hrises])] at hcalls

/-- After a rising edge. -/
theorem Served.snoc_risen (h : Served els os us qs) (hlast : qs.getLast? = some q) (hrises : q.rises = true)
    (hrises' : q'.rises = false) (htime : q'.time = q.time) (hcalls : q'.Calls os us (els.map .postCycle)) :
    Served els os us (qs ++ [q']) where
  preCycle q₀ hq hrises₀ := by
    rcases List.mem_append.mp hq with hq | hq
    · exact h.preCycle q₀ hq hrises₀
    · obtain rfl := List.mem_singleton.mp hq
      rw [hrises'] at hrises₀
      cases hrises₀
  postCycle := by
    refine List.isChain_append.mpr ⟨h.postCycle, List.isChain_singleton _, fun q₀ hq₀ q'' hq'' _ => ?_⟩
    obtain rfl := Option.some.inj hq''
    obtain rfl := Option.some.inj (hlast.symm.trans hq₀)
    exact ⟨htime, hcalls⟩
  first q₀ hq₀ := by
    cases qs with
    | nil => cases hlast
    | cons q₁ qs => exact h.first q₀ hq₀
  otherwise := by
    refine List.isChain_append.mpr ⟨h.otherwise, List.isChain_singleton _, fun q₀ hq₀ _ _ hrises₀ => ?_⟩
    obtain rfl := Option.some.inj (hlast.symm.trans hq₀)
    rw [hrises] at hrises₀
    cases hrises₀

/-- The edges so far: `m` rising and `n` falling ones. -/
structure Edges (delay half : ℕ) (r : Run (ClockWorld ε τ)) (m n : ℕ) : Prop where
  rises : r.rises = (List.range m).map fun i => delay + i * (2 * half)
  falls : r.falls = (List.range n).map fun i => delay + i * (2 * half) + half

section Edges

variable {delay half m n t : ℕ} {r : Run (ClockWorld ε τ)}

theorem Edges.none (h : Edges delay half r m n) (hr : q.rises = false) (hf : q.falls = false) :
    Edges delay half ⟨s, t, r.rounds ++ [q]⟩ m n where
  rises := by rw [← h.rises]; simp [Run.rises, hr]
  falls := by rw [← h.falls]; simp [Run.falls, hf]

theorem Edges.rising (h : Edges delay half r m n) (hr : q.rises = true) (hf : q.falls = false)
    (ht : q.time = delay + m * (2 * half)) : Edges delay half ⟨s, t, r.rounds ++ [q]⟩ (m + 1) n where
  rises := by rw [List.range_succ, List.map_append, ← h.rises]; simp [Run.rises, hr, ht]
  falls := by rw [← h.falls]; simp [Run.falls, hf]

theorem Edges.falling (h : Edges delay half r m n) (hr : q.rises = false) (hf : q.falls = true)
    (ht : q.time = delay + n * (2 * half) + half) : Edges delay half ⟨s, t, r.rounds ++ [q]⟩ m (n + 1) where
  rises := by rw [← h.rises]; simp [Run.rises, hr]
  falls := by rw [List.range_succ, List.map_append, ← h.falls]; simp [Run.falls, hf, ht]

end Edges

/-- **Where the clock domain stands**, when it is to be woken after `x`. -/
inductive Phase (delay half : ℕ) (r : Run (ClockWorld ε τ)) (x : ℕ) : Prop where
  /-- The clock is low. -/
  | low (k : ℕ) : r.workspace.world.clk = false → Edges delay half r k k →
      r.time + x = delay + k * (2 * half) → (∀ q ∈ r.rounds.getLast?, q.rises = false) → Phase delay half r x
  /-- It has risen in the last iteration. -/
  | risen (k : ℕ) (q : Round (ClockWorld ε τ)) : r.workspace.world.clk = true →
      r.workspace.world.postCycle = true → Edges delay half r (k + 1) k → x = 0 →
      r.time = delay + k * (2 * half) → r.rounds.getLast? = some q → q.rises = true → q.time = r.time →
      Phase delay half r x
  /-- It is high, and the elements have been called. -/
  | high (k : ℕ) : r.workspace.world.clk = true → r.workspace.world.postCycle = false →
      Edges delay half r (k + 1) k → r.time + x = delay + k * (2 * half) + half →
      (∀ q ∈ r.rounds.getLast?, q.rises = false) → Phase delay half r x

/-- What every run keeps. -/
structure Standing (c : ClockDomain ε τ) (delay : ℕ) (os us : List (OtherProcess τ)) (r : Run (ClockWorld ε τ))
    (x : ℕ) : Prop where
  hosts : Hosts c os us r.workspace x
  phase : Phase delay c.tooglePeriod r x
  served : Served c.simElements os us r.rounds
  le : x ≤ max delay c.tooglePeriod

variable {delay : ℕ} {r r' : Run (ClockWorld ε τ)}

/-- An iteration in which the clock domain waits. -/
theorem Standing.wait (h : Standing c delay os us r x) {d : ℕ} (hd : d < x) (hhosts : Hosts c os us s' (x - d))
    (hclk' : s'.world.clk = r.workspace.world.clk) (hpost' : s'.world.postCycle = r.workspace.world.postCycle)
    (hcalls : Round.Calls os us [] ⟨r.workspace, s', r.time + d⟩) :
    Standing c delay os us ⟨s', r.time + d, r.rounds ++ [⟨r.workspace, s', r.time + d⟩]⟩ (x - d) := by
  obtain ⟨-, hphase, hserved, hle⟩ := h
  have hr : Round.rises ⟨r.workspace, s', r.time + d⟩ = false := by simp [Round.rises, hclk']
  have hf : Round.falls ⟨r.workspace, s', r.time + d⟩ = false := by simp [Round.falls, hclk']
  have hlast : ∀ q ∈ (r.rounds ++ [(⟨r.workspace, s', r.time + d⟩ : Round _)]).getLast?, q.rises = false := by
    simpa using hr
  have hserved' (hlow : ∀ q ∈ r.rounds.getLast?, q.rises = false) :
      Served c.simElements os us (r.rounds ++ [⟨r.workspace, s', r.time + d⟩]) :=
    hserved.snoc hlow (by rwa [if_neg (by simp [hr])])
  cases hphase with
  | low k hclk hedges htime hlow =>
    exact ⟨hhosts, .low k (hclk'.trans hclk) (hedges.none hr hf) (by dsimp only; omega) hlast, hserved' hlow,
      by omega⟩
  | risen k q hclk hpost hedges hx => omega
  | high k hclk hpost hedges htime hlow =>
    exact ⟨hhosts, .high k (hclk'.trans hclk) (hpost'.trans hpost) (hedges.none hr hf)
      (by dsimp only; omega) hlast, hserved' hlow, by omega⟩

/-- One in which it raises the clock. -/
theorem Standing.rise (h : Standing c delay os us r x) (hclk : r.workspace.world.clk = false)
    (hhosts : Hosts c os us s' 0) (hclk' : s'.world.clk = true) (hpost' : s'.world.postCycle = true)
    (hcalls : Round.Calls os us (c.simElements.map .preCycle) ⟨r.workspace, s', r.time + x⟩) :
    Standing c delay os us ⟨s', r.time + x, r.rounds ++ [⟨r.workspace, s', r.time + x⟩]⟩ 0 := by
  obtain ⟨-, hphase, hserved, -⟩ := h
  have hr : Round.rises ⟨r.workspace, s', r.time + x⟩ = true := by simp [Round.rises, hclk, hclk']
  have hf : Round.falls ⟨r.workspace, s', r.time + x⟩ = false := by simp [Round.falls, hclk]
  cases hphase with
  | low k _ hedges htime hlow =>
    refine ⟨hhosts, .risen k ⟨r.workspace, s', r.time + x⟩ hclk' hpost' (hedges.rising hr hf htime) rfl htime
      (by simp) hr rfl, hserved.snoc hlow ?_, Nat.zero_le _⟩
    rwa [if_pos hr]
  | risen k q hhigh => rw [hclk] at hhigh; cases hhigh
  | high k hhigh => rw [hclk] at hhigh; cases hhigh

/-- One in which it calls its elements afterwards. -/
theorem Standing.post (h : Standing c delay os us r x) (hclk : r.workspace.world.clk = true)
    (hpost : r.workspace.world.postCycle = true) (hhosts : Hosts c os us s' c.tooglePeriod)
    (hclk' : s'.world.clk = true) (hpost' : s'.world.postCycle = false)
    (hcalls : Round.Calls os us (c.simElements.map .postCycle) ⟨r.workspace, s', r.time + x⟩) :
    Standing c delay os us ⟨s', r.time + x, r.rounds ++ [⟨r.workspace, s', r.time + x⟩]⟩ c.tooglePeriod := by
  obtain ⟨-, hphase, hserved, -⟩ := h
  have hr : Round.rises ⟨r.workspace, s', r.time + x⟩ = false := by simp [Round.rises, hclk]
  have hf : Round.falls ⟨r.workspace, s', r.time + x⟩ = false := by simp [Round.falls, hclk']
  cases hphase with
  | low k hlow => rw [hclk] at hlow; cases hlow
  | risen k q _ _ hedges hx htime hlast hrises hq =>
    exact ⟨hhosts, .high k hclk' hpost' (hedges.none hr hf) (by dsimp only; omega) (by simpa using hr),
      hserved.snoc_risen hlast hrises hr (by dsimp only; omega) hcalls, Nat.le_max_right _ _⟩
  | high k _ hcalled => rw [hpost] at hcalled; cases hcalled

/-- One in which it lowers the clock. -/
theorem Standing.fall (h : Standing c delay os us r x) (hclk : r.workspace.world.clk = true)
    (hpost : r.workspace.world.postCycle = false) (hhosts : Hosts c os us s' c.tooglePeriod)
    (hclk' : s'.world.clk = false) (hcalls : Round.Calls os us [] ⟨r.workspace, s', r.time + x⟩) :
    Standing c delay os us ⟨s', r.time + x, r.rounds ++ [⟨r.workspace, s', r.time + x⟩]⟩ c.tooglePeriod := by
  obtain ⟨-, hphase, hserved, -⟩ := h
  have hr : Round.rises ⟨r.workspace, s', r.time + x⟩ = false := by simp [Round.rises, hclk]
  have hf : Round.falls ⟨r.workspace, s', r.time + x⟩ = true := by simp [Round.falls, hclk, hclk']
  cases hphase with
  | low k hlow => rw [hclk] at hlow; cases hlow
  | risen k q _ hrisen => rw [hpost] at hrisen; cases hrisen
  | high k _ _ hedges htime hlow =>
    refine ⟨hhosts, .low (k + 1) hclk' (hedges.falling hr hf htime) ?_ (by simpa using hr), hserved.snoc hlow ?_,
      Nat.le_max_right _ _⟩
    · rw [Nat.succ_mul]
      dsimp only
      omega
    · rwa [if_neg (by simp [hr])]

/-- **An iteration.** -/
theorem Standing.next (h : Standing c delay os us r x) (hhalf : c.tooglePeriod < 2 ^ 64)
    (hnext : r.next (ClockWorld.evaluate eval) = some r') : ∃ x', Standing c delay os us r' x' := by
  obtain ⟨s', hs', rfl⟩ := Run.next_eq_some.mp hnext
  cases h.hosts.next hs' with
  | wait hlt hhosts hiter =>
    obtain ⟨hclk, hpost, hcalls, -⟩ := hiter.acts
    exact ⟨_, h.wait hlt hhosts hclk hpost hcalls⟩
  | rise hx hlow hhosts hiter =>
    obtain ⟨hclk, hpost, hcalls, -⟩ := hiter.acts
    rw [hx]
    exact ⟨_, h.rise hlow hhosts hclk hpost hcalls⟩
  | post hx hhigh hrisen hhosts hiter =>
    obtain ⟨hclk, hpost, hcalls, -⟩ := hiter.acts
    rw [Nat.mod_eq_of_lt hhalf] at hhosts
    rw [hx]
    exact ⟨_, h.post hhigh hrisen hhosts hclk hpost hcalls⟩
  | fall hx hhigh hcalled hhosts hiter =>
    obtain ⟨hclk, -, hcalls, -⟩ := hiter.acts
    rw [Nat.mod_eq_of_lt hhalf] at hhosts
    rw [hx]
    exact ⟨_, h.fall hhigh hcalled hhosts hclk hcalls⟩

/-- What is done in an iteration makes the rest what it is after it. -/
theorem Hosts.rest (h : Hosts c os us s x) (hs : s.iteration (ClockWorld.evaluate eval) = some s') (t : ℕ) :
    s'.world.rest = (Round.acts ⟨s, s', t⟩).foldl (ClockAct.run c.preCycle c.postCycle eval) s.world.rest := by
  cases h.next hs with
  | wait _ _ hiter => exact hiter.acts.2.2.2
  | rise _ _ _ hiter => exact hiter.acts.2.2.2
  | post _ _ _ _ hiter => exact hiter.acts.2.2.2
  | fall _ _ _ _ hiter => exact hiter.acts.2.2.2

/-- The edges. -/
theorem Standing.edges (h : Standing c delay os us r x) :
    (∃ k, r.rises = (List.range k).map (fun i => delay + i * (2 * c.tooglePeriod)) ∧
        r.time ≤ delay + k * (2 * c.tooglePeriod)) ∧
      ∃ k, r.falls = (List.range k).map (fun i => delay + i * (2 * c.tooglePeriod) + c.tooglePeriod) ∧
        r.time ≤ delay + k * (2 * c.tooglePeriod) + c.tooglePeriod := by
  cases h.phase with
  | low k _ hedges htime => exact ⟨⟨k, hedges.rises, by omega⟩, ⟨k, hedges.falls, by omega⟩⟩
  | risen k q _ _ hedges _ htime =>
    exact ⟨⟨k + 1, hedges.rises, by rw [Nat.succ_mul]; omega⟩, ⟨k, hedges.falls, by omega⟩⟩
  | high k _ _ hedges htime =>
    exact ⟨⟨k + 1, hedges.rises, by rw [Nat.succ_mul]; omega⟩, ⟨k, hedges.falls, by omega⟩⟩

theorem Standing.start (c : ClockDomain ε τ) (os us : List (OtherProcess τ)) (rest : τ) (hdelay : delay < 2 ^ 64) :
    Standing c delay os us ⟨c.workspace delay os us rest, 0, []⟩ delay where
  hosts := ⟨_, _, _, rfl, OtherProcess.plays os, OtherProcess.plays us, rfl, rfl, Nat.mod_eq_of_lt hdelay, hdelay⟩
  phase := .low 0 rfl ⟨rfl, rfl⟩ (by simp) (by simp)
  served := ⟨by simp, by simp, by simp, by simp⟩
  le := Nat.le_max_left _ _

end PyOcdRiscv.Sim
