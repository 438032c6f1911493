import Mathlib.Algebra.Group.Nat.Defs
import Mathlib.Data.List.Chain
import Mathlib.Data.List.Forall2

/-!
# The simulator's loop

`Workspace::run` of `framework.h`. Each process asks to be woken after a delay; an iteration
looks for the shortest of them, takes it off all, ticks those that come to 0 one after the
other in the order of the list, and has the model evaluated. What the processes and the
model share is the world, a type `σ`.

`iteration_inv` is the rule for processes that always ask again: what holds of the world and
of the delays that are left holds throughout, if it survives the passing of time, the tick
of a process that is due, and an evaluation.
-/

namespace PyOcdRiscv.Sim

variable {σ : Type}

/-- A `TimeProcess`. -/
structure TimeProcess (σ : Type) where
  /-- `wakeDelay`, an unsigned number of 64 bits. -/
  wakeDelay : ℕ
  /-- `wakeEnable`. -/
  wakeEnable : Bool
  /-- `tick`: what it does to the world, and the delay of its last call of `schedule`, if it
  makes one. -/
  tick : σ → σ × Option ℕ

namespace TimeProcess

/-- `schedule`. -/
def schedule (p : TimeProcess σ) (delay : ℕ) : TimeProcess σ :=
  { p with wakeDelay := delay % 2 ^ 64, wakeEnable := true }

/-- The counter comes to 0. -/
def isDue (delay : ℕ) (p : TimeProcess σ) : Bool := (p.wakeDelay + (2 ^ 64 - delay)) % 2 ^ 64 == 0

/-- What an iteration does with a process: the body of its second loop. -/
def wake (delay : ℕ) (p : TimeProcess σ) (w : σ) : TimeProcess σ × σ :=
  let p := { p with wakeDelay := (p.wakeDelay + (2 ^ 64 - delay)) % 2 ^ 64 }
  if p.wakeDelay = 0 then
    let p := { p with wakeEnable := false }
    match p.tick w with
    | (w, none) => (p, w)
    | (w, some d) => (p.schedule d, w)
  else (p, w)

end TimeProcess

/-- The second loop of an iteration. -/
def wakeAll (delay : ℕ) : List (TimeProcess σ) → σ → List (TimeProcess σ) × σ
  | [], w => ([], w)
  | p :: ps, w =>
    let r := p.wake delay w
    let rs := wakeAll delay ps r.2
    (r.1 :: rs.1, rs.2)

/-- `~0l`. -/
def forever : ℕ := 2 ^ 64 - 1

/-- The first loop of an iteration, from the value `delay` on. -/
def nextDelay : List (TimeProcess σ) → ℕ → ℕ
  | [], delay => delay
  | p :: ps, delay => nextDelay ps (if p.wakeEnable = true ∧ p.wakeDelay < delay then p.wakeDelay else delay)

/-- A `Workspace`. -/
structure Workspace (σ : Type) where
  /-- `timeProcesses`. -/
  timeProcesses : List (TimeProcess σ)
  /-- What the processes and the model share. -/
  world : σ
  /-- `time`, an unsigned number of 64 bits. -/
  time : ℕ

/-- An iteration of `run`, with what `top->eval()` does to the world. If no process is to be
woken, it fails. -/
def Workspace.iteration (eval : σ → σ) (s : Workspace σ) : Option (Workspace σ) :=
  let delay := nextDelay s.timeProcesses forever
  if delay = forever then none
  else
    let r := wakeAll delay s.timeProcesses s.world
    some ⟨r.1, eval r.2, (s.time + delay) % 2 ^ 64⟩

/-- An iteration of a run: the workspace before and after it, and the time at which its second
loop ticks the processes, to which `time` is increased at its end. -/
structure Round (σ : Type) where
  before : Workspace σ
  after : Workspace σ
  time : ℕ

/-- A run: the workspace, the time that has passed and the iterations so far. -/
structure Run (σ : Type) where
  workspace : Workspace σ
  time : ℕ
  rounds : List (Round σ)

/-- One more iteration. -/
def Run.next (eval : σ → σ) (r : Run σ) : Option (Run σ) :=
  (r.workspace.iteration eval).map fun s =>
    let time := r.time + nextDelay r.workspace.timeProcesses forever
    ⟨s, time, r.rounds ++ [⟨r.workspace, s, time⟩]⟩

/-- `n` iterations of `run`. -/
def Workspace.run (eval : ℕ → σ → σ) (s : Workspace σ) : ℕ → Option (Run σ)
  | 0 => some ⟨s, 0, []⟩
  | n + 1 => (Workspace.run eval s n).bind (Run.next (eval n))

/-! ### Runs -/

theorem Workspace.iteration_eq_some {eval : σ → σ} {s s' : Workspace σ} :
    s.iteration eval = some s' ↔ nextDelay s.timeProcesses forever ≠ forever ∧
      s' = ⟨(wakeAll (nextDelay s.timeProcesses forever) s.timeProcesses s.world).1,
        eval (wakeAll (nextDelay s.timeProcesses forever) s.timeProcesses s.world).2,
        (s.time + nextDelay s.timeProcesses forever) % 2 ^ 64⟩ := by
  rw [Workspace.iteration]
  dsimp only
  split_ifs with h
  · exact iff_of_false (by simp) fun hne => hne.1 h
  · rw [Option.some.injEq, eq_comm]
    exact (and_iff_right h).symm

theorem Run.next_eq_some {eval : σ → σ} {r r' : Run σ} : r.next eval = some r' ↔
    ∃ s, r.workspace.iteration eval = some s ∧
      r' = ⟨s, r.time + nextDelay r.workspace.timeProcesses forever, r.rounds ++
        [⟨r.workspace, s, r.time + nextDelay r.workspace.timeProcesses forever⟩]⟩ := by
  rw [Run.next, Option.map_eq_some_iff]
  exact exists_congr fun s => and_congr_right fun _ => eq_comm

/-- **What every run keeps.** -/
theorem Workspace.run_inv {P : Run σ → Prop} {eval : ℕ → σ → σ} {s : Workspace σ} (hstart : P ⟨s, 0, []⟩)
    (hstep : ∀ n r r', P r → r.next (eval n) = some r' → P r') {n : ℕ} {r : Run σ}
    (h : s.run eval n = some r) : P r := by
  induction n generalizing r with
  | zero =>
    obtain rfl := Option.some.inj h
    exact hstart
  | succ n ih =>
    obtain ⟨r₀, h₀, hnext⟩ := Option.bind_eq_some_iff.mp h
    exact hstep n r₀ r (ih h₀) hnext

/-- `time` is the time that has passed, as far as 64 bits hold it. -/
theorem Workspace.run_time {eval : ℕ → σ → σ} {s : Workspace σ} (hs : s.time < 2 ^ 64) {n : ℕ} {r : Run σ}
    (h : s.run eval n = some r) : r.workspace.time = (s.time + r.time) % 2 ^ 64 := by
  refine Workspace.run_inv (P := fun r => r.workspace.time = (s.time + r.time) % 2 ^ 64) ?_ ?_ h
  · exact (Nat.mod_eq_of_lt hs).symm
  · intro n r r' hr hnext
    obtain ⟨s', hs', rfl⟩ := Run.next_eq_some.mp hnext
    obtain ⟨-, rfl⟩ := Workspace.iteration_eq_some.mp hs'
    dsimp only
    rw [hr]
    omega

/-! ### A turn -/

theorem TimeProcess.wake_tick (p : TimeProcess σ) (delay : ℕ) (w : σ) : (p.wake delay w).1.tick = p.tick := by
  rw [TimeProcess.wake]
  dsimp only
  split_ifs
  · split <;> rfl
  · rfl

theorem TimeProcess.wake_world (p : TimeProcess σ) (delay : ℕ) (w : σ) :
    (p.wake delay w).2 = if p.isDue delay then (p.tick w).1 else w := by
  rw [TimeProcess.wake, TimeProcess.isDue]
  simp only [beq_iff_eq]
  split_ifs
  · split
    · next h => rw [h]
    · next h => rw [h]
  · rfl

/-- The counter is compared with the shortest delay, modulo `2 ^ 64`. -/
theorem sub_eq_zero_iff {wakeDelay delay : ℕ} (hw : wakeDelay < 2 ^ 64) (hd : delay < 2 ^ 64) :
    (wakeDelay + (2 ^ 64 - delay)) % 2 ^ 64 = 0 ↔ wakeDelay = delay := by
  omega

/-- A process whose counter is the shortest delay is ticked, whether it is to be woken or not. -/
theorem TimeProcess.wake_of_eq {p : TimeProcess σ} {delay : ℕ} (hp : p.wakeDelay < 2 ^ 64)
    (heq : p.wakeDelay = delay) (w : σ) : p.wake delay w =
      ((p.tick w).2.elim { p with wakeDelay := 0, wakeEnable := false } p.schedule, (p.tick w).1) := by
  subst heq
  have hzero := (sub_eq_zero_iff hp hp).mpr rfl
  rw [TimeProcess.wake]
  dsimp only
  rw [hzero, if_pos rfl]
  split
  · next h => rw [h]; rfl
  · next h => rw [h]; rfl

theorem TimeProcess.wake_of_ne {p : TimeProcess σ} {delay : ℕ} (hp : p.wakeDelay < 2 ^ 64)
    (hd : delay < 2 ^ 64) (hne : p.wakeDelay ≠ delay) (w : σ) :
    p.wake delay w = ({ p with wakeDelay := (p.wakeDelay + (2 ^ 64 - delay)) % 2 ^ 64 }, w) := by
  rw [TimeProcess.wake]
  dsimp only
  rw [if_neg ((sub_eq_zero_iff hp hd).not.mpr hne)]

/-- The processes have their turns one after the other. -/
theorem wakeAll_append (delay : ℕ) (ps qs : List (TimeProcess σ)) (w : σ) : wakeAll delay (ps ++ qs) w =
    ((wakeAll delay ps w).1 ++ (wakeAll delay qs (wakeAll delay ps w).2).1,
      (wakeAll delay qs (wakeAll delay ps w).2).2) := by
  induction ps generalizing w with
  | nil => rfl
  | cons p ps ih => simp only [List.cons_append, wakeAll, ih]

theorem length_wakeAll (delay : ℕ) (ps : List (TimeProcess σ)) (w : σ) : (wakeAll delay ps w).1.length = ps.length := by
  induction ps generalizing w with
  | nil => rfl
  | cons p ps ih => exact congrArg (· + 1) (ih _)

theorem wakeAll_getElem? (delay : ℕ) (ps : List (TimeProcess σ)) (w : σ) (i : ℕ) :
    (wakeAll delay ps w).1[i]? = ps[i]?.map fun p => (p.wake delay (wakeAll delay (ps.take i) w).2).1 := by
  induction ps generalizing w i with
  | nil => rfl
  | cons p ps ih =>
    cases i with
    | zero => rfl
    | succ i => exact ih _ i

/-! ### The shortest delay -/

theorem nextDelay_le_start (ps : List (TimeProcess σ)) (delay : ℕ) : nextDelay ps delay ≤ delay := by
  induction ps generalizing delay with
  | nil => exact Nat.le_refl delay
  | cons p ps ih =>
    refine Nat.le_trans (ih _) ?_
    split_ifs with h
    · exact Nat.le_of_lt h.2
    · exact Nat.le_refl delay

/-- No process that is to be woken has a shorter one, -/
theorem nextDelay_le_of_mem {ps : List (TimeProcess σ)} {p : TimeProcess σ} (hp : p ∈ ps)
    (henable : p.wakeEnable = true) (delay : ℕ) : nextDelay ps delay ≤ p.wakeDelay := by
  induction ps generalizing delay with
  | nil => exact absurd hp List.not_mem_nil
  | cons q ps ih =>
    rw [nextDelay]
    rcases List.mem_cons.mp hp with rfl | hp
    · refine Nat.le_trans (nextDelay_le_start _ _) ?_
      split_ifs with h
      · exact Nat.le_refl _
      · exact Nat.not_lt.mp fun hlt => h ⟨henable, hlt⟩
    · exact ih hp _

/-- and unless it is the value it starts from, it is that of one of them. -/
theorem nextDelay_eq_or (ps : List (TimeProcess σ)) (delay : ℕ) : nextDelay ps delay = delay ∨
    ∃ p ∈ ps, p.wakeEnable = true ∧ p.wakeDelay = nextDelay ps delay := by
  induction ps generalizing delay with
  | nil => exact Or.inl rfl
  | cons p ps ih =>
    rw [nextDelay]
    rcases ih (if p.wakeEnable = true ∧ p.wakeDelay < delay then p.wakeDelay else delay) with h | ⟨q, hq, h⟩
    · rw [h]
      split_ifs with hp
      · exact Or.inr ⟨p, List.mem_cons_self, hp.1, rfl⟩
      · exact Or.inl rfl
    · exact Or.inr ⟨q, List.mem_cons_of_mem p hq, h⟩

/-! ### Processes that always ask again -/

/-- The process is to be woken after `d`. -/
def TimeProcess.Waits (p : TimeProcess σ) (d : ℕ) : Prop :=
  p.wakeEnable = true ∧ p.wakeDelay = d ∧ d < forever

theorem TimeProcess.Waits.wake {p : TimeProcess σ} {d delay : ℕ} (h : p.Waits d) (hd : delay ≤ d)
    (w : σ) : TimeProcess.wake delay p w =
      if d = delay then
        match p.tick w with
        | (w, none) => ({ p with wakeDelay := 0, wakeEnable := false }, w)
        | (w, some d) => (p.schedule d, w)
      else ({ p with wakeDelay := d - delay }, w) := by
  obtain ⟨-, rfl, hlt⟩ := h
  unfold forever at hlt
  by_cases heq : p.wakeDelay = delay
  · rw [if_pos heq, TimeProcess.wake_of_eq (by omega) heq]
    split
    · next h => rw [h]; rfl
    · next h => rw [h]; rfl
  · have hsub : (p.wakeDelay + (2 ^ 64 - delay)) % 2 ^ 64 = p.wakeDelay - delay := by omega
    rw [if_neg heq, TimeProcess.wake_of_ne (by omega) (by omega) heq, hsub]

theorem waits_of_mem {ps : List (TimeProcess σ)} {ds : List ℕ} (h : List.Forall₂ TimeProcess.Waits ps ds) :
    (∀ d ∈ ds, ∃ p ∈ ps, p.Waits d) ∧ ∀ p ∈ ps, ∃ d ∈ ds, p.Waits d := by
  induction h with
  | nil => simp
  | cons hp _ ih =>
    simp only [List.forall_mem_cons, List.exists_mem_cons_iff]
    exact ⟨⟨Or.inl hp, fun d hd => Or.inr (ih.1 d hd)⟩, Or.inl hp, fun p hp => Or.inr (ih.2 p hp)⟩

/-- The first loop finds a delay that no process exceeds, -/
theorem nextDelay_le {ps : List (TimeProcess σ)} {ds : List ℕ} (h : List.Forall₂ TimeProcess.Waits ps ds)
    (delay : ℕ) : ∀ d ∈ ds, nextDelay ps delay ≤ d := by
  intro d hd
  obtain ⟨p, hp, henable, rfl, -⟩ := (waits_of_mem h).1 d hd
  exact nextDelay_le_of_mem hp henable delay

/-- and it is one of theirs. -/
theorem nextDelay_mem {ps : List (TimeProcess σ)} {ds : List ℕ} (h : List.Forall₂ TimeProcess.Waits ps ds)
    (delay : ℕ) : nextDelay ps delay = delay ∨ nextDelay ps delay ∈ ds := by
  refine (nextDelay_eq_or ps delay).imp_right ?_
  rintro ⟨p, hp, -, heq⟩
  obtain ⟨d, hd, -, rfl, -⟩ := (waits_of_mem h).2 p hp
  exact heq ▸ hd

variable {P : σ → List ℕ → ℕ → Prop}

/-- **A process that is due keeps `P`**, and asks again. `pre` and `post` are the delays that
are left to the processes before and after it, and `t` is the time. -/
def Ticks (P : σ → List ℕ → ℕ → Prop) (tick : σ → σ × Option ℕ) (pre : ℕ) : Prop :=
  ∀ w ds₁ ds₂ t, ds₁.length = pre → P w (ds₁ ++ 0 :: ds₂) t →
    ∃ d, (tick w).2 = some d ∧ 0 < d ∧ d < forever ∧ P (tick w).1 (ds₁ ++ d :: ds₂) t

/-- The turn of a process, with `d'` to wait after it. -/
theorem TimeProcess.Waits.turn {p : TimeProcess σ} {d delay : ℕ} (h : p.Waits d) (hle : delay ≤ d) {ds₁ ds₂ : List ℕ}
    {w : σ} {t : ℕ} (htick : Ticks P p.tick ds₁.length) (hP : P w (ds₁ ++ (d - delay) :: ds₂) t) :
    ∃ d', (p.wake delay w).1.Waits d' ∧ 0 < d' ∧ (p.wake delay w).1.tick = p.tick ∧
      P (p.wake delay w).2 (ds₁ ++ d' :: ds₂) t := by
  rw [h.wake hle w]
  by_cases heq : d = delay
  · rw [if_pos heq]
    rw [heq, Nat.sub_self] at hP
    obtain ⟨d', hd', hpos, hlt, hP'⟩ := htick w ds₁ _ t rfl hP
    obtain ⟨w', o, htw⟩ : ∃ w' o, p.tick w = (w', o) := ⟨_, _, rfl⟩
    rw [htw] at hd' hP'
    obtain rfl : o = some d' := hd'
    rw [htw]
    refine ⟨d', ⟨rfl, Nat.mod_eq_of_lt ?_, hlt⟩, hpos, rfl, hP'⟩
    unfold forever at hlt
    omega
  · rw [if_neg heq]
    exact ⟨d - delay, ⟨h.1, rfl, Nat.lt_of_le_of_lt (Nat.sub_le d delay) h.2.2⟩, by omega, rfl, hP⟩

/-- The second loop: the processes before have had their turn. -/
theorem wakeAll_inv {ps : List (TimeProcess σ)} {ds : List ℕ} (h : List.Forall₂ TimeProcess.Waits ps ds)
    {delay : ℕ} (hdelay : ∀ d ∈ ds, delay ≤ d) {ds₁ : List ℕ} {w : σ} {t : ℕ}
    (htick : ∀ k p, ps[k]? = some p → Ticks P p.tick (ds₁.length + k))
    (hP : P w (ds₁ ++ ds.map (· - delay)) t) : ∃ ds',
      List.Forall₂ TimeProcess.Waits (wakeAll delay ps w).1 ds' ∧ P (wakeAll delay ps w).2 (ds₁ ++ ds') t ∧
        (∀ d ∈ ds', 0 < d) ∧ (wakeAll delay ps w).1.map TimeProcess.tick = ps.map TimeProcess.tick := by
  induction h generalizing ds₁ w with
  | nil => exact ⟨[], .nil, hP, by simp, rfl⟩
  | @cons p d ps ds hp hps ih =>
    have hle : delay ≤ d := hdelay d (by simp)
    have hrest : ∀ d' ∈ ds, delay ≤ d' := fun d' hd' => hdelay d' (List.mem_cons_of_mem d hd')
    rw [List.map_cons] at hP
    obtain ⟨d', hwaits, hpos, htick', hP'⟩ := hp.turn hle (htick 0 p rfl) hP
    have hassoc : ds₁ ++ d' :: ds.map (· - delay) = (ds₁ ++ [d']) ++ ds.map (· - delay) := by simp
    rw [hassoc] at hP'
    obtain ⟨ds', hall, hP'', hpos', hticks⟩ := ih hrest
      (fun k p' hk => by
        have := htick (k + 1) p' hk
        rwa [List.length_append, List.length_singleton, Nat.add_assoc, Nat.add_comm 1 k]) hP'
    rw [List.append_assoc] at hP''
    refine ⟨d' :: ds', .cons hwaits hall, hP'', ?_, ?_⟩
    · rintro x (_ | ⟨_, hx⟩)
      · exact hpos
      · exact hpos' x hx
    · exact congrArg₂ List.cons htick' hticks

/-- **What the loop keeps**: if `P` survives the passing of time, the ticks and an evaluation, an
iteration does not fail and leaves it, some time later. -/
theorem Workspace.iteration_inv {eval : σ → σ}
    (hpass : ∀ w ds t delay, (∀ d ∈ ds, delay ≤ d) → P w ds t → P w (ds.map (· - delay)) (t + delay))
    (heval : ∀ w ds t, P w ds t → P (eval w) ds t) {s : Workspace σ} {ds : List ℕ} (hne : ds ≠ [])
    (hs : List.Forall₂ TimeProcess.Waits s.timeProcesses ds) (hpos : ∀ d ∈ ds, 0 < d)
    (htick : ∀ k p, s.timeProcesses[k]? = some p → Ticks P p.tick k) {t : ℕ} (hP : P s.world ds t) :
    ∃ s' ds' t', s.iteration eval = some s' ∧ t < t' ∧
      s'.timeProcesses.map TimeProcess.tick = s.timeProcesses.map TimeProcess.tick ∧
      List.Forall₂ TimeProcess.Waits s'.timeProcesses ds' ∧ (∀ d ∈ ds', 0 < d) ∧ P s'.world ds' t' := by
  have hall := nextDelay_le hs forever
  have hlt : nextDelay s.timeProcesses forever < forever := by
    obtain ⟨d, hd⟩ := List.exists_mem_of_ne_nil ds hne
    obtain ⟨p, -, -, -, hd'⟩ := (waits_of_mem hs).1 d hd
    exact Nat.lt_of_le_of_lt (hall d hd) hd'
  have hmem := (nextDelay_mem hs forever).resolve_left (Nat.ne_of_lt hlt)
  have hP₀ := hpass s.world ds t _ hall hP
  rw [← List.nil_append (ds.map _)] at hP₀
  obtain ⟨ds', hwaits, hP', hpos', hticks⟩ := wakeAll_inv hs hall (fun k p hk => by simpa using htick k p hk) hP₀
  refine ⟨_, ds', t + nextDelay s.timeProcesses forever, if_neg (Nat.ne_of_lt hlt), ?_, hticks, hwaits,
    hpos', heval _ _ _ hP'⟩
  exact Nat.lt_add_of_pos_right (hpos _ hmem)

end PyOcdRiscv.Sim
