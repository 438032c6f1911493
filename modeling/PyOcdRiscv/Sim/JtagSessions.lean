import PyOcdRiscv.Sim.JtagServer
import Mathlib.Data.List.Induction

/-!
# Clients of the simulator's JTAG server, one after the other

Whatever its socket calls answer. Neither `connectionReset` nor the acceptance of a client
empties the buffer, so bytes that an earlier client has left there are applied, and
answered, on the next one's connection. `own_iff` says when that does not happen: each
client has to be accepted with nothing left.
-/

namespace PyOcdRiscv.Sim

/-- What the client that was accepted last has sent as far as it is read, what of the bytes
applied since, and the bytes that its answers are to. An answer is to the byte applied last. -/
structure Session where
  received : List UInt8
  applied : List UInt8
  answered : List (Option UInt8)
  deriving DecidableEq, Repr

namespace Session

def next (t : Session) : Event → Session
  | .accepted _ => ⟨[], [], []⟩
  | .shutdown _ => t
  | .received bytes => { t with received := t.received ++ bytes }
  | .applied buffer => { t with applied := t.applied ++ [buffer] }
  | .replied _ => { t with answered := t.answered ++ [t.applied.getLast?] }

/-- The session after a list of events. -/
def after (es : List Event) : Session := es.foldl next ⟨[], [], []⟩

/-- **Every byte applied was sent by this client**, and every answer is to one of them. -/
def Own (t : Session) : Prop := t.applied <+: t.received ∧ t.answered.Sublist ((t.applied.filter asks).map some)

/-- A reset leaves it as it is. -/
theorem foldl_reset (c : Connection) (t : Session) : c.connectionReset.2.foldl next t = t := by
  unfold Connection.connectionReset
  cases c.clientHandle <;> rfl

end Session

namespace Jtag

/-- The ticks of a run, with what the calls of each answer and the level on TDO. -/
def run (is : List (Answers × Bool)) (s : Jtag) : Option (Jtag × List Event) :=
  is.foldlM (fun r i => (r.1.tick i.1 i.2).map fun q => (q.1, r.2 ++ q.2)) (s, [])

end Jtag

namespace Server

/-- The same of the queue. -/
def run (is : List (Answers × Bool)) (s : Server) : Server × List Event :=
  is.foldl (fun r i => ((r.1.tick i.1 i.2).1, r.2 ++ (r.1.tick i.1 i.2).2)) (s, [])

theorem run_concat (is : List (Answers × Bool)) (i : Answers × Bool) (s : Server) :
    s.run (is ++ [i]) = (((s.run is).1.tick i.1 i.2).1, (s.run is).2 ++ ((s.run is).1.tick i.1 i.2).2) := by
  rw [run, List.foldl_concat]
  rfl

end Server

/-- A run is that of the queue. -/
theorem Jtag.run_eq (rxBuffer : Vector UInt8 100) (is : List (Answers × Bool)) : ∃ s, s.Counts ∧
    (start rxBuffer).run is = some (s, (Server.run is ⟨⟨none, 0, 0⟩, []⟩).2) ∧
      s.server = (Server.run is ⟨⟨none, 0, 0⟩, []⟩).1 := by
  induction is using List.reverseRecOn with
  | nil => exact ⟨_, start_counts rxBuffer, rfl, rfl⟩
  | append_singleton is i ih =>
    obtain ⟨s, hs, hrun, hserver⟩ := ih
    obtain ⟨s', hs', htick, hserver', -⟩ := hs.tick_eq i.1 i.2
    refine ⟨s', hs', ?_, ?_⟩
    · unfold run at hrun ⊢
      rw [List.foldlM_append, hrun, Server.run_concat, ← hserver]
      simp [htick]
    · rw [hserver', hserver, Server.run_concat]

/-! ### Nothing is left -/

/-- **The server and the session**: while there is a client, what it has sent is applied or still in
the queue. -/
structure Tidy (s : Server) (t : Session) : Prop where
  own : t.Own
  queue : s.clientHandle ≠ none → t.applied ++ s.pending = t.received

/-- A client is accepted with nothing left. -/
def Server.Clean (o : Answers) (s : Server) : Prop := s.Due → o.accept ≠ none → s.pending = []

namespace Tidy

variable {s : Server} {t : Session} {o : Answers}

theorem checkNewConnections (h : Tidy s t) (ho : s.Clean o) :
    Tidy ⟨(s.checkNewConnections o).1, s.pending⟩ ((s.checkNewConnections o).2.foldl Session.next t) := by
  by_cases hc : s.Due
  · cases hacc : o.accept with
    | none =>
      rw [Connection.checkNewConnections_refused hc hacc]
      exact ⟨h.own, h.queue⟩
    | some n =>
      have hempty : s.pending = [] := ho hc (by simp [hacc])
      rw [Connection.checkNewConnections_accept hc hacc, List.foldl_concat, hempty]
      exact ⟨⟨List.nil_prefix, List.nil_sublist _⟩, fun _ => rfl⟩
  · rw [Connection.checkNewConnections_wait hc]
    exact ⟨h.own, h.queue⟩

theorem reset (h : Tidy s t) : Tidy ⟨s.connectionReset.1, s.pending⟩ (s.connectionReset.2.foldl Session.next t) := by
  rw [Session.foldl_reset]
  exact ⟨h.own, fun hc => absurd rfl hc⟩

/-- Once there is no client the queue is empty. -/
theorem receive (h : Tidy s t) (hc : s.clientHandle ≠ none) (o : Answers) :
    Tidy (s.receive o).1 ((s.receive o).2.foldl Session.next t) ∧
      ((s.receive o).1.pending ≠ [] → (s.receive o).1.clientHandle ≠ none) := by
  unfold Server.receive
  split_ifs with hp
  · cases o.ioctl with
    | none => exact ⟨h.reset, fun hne => absurd hp hne⟩
    | some n =>
      dsimp only
      split_ifs
      · cases o.read with
        | none => exact ⟨h.reset, fun hne => absurd hp hne⟩
        | some bs =>
          have hq := h.queue hc
          rw [hp, List.append_nil] at hq
          refine ⟨⟨⟨?_, h.own.2⟩, fun _ => congrArg (· ++ bs.1) hq⟩, fun _ => hc⟩
          exact h.own.1.trans (List.prefix_append _ _)
      · exact ⟨⟨h.own, h.queue⟩, fun hne => absurd hp hne⟩
  · exact ⟨h, fun _ => hc⟩

theorem apply (h : Tidy s t) (hc : s.pending ≠ [] → s.clientHandle ≠ none) (o : Answers) (tdo : Bool) :
    Tidy (s.apply o tdo).1 ((s.apply o tdo).2.foldl Session.next t) := by
  unfold Server.apply
  cases hp : s.pending with
  | nil => exact h
  | cons b bs =>
    have hclient := hc (by simp [hp])
    have hq := h.queue hclient
    rw [hp, ← List.singleton_append, ← List.append_assoc] at hq
    -- the session with the byte applied
    have hone : Tidy ⟨s.toConnection, bs⟩ (t.next (.applied b)) := by
      refine ⟨⟨⟨bs, hq⟩, ?_⟩, fun _ => hq⟩
      refine h.own.2.trans ?_
      change List.Sublist _ (((t.applied ++ [b]).filter asks).map some)
      rw [List.filter_append, List.map_append]
      exact List.sublist_append_left _ _
    dsimp only
    cases ha : asks b with
    | false => exact hone
    | true =>
      cases o.send with
      | false => exact hone.reset
      | true =>
        refine ⟨⟨hone.own.1, ?_⟩, hone.queue⟩
        change (t.answered ++ [(t.applied ++ [b]).getLast?]).Sublist (((t.applied ++ [b]).filter asks).map some)
        rw [List.getLast?_concat, List.filter_append, List.filter_singleton, ha, List.map_append]
        exact h.own.2.append (List.Sublist.refl _)

/-- **A tick.** -/
theorem tick (h : Tidy s t) (ho : s.Clean o) (tdo : Bool) :
    Tidy (s.tick o tdo).1 ((s.tick o tdo).2.foldl Session.next t) := by
  have hcheck := h.checkNewConnections ho
  by_cases hsleep : (s.checkNewConnections o).1.selfSleep = 0
  · by_cases hclient : (s.checkNewConnections o).1.clientHandle = none
    · rw [Server.tick_idle hsleep hclient]
      exact hcheck
    · obtain ⟨hreceive, hc⟩ := hcheck.receive hclient o
      rw [Server.tick_busy hsleep hclient, List.foldl_append, List.foldl_append]
      exact hreceive.apply hc o tdo
  · rw [Server.tick_asleep hsleep]
    exact ⟨hcheck.own, hcheck.queue⟩

end Tidy

/-- A run that accepts each client with nothing left. -/
theorem tidy_run {is : List (Answers × Bool)}
    (h : ∀ is₁ i is₂, is = is₁ ++ i :: is₂ → (Server.run is₁ ⟨⟨none, 0, 0⟩, []⟩).1.Clean i.1) :
    Tidy (Server.run is ⟨⟨none, 0, 0⟩, []⟩).1 (Session.after (Server.run is ⟨⟨none, 0, 0⟩, []⟩).2) := by
  induction is using List.reverseRecOn with
  | nil => exact ⟨⟨List.nil_prefix, List.nil_sublist _⟩, fun hc => absurd rfl hc⟩
  | append_singleton is i ih =>
    have hlast := h is i [] rfl
    have hrest := ih fun is₁ j is₂ heq => h is₁ j (is₂ ++ [i]) (by rw [heq, List.append_assoc, List.cons_append])
    rw [Server.run_concat, Session.after, List.foldl_append]
    exact hrest.tick hlast i.2

/-! ### Something is left -/

/-- **Where the server can be asleep with bytes left**: soon after it has looked for a client. -/
structure Paced (s : Server) : Prop where
  timer : s.checkNewConnectionsTimer < 5000
  sleep : s.pending = [] ∨ s.selfSleep = 0 ∨ s.selfSleep + s.checkNewConnectionsTimer ≤ 1000

namespace Paced

variable {s : Server} {o : Answers} {tdo : Bool}

theorem receive (h : Paced s) (hs : s.selfSleep = 0) (o : Answers) : Paced (s.receive o).1 := by
  unfold Server.receive
  split_ifs with hp
  · cases o.ioctl with
    | none => exact ⟨h.timer, h.sleep⟩
    | some n =>
      dsimp only
      split_ifs
      · cases o.read with
        | none => exact ⟨h.timer, h.sleep⟩
        | some bs => exact ⟨h.timer, Or.inr (Or.inl hs)⟩
      · exact ⟨h.timer, Or.inl hp⟩
  · exact h

theorem apply (h : Paced s) (o : Answers) (tdo : Bool) : Paced (s.apply o tdo).1 := by
  unfold Server.apply
  cases hp : s.pending with
  | nil => exact h
  | cons b bs =>
    have hsleep := h.sleep.resolve_left (by simp [hp])
    dsimp only
    split_ifs
    · exact ⟨h.timer, Or.inr hsleep⟩
    · exact ⟨h.timer, Or.inr hsleep⟩
    · exact ⟨h.timer, Or.inr hsleep⟩

/-- The first part of a tick takes the counter on by one, or sends it back. -/
theorem checkNewConnections (h : Paced s) (o : Answers) :
    s.pending = [] ∨ (s.checkNewConnections o).1.selfSleep = 0 ∨
      (s.checkNewConnections o).1.selfSleep + (s.checkNewConnections o).1.checkNewConnectionsTimer ≤ 1001 := by
  have htimer := h.timer
  by_cases hc : s.Due
  · cases hacc : o.accept with
    | none =>
      rw [Connection.checkNewConnections_refused hc hacc]
      by_cases hclient : s.clientHandle = none
      · exact Or.inr (Or.inr (by rw [if_pos hclient]; exact Nat.le_succ 1000))
      · rw [if_neg hclient]
        exact h.sleep.imp_right (Or.imp_right fun hle => by dsimp only; omega)
    | some n =>
      rw [Connection.checkNewConnections_accept hc hacc]
      exact h.sleep.imp_right (Or.imp_right fun hle => by dsimp only; omega)
  · rw [Connection.checkNewConnections_wait hc]
    exact h.sleep.imp_right (Or.imp_right fun hle => by dsimp only; omega)

theorem tick (h : Paced s) : Paced (s.tick o tdo).1 := by
  have htimer := Connection.checkNewConnections_timer h.timer o
  have hsleep := h.checkNewConnections o
  by_cases hzero : (s.checkNewConnections o).1.selfSleep = 0
  · have hpaced : Paced ⟨(s.checkNewConnections o).1, s.pending⟩ := ⟨htimer, Or.inr (Or.inl hzero)⟩
    by_cases hclient : (s.checkNewConnections o).1.clientHandle = none
    · rw [Server.tick_idle hzero hclient]
      exact hpaced
    · rw [Server.tick_busy hzero hclient]
      exact (hpaced.receive hzero o).apply o tdo
  · rw [Server.tick_asleep hzero]
    refine ⟨htimer, hsleep.imp_right fun h => Or.inr ?_⟩
    have hle := h.resolve_left hzero
    dsimp only
    omega

/-- At the tick that looks for a client it is not. -/
theorem awake (h : Paced s) (hdue : s.Due) (hp : s.pending ≠ []) : s.selfSleep = 0 := by
  have htimer := (Connection.due_iff h.timer).mp hdue
  have hsleep := h.sleep.resolve_left hp
  omega

end Paced

theorem paced_run (is : List (Answers × Bool)) : Paced (Server.run is ⟨⟨none, 0, 0⟩, []⟩).1 := by
  induction is using List.reverseRecOn with
  | nil => exact ⟨Nat.zero_lt_succ _, Or.inl rfl⟩
  | append_singleton is i ih =>
    rw [Server.run_concat]
    exact ih.tick

/-- **The tick that accepts a client applies what is left.** -/
theorem Paced.tick_not_own {s : Server} (h : Paced s) {o : Answers} {n : ℕ} (hdue : s.Due)
    (ho : o.accept = some n) (hp : s.pending ≠ []) (t : Session) (tdo : Bool) :
    ¬ ((s.tick o tdo).2.foldl Session.next t).Own := by
  have hawake := h.awake hdue hp
  have hcheck := Connection.checkNewConnections_accept hdue ho
  have hsleep : (s.checkNewConnections o).1.selfSleep = 0 := by rw [hcheck]; exact hawake
  have hclient : (s.checkNewConnections o).1.clientHandle ≠ none := by rw [hcheck]; exact Option.some_ne_none n
  -- the new session
  have hnew : (s.checkNewConnections o).2.foldl Session.next t = ⟨[], [], []⟩ := by
    rw [hcheck, List.foldl_concat]
    rfl
  rw [Server.tick_busy hsleep hclient, List.foldl_append, List.foldl_append, hnew, Server.receive, if_neg hp,
    Server.apply]
  cases hq : s.pending with
  | nil => exact absurd hq hp
  | cons b bs =>
    have hstray (as : List (Option UInt8)) : ¬ Session.Own ⟨[], [b], as⟩ := fun hown =>
      List.cons_ne_nil _ _ (List.prefix_nil.mp hown.1)
    dsimp only
    split_ifs with hasks hsend
    · exact hstray _
    · rw [List.foldl_cons, Session.foldl_reset]
      exact hstray _
    · exact hstray _

/-- A client is accepted with nothing left. -/
def Jtag.Clean (o : Answers) (s : Jtag) : Prop := s.Due → o.accept ≠ none → s.rxBufferRemaining = 0

theorem Jtag.Counts.clean_iff {s : Jtag} (h : s.Counts) (o : Answers) : s.Clean o ↔ s.server.Clean o := by
  unfold Jtag.Clean Server.Clean
  rw [← h.pending_eq_nil]
  rfl

/-- **Each client's connection is its own**, throughout a run, if and only if each client is
accepted with nothing left of the one before. -/
theorem own_iff (rxBuffer : Vector UInt8 100) (is : List (Answers × Bool)) :
    (∀ is₁ i is₂, is = is₁ ++ i :: is₂ → ∃ s es, (Jtag.start rxBuffer).run is₁ = some (s, es) ∧ s.Clean i.1) ↔
      ∀ is₁, is₁ <+: is → ∃ s es, (Jtag.start rxBuffer).run is₁ = some (s, es) ∧ (Session.after es).Own := by
  constructor
  · intro h is₁ hpre
    obtain ⟨is₂, rfl⟩ := hpre
    obtain ⟨s, hs, hrun, hserver⟩ := Jtag.run_eq rxBuffer is₁
    refine ⟨s, _, hrun, (tidy_run fun is₀ i is₃ heq => ?_).own⟩
    obtain ⟨s', es', hrun', hclean⟩ := h is₀ i (is₃ ++ is₂) (by rw [heq, List.append_assoc, List.cons_append])
    obtain ⟨s₀, hs₀, hrun₀, hserver₀⟩ := Jtag.run_eq rxBuffer is₀
    obtain ⟨rfl, rfl⟩ := Prod.mk.inj (Option.some.inj (hrun₀.symm.trans hrun'))
    rw [← hserver₀]
    exact (hs₀.clean_iff i.1).mp hclean
  · intro h is₁ i is₂ heq
    obtain ⟨s, hs, hrun, hserver⟩ := Jtag.run_eq rxBuffer is₁
    refine ⟨s, _, hrun, (hs.clean_iff i.1).mpr fun hdue hacc => ?_⟩
    obtain ⟨n, hn⟩ := Option.ne_none_iff_exists'.mp hacc
    by_contra hp
    have hnext : is₁ ++ [i] <+: is := ⟨is₂, by rw [heq, List.append_assoc, List.singleton_append]⟩
    obtain ⟨s', es', hrun', hown⟩ := h _ hnext
    obtain ⟨s₀, hs₀, hrun₀, hserver₀⟩ := Jtag.run_eq rxBuffer (is₁ ++ [i])
    obtain ⟨rfl, rfl⟩ := Prod.mk.inj (Option.some.inj (hrun₀.symm.trans hrun'))
    rw [Server.run_concat, Session.after, List.foldl_append, ← hserver] at hown
    refine (hserver ▸ paced_run is₁).tick_not_own hdue hn hp _ _ hown

/-! ### A second client while the first is served -/

/-- A tick without news: nobody connects and there is nothing to be read. -/
def quiet : Answers × Bool := (⟨none, some 0, none, true⟩, false)

/-- A tick at which the two bytes of a call can be read, which moves TMS and reads TDO. -/
def calling (accept : Option ℕ) : Answers × Bool := (⟨accept, some 2, some ⟨[1, 13], by decide⟩, true⟩, false)

/-- A client is accepted when the server looks for one the first time, makes four calls, and a
fifth right before the server looks again and accepts a second client. -/
def twoClients : List (Answers × Bool) :=
  List.replicate 4999 quiet ++
    [calling (some 3), quiet, calling none, quiet, calling none, quiet, calling none, quiet] ++
      List.replicate 4991 quiet ++ [calling none] ++ [(⟨some 4, some 0, none, true⟩, false)]

theorem Server.run_append_fst (is js : List (Answers × Bool)) (s : Server) :
    (s.run (is ++ js)).1 = ((s.run is).1.run js).1 := by
  induction js using List.reverseRecOn with
  | nil => rw [List.append_nil]; rfl
  | append_singleton js j ih => rw [← List.append_assoc, Server.run_concat, Server.run_concat, ih]

/-- A tick without news, without a client or with one. -/
theorem Server.tick_quiet {t : ℕ} (ht : t < 4999) (client : Option ℕ) (sleep : ℕ) :
    (Server.tick quiet.1 quiet.2 ⟨⟨client, sleep, t⟩, []⟩).1 =
      ⟨⟨client, if sleep = 0 ∧ client ≠ none then 30 else sleep - 1, t + 1⟩, []⟩ := by
  have hnext : (t + 1) % 2 ^ 32 = t + 1 := by omega
  have hcheck : Connection.checkNewConnections quiet.1 ⟨client, sleep, t⟩ = (⟨client, sleep, t + 1⟩, []) := by
    rw [Connection.checkNewConnections_wait (by unfold Connection.Due; dsimp only; omega), hnext]
  unfold Server.tick
  simp only [hcheck]
  by_cases hs : sleep = 0
  · cases client with
    | none => simp [hs]
    | some h => simp [hs, Server.receive, Server.apply, quiet]
  · simp [hs]

theorem Server.run_quiet {n : ℕ} (hn : n < 5000) :
    (Server.run (List.replicate n quiet) ⟨⟨none, 0, 0⟩, []⟩).1 = ⟨⟨none, 0, n⟩, []⟩ := by
  induction n with
  | zero => rfl
  | succ n ih =>
    rw [List.replicate_succ', Server.run_concat, ih (by omega)]
    exact Server.tick_quiet (by omega) none 0

/-- With a client, the server looks every 31 ticks whether there is something to be read. -/
theorem Server.run_quiet_client (h t : ℕ) {n : ℕ} (hn : t + n < 5000) :
    ∃ sleep, sleep ≤ 30 ∧ (sleep + n) % 31 = 0 ∧
      (Server.run (List.replicate n quiet) ⟨⟨some h, 0, t⟩, []⟩).1 = ⟨⟨some h, sleep, t + n⟩, []⟩ := by
  induction n with
  | zero => exact ⟨0, Nat.zero_le 30, rfl, rfl⟩
  | succ n ih =>
    obtain ⟨sleep, hle, hmod, hrun⟩ := ih (by omega)
    have hnext := Server.tick_quiet (show t + n < 4999 by omega) (some h) sleep
    rw [List.replicate_succ', Server.run_concat, hrun]
    refine ⟨_, ?_, ?_, hnext⟩
    · split_ifs <;> omega
    · split_ifs with hs
      · omega
      · have : sleep ≠ 0 := fun h0 => hs ⟨h0, by simp⟩
        omega

/-- Before the server looks for the second client, a byte of the first one's is left. -/
theorem run_twoClients_left : (Server.run
    (List.replicate 4999 quiet ++
      [calling (some 3), quiet, calling none, quiet, calling none, quiet, calling none, quiet] ++
        List.replicate 4991 quiet ++ [calling none]) ⟨⟨none, 0, 0⟩, []⟩).1 = ⟨⟨some 3, 0, 4999⟩, [13]⟩ := by
  have hcalls : (Server.run [calling (some 3), quiet, calling none, quiet, calling none, quiet, calling none, quiet]
      ⟨⟨none, 0, 4999⟩, []⟩).1 = ⟨⟨some 3, 0, 7⟩, []⟩ := rfl
  obtain ⟨sleep, hle, hmod, hrun⟩ := Server.run_quiet_client 3 7 (show 7 + 4991 < 5000 by decide)
  have hawake : sleep = 0 := by omega
  rw [Server.run_append_fst, Server.run_append_fst, Server.run_append_fst, Server.run_quiet (by decide), hcalls,
    hrun, hawake]
  rfl

/-- The second client is answered for the first one's last byte. -/
theorem second_client_not_own : ∃ s es,
    (Jtag.start (Vector.replicate 100 0)).run twoClients = some (s, es) ∧ ¬ (Session.after es).Own := by
  obtain ⟨s, -, hrun, -⟩ := Jtag.run_eq (Vector.replicate 100 0) twoClients
  refine ⟨s, _, hrun, ?_⟩
  have hpaced : Paced ⟨⟨some 3, 0, 4999⟩, [13]⟩ := ⟨by decide, Or.inr (Or.inl rfl)⟩
  rw [twoClients, Server.run_concat, run_twoClients_left, Session.after, List.foldl_append]
  exact hpaced.tick_not_own rfl rfl (List.cons_ne_nil _ _) _ false

end PyOcdRiscv.Sim
