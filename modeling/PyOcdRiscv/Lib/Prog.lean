import Mathlib.Logic.Relation

/-!
# Programs over an interface

A layered driver is written in the operations of the layer below. `Prog I α` is
such a program: it calls operations of the interface `I`, one after the other,
each call chosen by the answers so far, and ends with an `α`. What an operation
does is left to a handler, so the same program can be run on a register-level
model of the device and on a bit-level one.

* `run` — by a handler that always answers, on a state `σ`.
* `exec` — by a handler that may fail, in `EStateM ε σ`.

A call can itself be a program of the layer below, with the attributes of the object
that makes the calls as a state of their own. `lower` is the whole program written out
in the layer below, and `through` the handler that runs a call there.

Three rules carry invariants from calls to programs: `run_inv` for an invariant of the
handler, and `Follows.run` and `Follows.steps` for a protocol, where what may be called
depends on an abstract state that the calls move. A `Follows` is established by walking
through the text of the program (`follows_bind`); `Follows.lower` takes it to the layer
below.
-/

namespace PyOcdRiscv.Lib

/-- An interface: its operations, and the type of the answer to each. -/
structure Interface where
  /-- The operations, with their arguments. -/
  Op : Type
  /-- The type of the answer. -/
  Res : Op → Type

/-- A program that calls the operations of `I`. -/
inductive Prog (I : Interface) (α : Type) : Type where
  /-- The end, with a result. -/
  | done (a : α)
  /-- A call, and what to do with its answer. -/
  | call (o : I.Op) (k : I.Res o → Prog I α)

namespace Prog

variable {I : Interface} {α β σ τ ε : Type}

/-- One program after another. -/
protected def bind : Prog I α → (α → Prog I β) → Prog I β
  | .done a, f => f a
  | .call o k, f => .call o fun r => (k r).bind f

instance : Monad (Prog I) where
  pure := Prog.done
  bind := Prog.bind

/-- A single call. -/
def op (o : I.Op) : Prog I (I.Res o) := .call o .done

/-! ### Running on a state -/

/-- Run by a handler that always answers. -/
def run (h : (o : I.Op) → σ → I.Res o × σ) : Prog I α → σ → α × σ
  | .done a, s => (a, s)
  | .call o k, s => run h (k (h o s).1) (h o s).2

variable {h : (o : I.Op) → σ → I.Res o × σ}

@[simp] theorem run_pure (a : α) (s : σ) : run h (pure a : Prog I α) s = (a, s) := rfl

@[simp] theorem run_op (o : I.Op) (s : σ) : run h (op o) s = h o s := rfl

@[simp] theorem run_bind (p : Prog I α) (f : α → Prog I β) (s : σ) :
    run h (p >>= f) s = run h (f (run h p s).1) (run h p s).2 := by
  change run h (p.bind f) s = _
  induction p generalizing s with
  | done a => rfl
  | call o k ih => exact ih _ _

theorem bind_done (p : Prog I α) : p >>= pure = p := by
  change p.bind _ = p
  induction p with
  | done a => rfl
  | call o k ih => exact congrArg (Prog.call o) (funext ih)

theorem assoc {γ : Type} (p : Prog I α) (f : α → Prog I β) (g : β → Prog I γ) :
    (p >>= f) >>= g = p >>= fun a => f a >>= g := by
  change (p.bind f).bind g = p.bind fun a => (f a).bind g
  induction p with
  | done a => rfl
  | call o k ih => exact congrArg (Prog.call o) (funext ih)

/-- **An invariant of the calls is one of the programs.** -/
theorem run_inv {P : σ → Prop} (hP : ∀ o s, P s → P (h o s).2) (p : Prog I α) {s : σ} (hs : P s) :
    P (run h p s).2 := by
  induction p generalizing s with
  | done a => exact hs
  | call o k ih => exact ih _ (hP o s hs)

/-! ### The layer below -/

variable {J : Interface}

/-- What a call does to the attributes `τ` of the object that makes it and to the state of
the layer below, when it is written as `l` there and the layer below is run by `g`. -/
def through (g : (o : J.Op) → σ → J.Res o × σ) (l : (o : I.Op) → τ → Prog J (I.Res o × τ)) (o : I.Op)
    (s : τ × σ) : I.Res o × (τ × σ) :=
  let r := run g (l o s.1) s.2
  (r.1.1, (r.1.2, r.2))

/-- The program written out in the layer below. It ends with the attributes it leaves. -/
def lower (l : (o : I.Op) → τ → Prog J (I.Res o × τ)) : Prog I α → τ → Prog J (α × τ)
  | .done a, t => pure (a, t)
  | .call o k, t => l o t >>= fun r => lower l (k r.1) r.2

theorem lower_op (l : (o : I.Op) → τ → Prog J (I.Res o × τ)) (o : I.Op) (t : τ) :
    lower l (op o) t = l o t := bind_done (l o t)

theorem lower_bind (l : (o : I.Op) → τ → Prog J (I.Res o × τ)) (p : Prog I α) (f : α → Prog I β)
    (t : τ) : lower l (p >>= f) t = lower l p t >>= fun r => lower l (f r.1) r.2 := by
  change lower l (p.bind f) t = _
  induction p generalizing t with
  | done a => rfl
  | call o k ih =>
    rw [Prog.bind, lower, lower, assoc]
    exact congrArg _ (funext fun r => ih r.1 r.2)

/-- Written out and run below, or run call by call. -/
theorem run_lower (g : (o : J.Op) → σ → J.Res o × σ) (l : (o : I.Op) → τ → Prog J (I.Res o × τ))
    (p : Prog I α) (t : τ) (s : σ) :
    run g (lower l p t) s =
      let r := run (through g l) p (t, s)
      ((r.1, r.2.1), r.2.2) := by
  induction p generalizing t s with
  | done a => rfl
  | call o k ih =>
    rw [lower, run_bind, ih]
    rfl

/-! ### The calls of a run -/

/-- The program, ending with the list of the calls it has made as well. -/
def traced : Prog I α → Prog I (α × List I.Op)
  | .done a => pure (a, [])
  | .call o k => .call o fun r => do
    let x ← traced (k r)
    return (x.1, o :: x.2)

/-- The calls of a run. -/
def callsOf (h : (o : I.Op) → σ → I.Res o × σ) (p : Prog I α) (s : σ) : List I.Op :=
  (run h (traced p) s).1.2

theorem run_traced_call (o : I.Op) (k : I.Res o → Prog I α) (s : σ) :
    run h (traced (.call o k)) s =
      let x := run h (traced (k (h o s).1)) (h o s).2
      ((x.1.1, o :: x.1.2), x.2) := by
  simp only [traced, run, run_bind, run_pure]

/-- Tracing does not change the run. -/
theorem run_traced (p : Prog I α) (s : σ) :
    run h (traced p) s = (((run h p s).1, callsOf h p s), (run h p s).2) := by
  induction p generalizing s with
  | done a => rfl
  | call o k ih =>
    rw [callsOf, run_traced_call, ih]
    rfl

@[simp] theorem callsOf_pure (a : α) (s : σ) : callsOf h (pure a : Prog I α) s = [] := rfl

@[simp] theorem callsOf_op (o : I.Op) (s : σ) : callsOf h (op o) s = [o] := rfl

@[simp] theorem callsOf_bind (p : Prog I α) (f : α → Prog I β) (s : σ) :
    callsOf h (p >>= f) s = callsOf h p s ++ callsOf h (f (run h p s).1) (run h p s).2 := by
  change callsOf h (p.bind f) s = _
  have hcall {γ : Type} (o : I.Op) (k : I.Res o → Prog I γ) (s : σ) :
      callsOf h (.call o k) s = o :: callsOf h (k (h o s).1) (h o s).2 := by
    rw [callsOf, run_traced_call]
    rfl
  induction p generalizing s with
  | done a => rfl
  | call o k ih => rw [Prog.bind, hcall, hcall, ih, run, List.cons_append]

/-! ### Running with failures -/

/-- Run by a handler that may fail. -/
def exec (h : (o : I.Op) → EStateM ε σ (I.Res o)) : Prog I α → EStateM ε σ α
  | .done a => pure a
  | .call o k => h o >>= fun r => exec h (k r)

/-- A step that succeeds, followed by another. -/
theorem bind_ok {x : EStateM ε σ α} {f : α → EStateM ε σ β} {s s' : σ} {a : α} (hx : x s = .ok a s') :
    (x >>= f) s = f a s' := by
  simp only [Bind.bind, EStateM.bind, hx]

variable {g : (o : I.Op) → EStateM ε σ (I.Res o)}

@[simp] theorem exec_pure (a : α) : exec g (pure a : Prog I α) = pure a := rfl

@[simp] theorem exec_op (o : I.Op) : exec g (op o) = g o := bind_pure (g o)

@[simp] theorem exec_bind (p : Prog I α) (f : α → Prog I β) :
    exec g (p >>= f) = exec g p >>= fun a => exec g (f a) := by
  change exec g (p.bind f) = _
  induction p with
  | done a => exact (pure_bind a fun a => exec g (f a)).symm
  | call o k ih =>
    simp only [Prog.bind, exec, bind_assoc]
    exact congrArg _ (funext fun r => ih r)

/-! ### Protocols -/

/-- `p` keeps to the protocol from the abstract state `t`: each operation it calls is
allowed where it is called, whatever the answers were, and it ends as `Q` says. -/
def Follows (allowed : τ → I.Op → Prop) (next : τ → I.Op → τ) :
    Prog I α → τ → (α → τ → Prop) → Prop
  | .done a, t, Q => Q a t
  | .call o k, t, Q => allowed t o ∧ ∀ r, Follows allowed next (k r) (next t o) Q

variable {allowed : τ → I.Op → Prop} {next : τ → I.Op → τ}

@[simp] theorem follows_pure (a : α) (t : τ) (Q : α → τ → Prop) :
    Follows allowed next (pure a : Prog I α) t Q ↔ Q a t := Iff.rfl

@[simp] theorem follows_op (o : I.Op) (t : τ) (Q : I.Res o → τ → Prop) :
    Follows allowed next (op o) t Q ↔ allowed t o ∧ ∀ r, Q r (next t o) := Iff.rfl

theorem Follows.mono {p : Prog I α} {t : τ} {Q Q' : α → τ → Prop} (h : Follows allowed next p t Q)
    (hQ : ∀ a t, Q a t → Q' a t) : Follows allowed next p t Q' := by
  induction p generalizing t with
  | done a => exact hQ _ _ h
  | call o k ih => exact ⟨h.1, fun r => ih r (h.2 r)⟩

theorem Follows.imp {allowed' : τ → I.Op → Prop} (ha : ∀ t o, allowed t o → allowed' t o) {p : Prog I α}
    {t : τ} {Q : α → τ → Prop} (h : Follows allowed next p t Q) : Follows allowed' next p t Q := by
  induction p generalizing t with
  | done a => exact h
  | call o k ih => exact ⟨ha t o h.1, fun r => ih r (h.2 r)⟩

@[simp] theorem follows_bind (p : Prog I α) (f : α → Prog I β) (t : τ) (Q : β → τ → Prop) :
    Follows allowed next (p >>= f) t Q ↔
      Follows allowed next p t fun a t => Follows allowed next (f a) t Q := by
  change Follows allowed next (p.bind f) t Q ↔ _
  induction p generalizing t with
  | done a => exact Iff.rfl
  | call o k ih => exact and_congr_right fun _ => forall_congr' fun r => ih r _

/-- Keeping to a protocol, and calling nothing but what `W` allows. -/
theorem Follows.and {W : I.Op → Prop} {p : Prog I α} {t : τ} {Q : α → τ → Prop}
    (h : Follows allowed next p t Q)
    (hW : Follows (fun (_ : Unit) o => W o) (fun _ _ => ()) p () fun _ _ => True) :
    Follows (fun t o => allowed t o ∧ W o) next p t Q := by
  induction p generalizing t with
  | done a => exact h
  | call o k ih => exact ⟨⟨h.1, hW.1⟩, fun r => ih r (h.2 r) (hW.2 r)⟩

/-- Tracing does not change the calls. -/
theorem Follows.traced {p : Prog I α} {t : τ} {Q : α → τ → Prop} (h : Follows allowed next p t Q) :
    Follows allowed next (traced p) t fun r => Q r.1 := by
  induction p generalizing t with
  | done a => exact h
  | call o k ih =>
    refine ⟨h.1, fun r => ?_⟩
    rw [follows_bind]
    exact (ih r (h.2 r)).mono fun _ _ hQ => hQ

/-- A program that keeps to the protocol ends where the protocol says, when each allowed
call moves the state as the protocol does. -/
theorem Follows.run {R : τ → σ → Prop} (hh : ∀ o t s, R t s → allowed t o → R (next t o) (h o s).2)
    {p : Prog I α} {t : τ} {s : σ} {Q : α → τ → Prop} (hp : Follows allowed next p t Q) (hs : R t s) :
    ∃ t', R t' (p.run h s).2 ∧ Q (p.run h s).1 t' := by
  induction p generalizing t s with
  | done a => exact ⟨t, hs, hp⟩
  | call o k ih => exact ih _ (hp.2 _) (hh o t s hs hp.1)

/-- **Refinement of handlers**: if each allowed call succeeds with the answer of a handler
that always answers, and keeps the states related, so does the program. -/
theorem Follows.exec_eq {ρ : Type} {f : (o : I.Op) → ρ → I.Res o × ρ} {R : τ → σ → ρ → Prop}
    (hg : ∀ o t s d, R t s d → allowed t o → ∃ s', g o s = .ok (f o d).1 s' ∧ R (next t o) s' (f o d).2)
    {p : Prog I α} {t : τ} {s : σ} {d : ρ} {Q : α → τ → Prop} (hp : Follows allowed next p t Q)
    (hs : R t s d) : ∃ t' s', p.exec g s = .ok (p.run f d).1 s' ∧ R t' s' (p.run f d).2 := by
  induction p generalizing t s d with
  | done a => exact ⟨t, s, rfl, hs⟩
  | call o k ih =>
    obtain ⟨s₁, h₁, hr⟩ := hg o t s d hs hp.1
    obtain ⟨t', s', h', hR⟩ := ih (f o d).1 (hp.2 _) hr
    exact ⟨t', s', by rw [Prog.exec, bind_ok h₁, h']; rfl, hR⟩

/-- What the calls of the layer above are written as keeps to the protocol of the layer
below, and then so does a program that is written out. -/
theorem Follows.lower {J : Interface} {υ : Type} {allowed' : υ → J.Op → Prop} {next' : υ → J.Op → υ}
    {l : (o : I.Op) → σ → Prog J (I.Res o × σ)} {R : τ → σ → υ → Prop}
    (hl : ∀ o t s u, R t s u → allowed t o →
      Follows allowed' next' (l o s) u fun r u' => R (next t o) r.2 u')
    {p : Prog I α} {t : τ} {s : σ} {u : υ} {Q : α → τ → Prop} (hp : Follows allowed next p t Q)
    (hR : R t s u) : Follows allowed' next' (lower l p s) u fun r u' => ∃ t', R t' r.2 u' ∧ Q r.1 t' := by
  induction p generalizing t s u with
  | done a => exact ⟨t, hR, hp⟩
  | call o k ih =>
    rw [Prog.lower, follows_bind]
    exact (hl o t s u hR hp.1).mono fun r u' hr => ih r.1 (hp.2 r.1) hr

/-! ### Runs call by call -/

/-- Every call of the run of `p` from `s` succeeds and does what `P` says, and the run ends
as `Q` says. -/
def Steps (g : (o : I.Op) → EStateM ε σ (I.Res o)) (P : I.Op → σ → σ → Prop) :
    Prog I α → σ → (α → σ → Prop) → Prop
  | .done a, s, Q => Q a s
  | .call o k, s, Q => ∃ r s', g o s = .ok r s' ∧ P o s s' ∧ Steps g P (k r) s' Q

theorem Steps.mono {P : I.Op → σ → σ → Prop} {p : Prog I α} {s : σ} {Q Q' : α → σ → Prop}
    (h : Steps g P p s Q) (hQ : ∀ a s, Q a s → Q' a s) : Steps g P p s Q' := by
  induction p generalizing s with
  | done a => exact hQ _ _ h
  | call o k ih =>
    obtain ⟨r, s₁, h₁, hP, hr⟩ := h
    exact ⟨r, s₁, h₁, hP, ih r hr⟩

/-- Such a run succeeds. -/
theorem Steps.exec {P : I.Op → σ → σ → Prop} {p : Prog I α} {s : σ} {Q : α → σ → Prop}
    (h : Steps g P p s Q) : ∃ a s', p.exec g s = .ok a s' ∧ Q a s' := by
  induction p generalizing s with
  | done a => exact ⟨a, s, rfl, h⟩
  | call o k ih =>
    obtain ⟨r, s₁, h₁, -, hr⟩ := h
    obtain ⟨a, s', h', hQ⟩ := ih r hr
    exact ⟨a, s', by rw [Prog.exec, bind_ok h₁, h'], hQ⟩

/-- **A program that keeps to the protocol does not fail**, and ends where the protocol
says, when each allowed call succeeds, does what `P` says and moves the state as the
protocol does. -/
theorem Follows.steps {R : τ → σ → Prop} {P : I.Op → σ → σ → Prop}
    (hg : ∀ o t s, R t s → allowed t o → ∃ r s', g o s = .ok r s' ∧ P o s s' ∧ R (next t o) s')
    {p : Prog I α} {t : τ} {s : σ} {Q : α → τ → Prop} (hp : Follows allowed next p t Q) (hs : R t s) :
    Steps g P p s fun a s' => ∃ t', R t' s' ∧ Q a t' := by
  induction p generalizing t s with
  | done a => exact ⟨t, hs, hp⟩
  | call o k ih =>
    obtain ⟨r, s₁, h₁, hP, hr⟩ := hg o t s hs hp.1
    exact ⟨r, s₁, h₁, hP, ih r (hp.2 r) hr⟩

end Prog

end PyOcdRiscv.Lib
