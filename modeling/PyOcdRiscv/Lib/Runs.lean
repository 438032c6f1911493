import Mathlib.Logic.Basic

/-!
# Runs and their traces

A component that answers calls: `step o s` is the answer to `o` in state `s` and the
state after it. `trace` is everything that can be observed of a run, call by call,
and `Along` says that each call of a run meets a condition, which may depend on a
ghost state that the calls move.

`trace_eq` is the rule that one component refines another over such runs: a relation
between their states that each call keeps, and under which each call is observed
alike.
-/

namespace PyOcdRiscv.Lib

variable {Op Ans Ans₁ Ans₂ Obs σ σ₁ σ₂ γ : Type}

/-- The state after a run. -/
def final (step : Op → σ → Ans × σ) : List Op → σ → σ
  | [], s => s
  | o :: os, s => final step os (step o s).2

/-- What is observed of a run: of each call, of its answer and of the state it leaves. -/
def trace (step : Op → σ → Ans × σ) (obs : Op → Ans × σ → Obs) : List Op → σ → List Obs
  | [], _ => []
  | o :: os, s => obs o (step o s) :: trace step obs os (step o s).2

/-- Each call of the run is `ok` where it is made. -/
def Along (ok : γ → Op → Prop) (next : γ → Op → γ) : List Op → γ → Prop
  | [], _ => True
  | o :: os, g => ok g o ∧ Along ok next os (next g o)

variable {ok : γ → Op → Prop} {next : γ → Op → γ}

instance Along.decidable [∀ g o, Decidable (ok g o)] :
    ∀ (os : List Op) (g : γ), Decidable (Along ok next os g)
  | [], _ => .isTrue trivial
  | _ :: os, g => @instDecidableAnd _ _ _ (Along.decidable os (next g _))

/-- A condition on the calls alone. -/
theorem along_of_forall_mem {ok : Op → Prop} {os : List Op} (h : ∀ o ∈ os, ok o) :
    Along (fun (_ : Unit) o => ok o) (fun _ _ => ()) os () := by
  induction os with
  | nil => trivial
  | cons o os ih =>
    exact ⟨h o List.mem_cons_self, ih fun o' ho' => h o' (List.mem_cons_of_mem o ho')⟩

/-- **The invariant rule**: what each step that meets the condition keeps holds at the end of a
run whose steps all meet it. -/
theorem Along.inv {I : γ → Prop} (hI : ∀ g o, ok g o → I g → I (next g o)) {os : List Op} {g : γ}
    (ha : Along ok next os g) (hg : I g) : I (os.foldl next g) := by
  induction os generalizing g with
  | nil => exact hg
  | cons o os ih => exact ih ha.2 (hI g o ha.1 hg)

/-- What each call of this run keeps. -/
theorem final_inv_mem {step : Op → σ → Ans × σ} {I : σ → Prop} {os : List Op} {s : σ}
    (hI : ∀ o ∈ os, ∀ s, I s → I (step o s).2) (hs : I s) : I (final step os s) := by
  induction os generalizing s with
  | nil => exact hs
  | cons o os ih =>
    exact ih (fun o' ho' => hI o' (List.mem_cons_of_mem o ho')) (hI o List.mem_cons_self s hs)

/-- What each call keeps holds at the end of the run. -/
theorem final_inv {step : Op → σ → Ans × σ} {I : σ → Prop} (hI : ∀ o s, I s → I (step o s).2)
    (os : List Op) {s : σ} (hs : I s) : I (final step os s) :=
  final_inv_mem (fun o _ => hI o) hs

theorem final_append (step : Op → σ → Ans × σ) (os₁ os₂ : List Op) (s : σ) :
    final step (os₁ ++ os₂) s = final step os₂ (final step os₁ s) := by
  induction os₁ generalizing s with
  | nil => rfl
  | cons o os ih => exact ih _

/-- **Refinement over runs**: two components that stay related are observed alike. -/
theorem Along.trace_eq {step₁ : Op → σ₁ → Ans₁ × σ₁} {step₂ : Op → σ₂ → Ans₂ × σ₂}
    {obs₁ : Op → Ans₁ × σ₁ → Obs} {obs₂ : Op → Ans₂ × σ₂ → Obs} {R : γ → σ₁ → σ₂ → Prop}
    (hR : ∀ g o s t, R g s t → ok g o →
      obs₁ o (step₁ o s) = obs₂ o (step₂ o t) ∧ R (next g o) (step₁ o s).2 (step₂ o t).2)
    {os : List Op} {g : γ} {s : σ₁} {t : σ₂} (ha : Along ok next os g) (hs : R g s t) :
    trace step₁ obs₁ os s = trace step₂ obs₂ os t := by
  induction os generalizing g s t with
  | nil => rfl
  | cons o os ih =>
    obtain ⟨ho, hn⟩ := hR g o s t hs ha.1
    rw [trace, trace, ho, ih ha.2 hn]

end PyOcdRiscv.Lib
