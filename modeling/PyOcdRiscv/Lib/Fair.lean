import Mathlib.Order.RelClasses

/-!
# Runs without end

The states of a run that does not end, and the rule that something happens in it: a rank that no step raises
and that falls at the steps of a kind of which there always comes another.
-/

namespace PyOcdRiscv.Lib

variable {Op γ ρ : Type}

/-- The states of a run. -/
def states (next : γ → Op → γ) (os : ℕ → Op) (g : γ) : ℕ → γ
  | 0 => g
  | n + 1 => next (states next os g n) (os n)

variable {ok : γ → Op → Prop} {next : γ → Op → γ} {os : ℕ → Op} {g : γ}

/-- What each step keeps holds all along. -/
theorem states_inv {I : γ → Prop} (hI : ∀ g o, ok g o → I g → I (next g o))
    (hok : ∀ n, ok (states next os g n) (os n)) (hg : I g) (n : ℕ) : I (states next os g n) := by
  induction n with
  | zero => exact hg
  | succ n ih => exact hI _ _ (hok n) ih

/-- **The rule of ranks**: if a step that does not reach the goal never raises the rank, and lowers it where it
is fair, the goal is reached. -/
theorem states_reach {lt : ρ → ρ → Prop} (hwf : WellFounded lt) {fair : γ → Op → Prop} (At : ρ → γ → Prop)
    (goal : γ → Prop)
    (hstep : ∀ r g o, At r g → ok g o → goal (next g o) ∨ ∃ r', At r' (next g o) ∧ (lt r' r ∨ r' = r ∧ ¬ fair g o))
    (hok : ∀ n, ok (states next os g n) (os n)) (hfair : ∀ n, ∃ m, n ≤ m ∧ fair (states next os g m) (os m)) {n : ℕ}
    {r : ρ} (hn : At r (states next os g n)) : ∃ k, n ≤ k ∧ goal (states next os g k) := by
  induction r using hwf.induction generalizing n with
  | _ r ih =>
    obtain ⟨m, hm, hfm⟩ := hfair n
    -- the rank stays at most until the fair step
    induction hd : m - n generalizing n with
    | zero =>
      obtain rfl : n = m := by omega
      rcases hstep r _ _ hn (hok n) with hgoal | ⟨r', hr', hlt | ⟨-, hnot⟩⟩
      · exact ⟨n + 1, n.le_succ, hgoal⟩
      · obtain ⟨k, hk, hgoal⟩ := ih r' hlt (n := n + 1) hr'
        exact ⟨k, by omega, hgoal⟩
      · exact absurd hfm hnot
    | succ d ihd =>
      rcases hstep r _ _ hn (hok n) with hgoal | ⟨r', hr', hlt | ⟨rfl, -⟩⟩
      · exact ⟨n + 1, n.le_succ, hgoal⟩
      · obtain ⟨k, hk, hgoal⟩ := ih r' hlt (n := n + 1) hr'
        exact ⟨k, by omega, hgoal⟩
      · obtain ⟨k, hk, hgoal⟩ := ihd (n := n + 1) hr' (by omega) (by omega)
        exact ⟨k, by omega, hgoal⟩

end PyOcdRiscv.Lib
