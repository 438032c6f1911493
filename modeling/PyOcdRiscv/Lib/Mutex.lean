import Mathlib.Logic.Function.Basic
import Mathlib.Logic.Relation

/-!
# A lock, and what it is for

What a lock does to those who share it, whatever it is made of: each of them takes it at
most once and gives it back, and it is taken only when nobody holds it. `safe` is the
property of every run, and of every program whose steps come to steps of a lock.
-/

namespace PyOcdRiscv.Lib

/-- Where one of those who share a lock is. -/
inductive Phase where
  /-- It has not had the lock yet. -/
  | before
  /-- It holds the lock. -/
  | holding
  /-- It has given the lock back. -/
  | after
  deriving DecidableEq, Repr

/-- A lock, and those who share it. -/
structure Mutex (ι : Type) where
  /-- Where each of them is. -/
  phase : ι → Phase
  /-- The lock is taken. -/
  taken : Bool

namespace Mutex

variable {ι : Type}

/-- One of them takes the lock or gives it back. -/
inductive Step [DecidableEq ι] : Mutex ι → Mutex ι → Prop where
  | acquire (i : ι) {s : Mutex ι} : s.phase i = .before → s.taken = false →
      Step s ⟨Function.update s.phase i .holding, true⟩
  | release (i : ι) {s : Mutex ι} : s.phase i = .holding →
      Step s ⟨Function.update s.phase i .after, false⟩

/-- **What a lock is for**: at most one holds it, and it is taken when one does. -/
structure Safe (s : Mutex ι) : Prop where
  unique : ∀ i j, s.phase i = .holding → s.phase j = .holding → i = j
  taken : s.taken = true ↔ ∃ i, s.phase i = .holding

/-- Nobody has had the lock yet. -/
def Free (s : Mutex ι) : Prop := (∀ i, s.phase i = .before) ∧ s.taken = false

theorem Free.safe {s : Mutex ι} (h : Free s) : Safe s where
  unique i j hi := absurd (hi.symm.trans (h.1 i)) (by decide)
  taken := by
    rw [h.2]
    refine ⟨fun hf => absurd hf (by decide), ?_⟩
    rintro ⟨i, hi⟩
    exact absurd (hi.symm.trans (h.1 i)) (by decide)

variable [DecidableEq ι]

theorem Step.safe {s s' : Mutex ι} (h : Step s s') (hs : Safe s) : Safe s' := by
  cases h with
  | acquire i hi hfree =>
    have hnone (j : ι) (hj : s.phase j = .holding) : False := by
      have htaken := hs.taken.mpr ⟨j, hj⟩
      rw [hfree] at htaken
      exact absurd htaken (by decide)
    have honly (j : ι) (hj : Function.update s.phase i .holding j = .holding) : j = i := by
      by_contra hne
      rw [Function.update_of_ne hne] at hj
      exact hnone j hj
    refine ⟨fun j k hj hk => (honly j hj).trans (honly k hk).symm, fun _ => ⟨i, ?_⟩, fun _ => rfl⟩
    exact Function.update_self ..
  | release i hi =>
    have hnone (j : ι) (hj : Function.update s.phase i .after j = .holding) : False := by
      by_cases hne : j = i
      · rw [hne, Function.update_self] at hj
        exact absurd hj (by decide)
      · rw [Function.update_of_ne hne] at hj
        exact hne (hs.unique j i hj hi)
    refine ⟨fun j k hj => (hnone j hj).elim, fun hf => absurd hf Bool.false_ne_true, ?_⟩
    rintro ⟨j, hj⟩
    exact (hnone j hj).elim

/-- **Every run of a lock is safe.** -/
theorem safe {s s' : Mutex ι} (hs : Free s) (h : Relation.ReflTransGen Step s s') : Safe s' := by
  induction h with
  | refl => exact hs.safe
  | tail _ hstep ih => exact hstep.safe ih

end Mutex

end PyOcdRiscv.Lib
