import Mathlib.Data.List.Basic

/-!
# Channels

A component that items go into and come out of: what a step does to its state, which
items it takes in and which it gives out. A channel keeps its items in order if what is in
it before a step and what the step takes in is what it gives out and what is in it after
(`Keeps`). Then that is so of every run (`Keeps.run`): nothing is lost, nothing comes out
twice, and the order is kept.
-/

namespace PyOcdRiscv.Lib

/-- A component with items going in and coming out. -/
structure Channel (σ ι α : Type) where
  /-- A step. -/
  step : σ → ι → σ
  /-- The items a step takes in. -/
  taken : σ → ι → List α
  /-- The items a step gives out. -/
  given : σ → ι → List α

namespace Channel

variable {σ ι α : Type} (C : Channel σ ι α)

/-- The state after a run. -/
def run (s : σ) (is : List ι) : σ := is.foldl C.step s

/-- The items a run takes in. -/
def allTaken : σ → List ι → List α
  | _, [] => []
  | s, i :: is => C.taken s i ++ allTaken (C.step s i) is

/-- The items a run gives out. -/
def allGiven : σ → List ι → List α
  | _, [] => []
  | s, i :: is => C.given s i ++ allGiven (C.step s i) is

@[simp] theorem run_nil (s : σ) : C.run s [] = s := rfl

@[simp] theorem run_cons (s : σ) (i : ι) (is : List ι) : C.run s (i :: is) = C.run (C.step s i) is := rfl

/-- An invariant of the channel, and the items that are in it, in order. -/
structure Keeps (Inv : σ → Prop) (held : σ → List α) : Prop where
  /-- The invariant is one. -/
  inv : ∀ {s}, Inv s → ∀ i, Inv (C.step s i)
  /-- No step loses an item, or makes one up, or lets one overtake another. -/
  held_step : ∀ {s}, Inv s → ∀ i, held s ++ C.taken s i = C.given s i ++ held (C.step s i)

namespace Keeps

variable {C} {Inv : σ → Prop} {held : σ → List α} (K : C.Keeps Inv held)
include K

theorem inv_run {s : σ} (hs : Inv s) (is : List ι) : Inv (C.run s is) := by
  induction is generalizing s with
  | nil => exact hs
  | cons i is ih => exact ih (K.inv hs i)

/-- **Every run keeps the items in order.** -/
theorem run {s : σ} (hs : Inv s) (is : List ι) :
    held s ++ C.allTaken s is = C.allGiven s is ++ held (C.run s is) := by
  induction is generalizing s with
  | nil => rw [allTaken, allGiven, List.append_nil, List.nil_append, run_nil]
  | cons i is ih =>
    rw [allTaken, allGiven, run_cons, ← List.append_assoc, K.held_step hs i, List.append_assoc, ih (K.inv hs i),
      List.append_assoc]

end Keeps

end Channel

end PyOcdRiscv.Lib
