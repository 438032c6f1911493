import PyOcdRiscv.Lib.Tap
import PyOcdRiscv.Jtag.BitSequence

/-!
# The engine's picture of the TAP

`JtagStateMachine` of `pyftdi/jtag.py`: the state the engine believes the TAP to be
in, and the search for the shortest sequence of TMS values from one state to
another. The states and their exits are those of the port itself (`getx_eq`); the
search is the source's, over all paths that do not meet a state twice.

`search_finds` says what the search is for: from every state to every other it
finds a path, and its events lead there.
-/

namespace PyOcdRiscv.Jtag

open Lib

/-- What can go wrong in a call: the exceptions the code raises, and a loop that does
not end. -/
inductive Fault where
  /-- `JtagError("Invalid path")`. -/
  | invalidPath
  /-- `JtagError("Invalid state: ..")`. -/
  | invalidState
  /-- `Exception("length > 63 bytes")`. -/
  | tooLong
  /-- `IndexError`, the last item of an empty sequence. -/
  | indexError
  /-- A `while` loop that makes no progress. -/
  | hang
  deriving DecidableEq, Repr

namespace JtagStateMachine

/-- The modes of a state that the program asks for (`state_of`). -/
inductive Mode where
  | shift | capture
  deriving DecidableEq

/-- `is_of`: the table of modes of `JtagStateMachine.__init__`. -/
def isOf : Mode → TapState → Bool
  | .shift, s => s ∈ [.captureDr, .shiftDr, .exit2Dr, .captureIr, .shiftIr, .exit2Ir]
  | .capture, s => s ∈ [.captureDr, .captureIr]

/-- The exits of a state: `setx(fstate, tstate)`. -/
def exits : TapState → TapState × TapState
  | .testLogicReset => (.runTestIdle, .testLogicReset)
  | .runTestIdle => (.runTestIdle, .selectDrScan)
  | .selectDrScan => (.captureDr, .selectIrScan)
  | .captureDr => (.shiftDr, .exit1Dr)
  | .shiftDr => (.shiftDr, .exit1Dr)
  | .exit1Dr => (.pauseDr, .updateDr)
  | .pauseDr => (.pauseDr, .exit2Dr)
  | .exit2Dr => (.shiftDr, .updateDr)
  | .updateDr => (.runTestIdle, .selectDrScan)
  | .selectIrScan => (.captureIr, .testLogicReset)
  | .captureIr => (.shiftIr, .exit1Ir)
  | .shiftIr => (.shiftIr, .exit1Ir)
  | .exit1Ir => (.pauseIr, .updateIr)
  | .pauseIr => (.pauseIr, .exit2Ir)
  | .exit2Ir => (.shiftIr, .updateIr)
  | .updateIr => (.runTestIdle, .selectDrScan)

/-- `getx`: the exit an event takes. -/
def getx (s : TapState) (event : Bool) : TapState := if event then (exits s).2 else (exits s).1

/-- The exits are the port's. -/
@[simp] theorem getx_eq (s : TapState) (event : Bool) : getx s event = s.next event := by
  cases s <;> cases event <;> rfl

/-- The first of the shortest paths: `min` by length. -/
def shortest : List (List TapState) → List TapState
  | [] => []
  | p :: ps => ps.foldl (fun best q => if q.length < best.length then q else best) p

/-- `next_path`, the search inside `find_path`, to a depth of at most `n` states. -/
def nextPath : ℕ → TapState → TapState → List TapState → List TapState
  | 0, _, _, _ => []
  | n + 1, state, target, path =>
    if state = target then path ++ [state]
    else
      let npath (x : TapState) : List TapState :=
        -- a loop around, or a loop back, kills the path
        if x = state ∨ x ∈ path then [] else nextPath n x target (path ++ [state])
      shortest (([npath (exits state).1, npath (exits state).2]).filter (· ≠ []))

/-- `find_path`: a path that meets no state twice has at most sixteen states. -/
def findPath (target source : TapState) : List TapState := nextPath 16 source target []

/-- The events that take state `s` to state `d`, in one step. -/
def stepEvents (s d : TapState) : List Bool :=
  (if (exits s).1 = d then [false] else []) ++ if (exits s).2 = d then [true] else []

/-- `get_events`: the TMS values along a path. -/
def getEvents (path : List TapState) : Except Fault BitSequence :=
  let events := (path.zip path.tail).flatMap fun sd => stepEvents sd.1 sd.2
  if events.length + 1 ≠ path.length then .error .invalidPath else .ok events

/-- `handle_events`. -/
def handleEvents (s : TapState) (events : BitSequence) : TapState := events.foldl getx s

/-! ### The search is deep enough -/

theorem length_lt_of_nodup {path : List TapState} {s : TapState} (hp : path.Nodup) (hs : s ∉ path) :
    path.length < 16 := by
  have hn : (s :: path).Nodup := List.nodup_cons.mpr ⟨hs, hp⟩
  have := List.Nodup.length_le_card hn
  rw [List.length_cons, show Fintype.card TapState = 16 from rfl] at this
  omega

/-- Searching deeper than sixteen states finds the same path. -/
theorem nextPath_deep {n m : ℕ} (hnm : n ≤ m) {state target : TapState} {path : List TapState}
    (hp : path.Nodup) (hs : state ∉ path) (hd : 16 ≤ path.length + n) :
    nextPath m state target path = nextPath n state target path := by
  induction n generalizing m state path with
  | zero =>
    have := length_lt_of_nodup hp hs
    omega
  | succ n ih =>
    obtain ⟨m, rfl⟩ : ∃ k, m = k + 1 := ⟨m - 1, by omega⟩
    have hx : ∀ x, (if x = state ∨ x ∈ path then ([] : List TapState)
          else nextPath m x target (path ++ [state])) =
        if x = state ∨ x ∈ path then [] else nextPath n x target (path ++ [state]) := by
      intro x
      split_ifs with hc
      · rfl
      · rw [not_or] at hc
        refine ih (by omega) ?_ ?_ ?_
        · exact hp.append (List.nodup_singleton state) (by simpa using hs)
        · simp [hc.1, hc.2]
        · simp only [List.length_append, List.length_singleton]; omega
    simp only [nextPath, hx]

/-- `find_path` as the source has it, with no bound on the depth. -/
theorem findPath_deep {n : ℕ} (hn : 16 ≤ n) (target source : TapState) :
    nextPath n source target [] = findPath target source :=
  nextPath_deep hn List.nodup_nil List.not_mem_nil (by simp)

/-! ### The moves -/

/-- The TMS values with which `change_state` takes the port from `s` to `t`. -/
def events (s t : TapState) : BitSequence := (getEvents (findPath t s)).toOption.getD []

/-- Every state is found from every other, and the events of the path lead there. -/
theorem search_finds : ∀ s t : TapState,
    (getEvents (findPath t s)).toOption.map (handleEvents s) = some t := by decide +kernel

theorem getEvents_findPath (s t : TapState) : getEvents (findPath t s) = .ok (events s t) := by
  have h := search_finds s t
  rw [events]
  cases hg : getEvents (findPath t s) with
  | error e => rw [hg] at h; cases h
  | ok l => rfl

/-- **The events of the path lead to the target.** -/
theorem handleEvents_events (s t : TapState) : handleEvents s (events s t) = t := by
  have h := search_finds s t
  rw [getEvents_findPath] at h
  exact Option.some.inj h

/-- The engine's picture moves as the port does, whatever is on TDI. -/
theorem handleEvents_eq_after (s : TapState) (b : Bool) (l : BitSequence) :
    handleEvents s l = s.after (moveEdges b l) := by
  have hf : ∀ (s : TapState) (l : BitSequence),
      (l.map fun t => (⟨t, false⟩ : Edge)).foldl (fun s e => s.next e.tms) s = l.foldl getx s := by
    intro s l
    induction l generalizing s with
    | nil => rfl
    | cons t l ih => simp only [List.map_cons, List.foldl_cons, getx_eq]; exact ih _
  cases l with
  | nil => rfl
  | cons t l =>
    simp only [handleEvents, moveEdges, TapState.after_cons, List.foldl_cons, getx_eq]
    exact (hf _ l).symm

end JtagStateMachine

end PyOcdRiscv.Jtag
