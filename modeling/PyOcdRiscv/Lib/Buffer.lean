import Mathlib.Data.List.Basic

/-!
# Buffers

A buffer that is read and written by index, item by item, in a program that raises `e` when it
leaves the buffer. Where an item is known by what stands before it, `read_append` and
`write_append` say what an access does.
-/

namespace PyOcdRiscv.Lib.Buffer

variable {α ε : Type}

/-- Item `i`. -/
def read (e : ε) (i : ℕ) : EStateM ε (List α) α := fun s =>
  match s[i]? with
  | some a => .ok a s
  | none => .error e s

/-- `a` as item `i`. -/
def write (e : ε) (i : ℕ) (a : α) : EStateM ε (List α) Unit := fun s =>
  if i < s.length then .ok () (s.set i a) else .error e s

variable (e : ε) {i : ℕ} (pre : List α) (a : α) (post : List α)

theorem read_append (hi : i = pre.length) : read e i (pre ++ a :: post) = .ok a (pre ++ a :: post) := by
  subst hi
  simp [read]

theorem write_append (hi : i = pre.length) (b : α) :
    write e i b (pre ++ a :: post) = .ok () (pre ++ b :: post) := by
  subst hi
  simp [write]

end PyOcdRiscv.Lib.Buffer
