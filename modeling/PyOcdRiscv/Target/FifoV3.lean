import PyOcdRiscv.Lib.Channel
import Mathlib.Logic.Function.Basic

/-!
# The queue

`fifo_v3.sv`: a memory of `DEPTH` words with a read pointer, a write pointer and a counter.
With `FALL_THROUGH` an item that meets an empty queue can be taken out in the cycle in which
it comes in.

The words from the read pointer on, as many as are counted, are the items, in order
(`items`). So the queue is a channel that holds at most `DEPTH` of them (`keeps`), and the
flags say how many there are.
-/

namespace PyOcdRiscv.Target

open Lib

/-- The registers of `fifo_v3`. -/
structure FifoV3 (α : Type) where
  /-- `read_pointer_q`. -/
  readPointer : ℕ
  /-- `write_pointer_q`. -/
  writePointer : ℕ
  /-- `status_cnt_q`. -/
  statusCnt : ℕ
  /-- `mem_q`. -/
  mem : ℕ → α

/-- What is at the inputs at an edge: `data_i` if `push_i` is high, and `pop_i`. -/
structure FifoIn (α : Type) where
  /-- `push_i` and `data_i`. -/
  push : Option α
  /-- `pop_i`. -/
  pop : Bool

namespace FifoV3

variable {α : Type} (DEPTH : ℕ) (FALL_THROUGH : Bool)

/-- `full_o`. -/
def full (s : FifoV3 α) : Bool := s.statusCnt == DEPTH

/-- `empty_o`. -/
def empty (s : FifoV3 α) (i : FifoIn α) : Bool := s.statusCnt == 0 && !(FALL_THROUGH && i.push.isSome)

/-- `data_o`. -/
def dataO (s : FifoV3 α) (i : FifoIn α) : α :=
  match i.push with
  | some a => if FALL_THROUGH && s.statusCnt == 0 then a else s.mem s.readPointer
  | none => s.mem s.readPointer

/-- The next of a pointer. -/
def bump (p : ℕ) : ℕ := if p = DEPTH - 1 then 0 else p + 1

/-- An edge of `clk_i`. -/
def edge (s : FifoV3 α) (i : FifoIn α) : FifoV3 α :=
  let push := i.push.isSome && !s.full DEPTH
  let pop := i.pop && !s.empty FALL_THROUGH i
  -- pass through: neither pointer moves
  let through := FALL_THROUGH && s.statusCnt == 0 && i.push.isSome && i.pop
  { readPointer := if pop && !through then bump DEPTH s.readPointer else s.readPointer
    writePointer := if push && !through then bump DEPTH s.writePointer else s.writePointer
    statusCnt :=
      if through || (push && pop) then s.statusCnt
      else if pop then s.statusCnt - 1
      else if push then s.statusCnt + 1
      else s.statusCnt
    mem := match i.push with
      | some a => if s.full DEPTH then s.mem else Function.update s.mem s.writePointer a
      | none => s.mem }

/-- What goes in. -/
def takes (s : FifoV3 α) (i : FifoIn α) : List α := if s.full DEPTH then [] else i.push.toList

/-- What comes out. -/
def gives (s : FifoV3 α) (i : FifoIn α) : List α :=
  if i.pop && !s.empty FALL_THROUGH i then [s.dataO FALL_THROUGH i] else []

/-- As a channel. -/
def channel : Channel (FifoV3 α) (FifoIn α) α := ⟨edge DEPTH FALL_THROUGH, takes DEPTH, gives FALL_THROUGH⟩

/-- After a reset. -/
def fresh (zero : α) : FifoV3 α := ⟨0, 0, 0, fun _ => zero⟩

/-- `n` words of the memory, from `p` on, going round. -/
def items (mem : ℕ → α) (p n : ℕ) : List α := (List.range n).map fun i => mem ((p + i) % DEPTH)

/-- The items in the queue. -/
def held (s : FifoV3 α) : List α := items DEPTH s.mem s.readPointer s.statusCnt

/-- What is true of every state that a run reaches. -/
structure Inv (s : FifoV3 α) : Prop where
  read : s.readPointer < DEPTH
  count : s.statusCnt ≤ DEPTH
  write : s.writePointer = (s.readPointer + s.statusCnt) % DEPTH

variable {DEPTH FALL_THROUGH}

theorem inv_fresh (hD : 0 < DEPTH) (zero : α) : Inv DEPTH (fresh zero) := ⟨hD, Nat.zero_le _, (Nat.zero_mod _).symm⟩

@[simp] theorem length_held (s : FifoV3 α) : (held DEPTH s).length = s.statusCnt := by simp [held, items]

/-! ### Going round -/

theorem bump_eq {p : ℕ} (hp : p < DEPTH) : bump DEPTH p = (p + 1) % DEPTH := by
  rw [bump]
  split_ifs with h
  · rw [show p + 1 = DEPTH by omega, Nat.mod_self]
  · rw [Nat.mod_eq_of_lt (by omega)]

theorem bump_lt {p : ℕ} (hp : p < DEPTH) : bump DEPTH p < DEPTH := by
  rw [bump_eq hp]
  exact Nat.mod_lt _ (by omega)

/-- The first of the items, and the rest of them. -/
theorem items_succ (mem : ℕ → α) {p : ℕ} (hp : p < DEPTH) (n : ℕ) :
    items DEPTH mem p (n + 1) = mem p :: items DEPTH mem (bump DEPTH p) n := by
  rw [items, List.range_succ_eq_map, List.map_cons, Nat.add_zero, Nat.mod_eq_of_lt hp, List.map_map, items,
    bump_eq hp]
  congr 1
  refine List.map_congr_left fun i _ => ?_
  simp only [Function.comp_apply, Nat.mod_add_mod]
  congr 2
  omega

/-- A word that is written behind the items is one more of them. -/
theorem items_update (mem : ℕ → α) {p n : ℕ} (hn : n < DEPTH) (a : α) :
    items DEPTH (Function.update mem ((p + n) % DEPTH) a) p (n + 1) = items DEPTH mem p n ++ [a] := by
  rw [items, List.range_succ, List.map_append, List.map_singleton, Function.update_self, items]
  congr 1
  refine List.map_congr_left fun i hi => Function.update_of_ne ?_ _ _
  have hlt : i < n := List.mem_range.mp hi
  intro heq
  have hzero := Nat.sub_mod_eq_zero_of_mod_eq heq.symm
  rw [Nat.add_sub_add_left, Nat.mod_eq_of_lt (by omega)] at hzero
  omega

/-! ### One edge -/

theorem full_iff {s : FifoV3 α} : s.full DEPTH = true ↔ s.statusCnt = DEPTH := beq_iff_eq

/-- What an edge can do: nothing, let an item in, let one out, both, or let one through. -/
theorem edge_cases (FALL_THROUGH : Bool) (hD : 0 < DEPTH) {s : FifoV3 α} (hcount : s.statusCnt ≤ DEPTH) (i : FifoIn α) :
    (s.takes DEPTH i = [] ∧ s.gives FALL_THROUGH i = [] ∧ s.edge DEPTH FALL_THROUGH i = s) ∨
    (∃ a, s.takes DEPTH i = [a] ∧ s.gives FALL_THROUGH i = [] ∧ s.statusCnt < DEPTH ∧
      s.edge DEPTH FALL_THROUGH i = ⟨s.readPointer, bump DEPTH s.writePointer, s.statusCnt + 1,
        Function.update s.mem s.writePointer a⟩) ∨
    (s.takes DEPTH i = [] ∧ s.gives FALL_THROUGH i = [s.mem s.readPointer] ∧ 0 < s.statusCnt ∧
      s.edge DEPTH FALL_THROUGH i = ⟨bump DEPTH s.readPointer, s.writePointer, s.statusCnt - 1, s.mem⟩) ∨
    (∃ a, s.takes DEPTH i = [a] ∧ s.gives FALL_THROUGH i = [s.mem s.readPointer] ∧ 0 < s.statusCnt ∧
      s.statusCnt < DEPTH ∧ s.edge DEPTH FALL_THROUGH i = ⟨bump DEPTH s.readPointer, bump DEPTH s.writePointer,
        s.statusCnt, Function.update s.mem s.writePointer a⟩) ∨
    (∃ a, s.takes DEPTH i = [a] ∧ s.gives FALL_THROUGH i = [a] ∧ s.statusCnt = 0 ∧
      s.edge DEPTH FALL_THROUGH i = ⟨s.readPointer, s.writePointer, 0, Function.update s.mem s.writePointer a⟩) := by
  obtain ⟨rd, wr, cnt, mem⟩ := s
  obtain ⟨push, pop⟩ := i
  dsimp only at hcount
  by_cases hfull : cnt = DEPTH
  · -- full: nothing goes in
    have hcnt : cnt ≠ 0 := by omega
    cases push with
    | none => cases pop <;> simp [edge, takes, gives, full, empty, dataO, hfull, Nat.pos_iff_ne_zero.mp hD, hD]
    | some a => cases pop <;> simp [edge, takes, gives, full, empty, dataO, hfull, Nat.pos_iff_ne_zero.mp hD, hD]
  · have hlt : cnt < DEPTH := by omega
    by_cases hcnt : cnt = 0
    · -- empty: nothing comes out, unless it comes through
      subst hcnt
      cases push with
      | none => cases pop <;> simp [edge, takes, gives, full, empty, hfull]
      | some a => cases pop <;> cases FALL_THROUGH <;> simp [edge, takes, gives, full, empty, dataO, hfull, hlt]
    · have hpos : 0 < cnt := by omega
      cases push with
      | none => cases pop <;> simp [edge, takes, gives, full, empty, dataO, hfull, hcnt, hpos]
      | some a => cases pop <;> simp [edge, takes, gives, full, empty, dataO, hfull, hcnt, hpos, hlt]

theorem Inv.edge (hD : 0 < DEPTH) {s : FifoV3 α} (hs : Inv DEPTH s) (i : FifoIn α) :
    Inv DEPTH (s.edge DEPTH FALL_THROUGH i) := by
  obtain ⟨hread, hcount, hwrite⟩ := hs
  have hwlt : s.writePointer < DEPTH := hwrite ▸ Nat.mod_lt _ hD
  rcases edge_cases FALL_THROUGH hD hcount i with
    ⟨-, -, h⟩ | ⟨a, -, -, hlt, h⟩ | ⟨-, -, hpos, h⟩ | ⟨a, -, -, hpos, -, h⟩ | ⟨a, -, -, hzero, h⟩
  · rw [h]
    exact ⟨hread, hcount, hwrite⟩
  · rw [h]
    refine ⟨hread, hlt, ?_⟩
    rw [bump_eq hwlt, hwrite, Nat.mod_add_mod, Nat.add_assoc]
  · rw [h]
    refine ⟨bump_lt hread, Nat.le_trans (Nat.sub_le _ _) hcount, ?_⟩
    dsimp only
    rw [bump_eq hread, Nat.mod_add_mod, hwrite]
    congr 1
    omega
  · rw [h]
    refine ⟨bump_lt hread, hcount, ?_⟩
    rw [bump_eq hread, bump_eq hwlt, hwrite, Nat.mod_add_mod, Nat.mod_add_mod, Nat.add_right_comm]
  · rw [h]
    refine ⟨hread, Nat.zero_le _, ?_⟩
    rw [hwrite, hzero]

/-- **The queue keeps the items in order**. -/
theorem keeps (FALL_THROUGH : Bool) (hD : 0 < DEPTH) :
    (channel (α := α) DEPTH FALL_THROUGH).Keeps (Inv DEPTH) (held DEPTH) where
  inv hs i := hs.edge hD i
  held_step := by
    intro s hs i
    obtain ⟨hread, hcount, hwrite⟩ := hs
    change held DEPTH s ++ s.takes DEPTH i = s.gives FALL_THROUGH i ++ held DEPTH (s.edge DEPTH FALL_THROUGH i)
    rcases edge_cases FALL_THROUGH hD hcount i with
      ⟨ht, hg, h⟩ | ⟨a, ht, hg, hlt, h⟩ | ⟨ht, hg, hpos, h⟩ | ⟨a, ht, hg, hpos, hlt, h⟩ | ⟨a, ht, hg, hzero, h⟩
    · rw [ht, hg, h, List.append_nil, List.nil_append]
    · rw [ht, hg, h, List.nil_append, held, held, hwrite, items_update _ hlt]
    · obtain ⟨n, hn⟩ : ∃ n, s.statusCnt = n + 1 := ⟨s.statusCnt - 1, by omega⟩
      rw [ht, hg, h, List.append_nil, held, held, hn, items_succ _ hread, Nat.add_sub_cancel, List.singleton_append]
    · obtain ⟨n, hn⟩ : ∃ n, s.statusCnt = n + 1 := ⟨s.statusCnt - 1, by omega⟩
      have hsame : (s.readPointer + s.statusCnt) % DEPTH = (bump DEPTH s.readPointer + n) % DEPTH := by
        rw [bump_eq hread, Nat.mod_add_mod, hn]
        congr 1
        omega
      rw [ht, hg, h, held, held, hn, items_succ _ hread, hwrite, hsame, items_update _ (by omega),
        List.singleton_append, List.cons_append]
    · rw [ht, hg, h, held, held, hzero]
      rfl

/-- **A bounded queue**, of any depth and with or without fall-through: over any run what has come
in is what has gone out and what is there, in order; there are never more than `DEPTH` items, and
the flags say whether there are as many, and whether there is nothing to be taken out: no item, and
none that falls through. -/
theorem fifo_keeps (FALL_THROUGH : Bool) (hD : 0 < DEPTH) (zero : α) (is : List (FifoIn α)) :
    let s := (channel DEPTH FALL_THROUGH).run (fresh zero) is
    (channel DEPTH FALL_THROUGH).allTaken (fresh zero) is =
        (channel DEPTH FALL_THROUGH).allGiven (fresh zero) is ++ held DEPTH s ∧
      (held DEPTH s).length ≤ DEPTH ∧ (s.full DEPTH = true ↔ (held DEPTH s).length = DEPTH) ∧
      ∀ i : FifoIn α, s.empty FALL_THROUGH i = true ↔
        held DEPTH s = [] ∧ ¬ (FALL_THROUGH = true ∧ i.push.isSome = true) := by
  intro s
  have hinv : Inv DEPTH s := (keeps FALL_THROUGH hD).inv_run (inv_fresh hD zero) is
  refine ⟨(keeps FALL_THROUGH hD).run (inv_fresh hD zero) is, ?_, ?_, ?_⟩
  · rw [length_held]
    exact hinv.count
  · rw [length_held, full_iff]
  · intro i
    rw [empty, Bool.and_eq_true, beq_iff_eq, ← List.length_eq_zero_iff, length_held, Bool.not_eq_true',
      ← Bool.not_eq_true, Bool.and_eq_true]

/-- A queue of two words: the third does not go in. -/
theorem fifo_keeps_two : (held 2 ((channel 2 false).run (fresh 0)
    [⟨some 5, false⟩, ⟨some 6, false⟩, ⟨some 7, true⟩])).length ≤ 2 ∧
    (channel 2 false).allTaken (fresh 0) [⟨some 5, false⟩, ⟨some 6, false⟩, ⟨some 7, true⟩] = [5, 6] := by
  obtain ⟨-, hlen, -⟩ := fifo_keeps false (show 0 < 2 by decide) 0
    [⟨some 5, false⟩, ⟨some 6, false⟩, ⟨some 7, true⟩]
  exact ⟨hlen, rfl⟩

end FifoV3

end PyOcdRiscv.Target
