import PyOcdRiscv.Lib.Bytes

/-!
# Loading a program

`loadbinary` of `dbgjtag.py`, through a driver whose `writemem` stores a word. Its loop
goes over the whole words of the file, so of a file whose length is not a multiple of
four the last bytes stay what they were (`memory_loadbinary`, `loads_iff`).
-/

namespace PyOcdRiscv.Ocd

open Lib

/-- `bindata[i:j]`. -/
def slice (bindata : List UInt8) (i j : ℕ) : List UInt8 := (bindata.drop i).take (j - i)

/-- `loadbinary(filename, startadr)`, where `bindata` is what the file holds; `writemem` is
that of the driver. `struct.unpack('<I', ..)` is the word that four bytes make. -/
def loadbinary {m : Type → Type} [Monad m] (writemem : ℕ → ℕ → m Unit) (bindata : List UInt8)
    (startadr : ℕ) : m Unit :=
  forM (List.range (bindata.length / 4)) fun i =>
    writemem (startadr + i * 4) (word (slice bindata (i * 4) ((i + 1) * 4)))

/-- A `writemem` that stores the 32-bit word `v` at `a`. -/
def writemem (a v : ℕ) : StateM Memory Unit := modify fun m => store 4 m a v

/-- The memory after `loadbinary`. -/
def memoryAfter (bindata : List UInt8) (startadr : ℕ) (m : Memory) : Memory :=
  ((loadbinary writemem bindata startadr).run m).2

/-- The first `n` rounds of the loop put the first `n` words in memory. -/
theorem rounds_loadbinary (bindata : List UInt8) (startadr : ℕ) (m : Memory) {n : ℕ}
    (hn : n ≤ bindata.length / 4) :
    ((forM (List.range n) fun i =>
      writemem (startadr + i * 4) (word (slice bindata (i * 4) ((i + 1) * 4)))).run m).2 =
        putBytes m startadr (bindata.take (n * 4)) := by
  induction n with
  | zero =>
    rw [Nat.zero_mul, List.take_zero, putBytes_nil]
    rfl
  | succ n ih =>
    have hslice : (slice bindata (n * 4) ((n + 1) * 4)).length = 4 := by
      rw [slice, List.length_take, List.length_drop]
      omega
    have htake : bindata.take ((n + 1) * 4) =
        bindata.take (n * 4) ++ slice bindata (n * 4) ((n + 1) * 4) := by
      have hadd : (n + 1) * 4 = n * 4 + 4 := by omega
      have hsub : n * 4 + 4 - n * 4 = 4 := by omega
      rw [slice, hadd, hsub, List.take_add]
    have hlen : (bindata.take (n * 4)).length = n * 4 := by
      rw [List.length_take]
      omega
    have hstore := store_word (putBytes m startadr (bindata.take (n * 4))) (startadr + n * 4)
      (slice bindata (n * 4) ((n + 1) * 4))
    rw [hslice] at hstore
    have happend := putBytes_append m startadr (bindata.take (n * 4)) (slice bindata (n * 4) ((n + 1) * 4))
    rw [hlen] at happend
    rw [htake, ← happend, ← hstore, ← ih (by omega)]
    rw [List.range_succ, List.forM_append]
    rfl

/-- **What `loadbinary` leaves in memory**: the whole words of the file. -/
theorem memory_loadbinary (bindata : List UInt8) (startadr : ℕ) (m : Memory) :
    memoryAfter bindata startadr m = putBytes m startadr (bindata.take (bindata.length / 4 * 4)) :=
  rounds_loadbinary bindata startadr m (le_refl _)

/-- The file is in memory, and nothing is changed but the words that it takes up. -/
def Loads (bindata : List UInt8) (startadr : ℕ) (m : Memory) : Prop :=
  Holds (memoryAfter bindata startadr m) startadr bindata ∧
    ∀ a, a < startadr ∨ startadr + 4 * ((bindata.length + 3) / 4) ≤ a → memoryAfter bindata startadr m a = m a

/-- The bytes of the file behind its last whole word. -/
def tail (bindata : List UInt8) : List UInt8 := bindata.drop (bindata.length / 4 * 4)

/-- **When a file is loaded**: exactly if the bytes behind its last whole word were in memory
already; and so, whatever was in memory, exactly if there are none. -/
theorem loads_iff (bindata : List UInt8) (startadr : ℕ) :
    (∀ m, Loads bindata startadr m ↔ Holds m (startadr + bindata.length / 4 * 4) (tail bindata)) ∧
      ((∀ m, Loads bindata startadr m) ↔ 4 ∣ bindata.length) := by
  have hall (m : Memory) : Loads bindata startadr m ↔
      Holds m (startadr + bindata.length / 4 * 4) (tail bindata) := by
    rw [Loads, memory_loadbinary, holds_putBytes_take m startadr bindata (by omega)]
    refine and_iff_left fun a ha => putBytes_of_not_mem m startadr ?_
    rw [List.length_take]
    omega
  refine ⟨hall, ?_⟩
  simp only [hall]
  constructor
  · intro h
    by_contra hdvd
    -- a memory that holds something else
    have hlt : 0 < (tail bindata).length := by
      rw [tail, List.length_drop]
      omega
    have hsame := h (fun _ => (tail bindata)[0] + 1) 0 hlt
    exact absurd hsame (by simp)
  · intro hdvd m i hi
    rw [tail, List.length_drop] at hi
    omega

/-- **The fifth byte of a file of five is lost.** -/
theorem not_loads_five : ¬ ∀ (bindata : List UInt8) (startadr : ℕ) (m : Memory), 4 ∣ startadr →
    Loads bindata startadr m := by
  intro h
  obtain ⟨hholds, -⟩ := h [1, 2, 3, 4, 5] 0x80000000 (fun _ => 0) (by decide)
  rw [memory_loadbinary] at hholds
  exact absurd (hholds 4 (by decide)) (by decide)

end PyOcdRiscv.Ocd
