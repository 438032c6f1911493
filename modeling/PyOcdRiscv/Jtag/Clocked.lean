import PyOcdRiscv.Jtag.Engine

/-!
# Where the edges of a call lead

The edges of each call on the engine, against the port: they lead where the state
machine is told they lead (`after_edges`), and the bits of a scan are clocked in the
shift state of their column (`clocked_edges`).
-/

namespace PyOcdRiscv.Jtag

open Lib

open JtagStateMachine (events)

/-- The moves of the engine lead where they are meant to. -/
theorem after_moves (s t : TapState) : s.after (moveEdges false (events s t)) = t := by
  rw [← JtagStateMachine.handleEvents_eq_after, JtagStateMachine.handleEvents_events]

/-- A scan leaves the shift state by way of the exit state. -/
theorem after_scan {t : TapState} (ht : t.Shifts) (l : BitSequence) :
    t.after (scanEdges l) = (t.next true).next true := by
  rw [scanEdges, bitEdges, List.append_assoc, TapState.after_append, TapState.after_dataEdges ht]
  rfl

theorem after_scanFrom (s : TapState) {t : TapState} (ht : t.Shifts) (l : BitSequence) :
    s.after (scanFrom s t l) = (t.next true).next true := by
  rw [scanFrom, TapState.after_append, after_moves, after_scan ht]

/-- **The state machine is right about a call.** -/
theorem EngineCall.after_edges {o : EngineCall} {s : TapState} (ho : o.Fits s) :
    s.after (o.edges s) = o.leaves s := by
  cases o with
  | changeState t => exact after_moves s t
  | writeIr l => exact after_scanFrom s (Or.inr rfl) l
  | writeDr l => exact after_scanFrom s (Or.inl rfl) l
  | readDr n => exact after_scanFrom s (Or.inl rfl) _
  | readwriteDr out => exact after_scanFrom s (Or.inl rfl) out
  | writeVir val =>
    rw [edges, TapState.after_append, TapState.after_append, after_scanFrom s (Or.inr rfl)]
    change TapState.after (TapState.after .updateIr _) _ = _
    rw [after_scanFrom _ (Or.inl rfl)]
    exact after_scanFrom .updateDr (Or.inr rfl) _
  | shiftRegister out =>
    have hs : (if JtagStateMachine.isOf .capture s then s.next false else s).Shifts := by
      have hall : ∀ s : TapState, s ∈ [TapState.captureDr, .shiftDr, .captureIr, .shiftIr] →
          (if JtagStateMachine.isOf .capture s then s.next false else s) ∈ [TapState.shiftDr, .shiftIr] := by
        decide
      simpa [TapState.Shifts] using hall s ho.1
    rw [edges, leaves, TapState.after_append]
    split_ifs at hs ⊢ <;> exact TapState.after_dataEdges hs out
  | writeTms out shouldRead =>
    obtain ⟨rfl, -, hout⟩ := ho
    rw [edges, leaves, hout]
    generalize out.length = n
    cases n with
    | zero => rfl
    | succ n =>
      simp only [List.replicate_succ, moveEdges, TapState.after_cons]
      induction n with
      | zero => rfl
      | succ n ih => exact ih
  | reset =>
    refine TapState.after_reset s _ ?_
    rfl

/-! ### The bits of a scan -/

/-- The scans of a call that finds the port in state `s`: the shift state that each is
for, and its bits. -/
def EngineCall.scans (s : TapState) : EngineCall → List (TapState × BitSequence)
  | .changeState _ | .writeTms _ _ | .reset => []
  | .writeIr l => [(.shiftIr, l)]
  | .writeDr l | .readwriteDr l => [(.shiftDr, l)]
  | .readDr n => [(.shiftDr, List.replicate n false)]
  | .writeVir val =>
    [(.shiftIr, BitSequence.ofInt VIR false 10), (.shiftDr, virWord val),
      (.shiftIr, BitSequence.ofInt VDR false 10)]
  | .shiftRegister out => [(if s ∈ [TapState.captureDr, .shiftDr] then .shiftDr else .shiftIr, out)]

/-- Among the edges `es` from state `s` are the bits of the scans, one scan after the
other, and each bit is clocked while the port is in the scan's shift state. -/
def Clocked : TapState → List Edge → List (TapState × BitSequence) → Prop
  | _, _, [] => True
  | s, es, (t, l) :: scans => ∃ pre bs post, es = pre ++ (bs ++ post) ∧ bs.map Edge.tdi = l ∧
      (∀ n < bs.length, s.after (pre ++ bs.take n) = t) ∧ Clocked (s.after (pre ++ bs)) post scans

theorem clocked_data {t : TapState} (ht : t.Shifts) (l : BitSequence) :
    ∀ n < (dataEdges l).length, t.after ((dataEdges l).take n) = t := by
  intro n _
  rw [dataEdges, ← List.map_take]
  exact TapState.after_dataEdges ht _

theorem clocked_bits {t : TapState} (ht : t.Shifts) (l : BitSequence) :
    ∀ n < (bitEdges l).length, t.after ((bitEdges l).take n) = t := by
  intro n hn
  have hle : n ≤ (dataEdges l.dropLast).length := by
    rw [bitEdges, List.length_append] at hn
    exact Nat.le_of_lt_succ hn
  rw [bitEdges, List.take_append_of_le_length hle, dataEdges, ← List.map_take]
  exact TapState.after_dataEdges ht _

/-- A scan on the way, and what is clocked after it. -/
theorem Clocked.scanFrom (s : TapState) {t : TapState} (ht : t.Shifts) {l : BitSequence} (hl : l ≠ [])
    {es : List Edge} {scans : List (TapState × BitSequence)}
    (hes : Clocked ((t.next true).next true) es scans) :
    Clocked s (Jtag.scanFrom s t l ++ es) ((t, l) :: scans) := by
  have hbits : t.after (bitEdges l) = t.next true := by
    rw [bitEdges, TapState.after_append, TapState.after_dataEdges ht]
    rfl
  refine ⟨moveEdges false (events s t), bitEdges l, ⟨true, false⟩ :: es, ?_, map_tdi_bitEdges hl, ?_, ?_⟩
  · simp [Jtag.scanFrom, scanEdges]
  · intro n hn
    rw [TapState.after_append, after_moves]
    exact clocked_bits ht l n hn
  · rw [TapState.after_append, after_moves, hbits]
    cases scans with
    | nil => trivial
    | cons sc scans =>
      obtain ⟨pre, bs, post, rfl, hl', hn, hpost⟩ := hes
      exact ⟨⟨true, false⟩ :: pre, bs, post, rfl, hl', hn, hpost⟩

/-- **Every bit of a scan is clocked in its shift state.** -/
theorem EngineCall.clocked_edges {o : EngineCall} {s : TapState} (ho : o.Fits s) :
    Clocked s (o.edges s) (o.scans s) := by
  have hone {t : TapState} (ht : t.Shifts) {l : BitSequence} (hl : l ≠ []) :
      Clocked s (scanFrom s t l) [(t, l)] := by
    rw [← List.append_nil (scanFrom s t l)]
    exact Clocked.scanFrom s ht hl trivial
  cases o with
  | changeState t => trivial
  | writeIr l => exact hone (Or.inr rfl) ho.1
  | writeDr l => exact hone (Or.inl rfl) ho.1
  | readDr n =>
    refine ⟨moveEdges false (events s .shiftDr), dataEdges (List.replicate n false),
      [⟨true, false⟩, ⟨true, false⟩], ?_, map_tdi_dataEdges _, ?_, trivial⟩
    · simp [edges, scanFrom, scanEdges, bitEdges_zeros]
    · intro k hk
      rw [TapState.after_append, after_moves]
      exact clocked_data (Or.inl rfl) _ k hk
  | readwriteDr out => exact hone (Or.inl rfl) ho.1
  | writeVir val =>
    have hir (v : ℕ) : BitSequence.ofInt v false 10 ≠ [] := by
      rw [BitSequence.ofInt_eq (by decide)]
      exact bits_ne_nil (by decide) v
    refine Clocked.scanFrom s (Or.inr rfl) (hir VIR) ?_
    refine Clocked.scanFrom .updateIr (Or.inl rfl) (by simp [virWord_eq]) ?_
    change Clocked .updateDr _ _
    rw [← List.append_nil (Jtag.scanFrom .updateDr _ _)]
    exact Clocked.scanFrom .updateDr (Or.inr rfl) (hir VDR) trivial
  | shiftRegister out =>
    have hcol : ∀ s : TapState, s ∈ [TapState.captureDr, .shiftDr, .captureIr, .shiftIr] →
        s.after (if JtagStateMachine.isOf .capture s then [⟨false, false⟩] else []) =
          if s ∈ [TapState.captureDr, .shiftDr] then .shiftDr else .shiftIr := by decide
    refine ⟨_, dataEdges out, [], by rw [List.append_nil]; rfl, map_tdi_dataEdges out, ?_, trivial⟩
    intro n hn
    rw [TapState.after_append, hcol s ho.1]
    refine clocked_data ?_ out n hn
    split_ifs
    · exact Or.inl rfl
    · exact Or.inr rfl
  | writeTms out shouldRead => trivial
  | reset => trivial

end PyOcdRiscv.Jtag
