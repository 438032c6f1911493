import PyOcdRiscv.Jtag.SameWire

/-!
# Long scans on the USB-Blaster

The byte-shift command of the cable has six bits for its count, so 63 bytes is the most
that one can take. `shiftinoutval` refuses more. `shiftinval` does not: it goes round a
loop, and takes off at each round what the six bits say. From 64 bytes on there comes a
round, the first or the second, in which they say zero, and from there it goes on for ever
(`rounds_forever`, `sends_iff`).

`shiftinoutval` refuses before anything is clocked, but `writeread` has stored the last
bit by then (`refusedWhole_iff`).
-/

namespace PyOcdRiscv.Jtag.Blaster

open Lib

variable (tdo : History → Bool)

/-! ### A loop that does not end -/

/-- At most `n` rounds of the `while` loop of `shiftinval`, with the values of `nbytes`, `val`
and `length` after them. -/
def rounds : ℕ → ℕ → ℕ → ℕ → M (ℕ × ℕ × ℕ)
  | 0, nbytes, val, length => pure (nbytes, val, length)
  | n + 1, nbytes, val, length =>
    if nbytes = 0 then pure (nbytes, val, length)
    else do
      write_ tdo [ENA]
      let len := (nbytes % 64) <<< 3
      write_ tdo ((BYTESHIFT ||| nbytes % 64) :: toBytes (nbytes % 64) (val % 2 ^ len))
      rounds n (nbytes - nbytes % 64) (val >>> len) (length - len)

/-- **From 64 bytes on the loop goes on for ever.** A round takes off `nbytes % 64` bytes, and
leaves 64 at least. -/
theorem rounds_forever (n : ℕ) {nbytes : ℕ} (h : 64 ≤ nbytes) (val length : ℕ) (s : BlasterState) :
    ∃ r s', rounds tdo n nbytes val length s = .ok r s' ∧ 64 ≤ r.1 := by
  induction n generalizing nbytes val length s with
  | zero => exact ⟨(nbytes, val, length), s, rfl, h⟩
  | succ n ih =>
    have hleft : 64 ≤ nbytes - nbytes % 64 := by omega
    rw [rounds, if_neg (by omega)]
    exact ih hleft _ _ _

/-- Below that, there is one round at most. -/
theorem rounds_end {nbytes : ℕ} (h : nbytes < 64) (val length : ℕ) (s : BlasterState) :
    ∃ r s', rounds tdo 1 nbytes val length s = .ok r s' ∧ r.1 = 0 := by
  by_cases hzero : nbytes = 0
  · refine ⟨(nbytes, val, length), s, ?_, hzero⟩
    rw [rounds, if_pos hzero]
    rfl
  · have hleft : nbytes - nbytes % 64 = 0 := by omega
    rw [rounds, if_neg hzero]
    exact ⟨_, _, rfl, hleft⟩

theorem byteLoop_hang {nbytes : ℕ} (h : 64 ≤ nbytes) (fuel val length : ℕ) (s : BlasterState) :
    ∃ s', byteLoop tdo fuel nbytes val length s = .error .hang s' := by
  induction fuel generalizing nbytes val length s with
  | zero => exact ⟨s, rfl⟩
  | succ fuel ih =>
    by_cases hmod : nbytes % 64 = 0
    · refine ⟨s, ?_⟩
      rw [byteLoop, if_neg (by omega), if_pos hmod]
      rfl
    · have hleft : 64 ≤ nbytes - nbytes % 64 := by omega
      rw [byteLoop, if_neg (by omega), if_neg hmod]
      exact ih hleft _ _ _

theorem bind_error {α β : Type} {x : M α} {f : α → M β} {s s' : BlasterState} {e : Fault}
    (h : x s = .error e s') : (x >>= f) s = .error e s' := by
  simp only [Bind.bind, EStateM.bind, h]

theorem shiftinval_hang {length : ℕ} (h : 512 ≤ length) (val : ℕ) (s : BlasterState) :
    ∃ s', shiftinval tdo length val s = .error .hang s' := by
  have hbytes : 64 ≤ length >>> 3 := by
    rw [Nat.shiftRight_eq_div_pow]
    omega
  obtain ⟨s', h'⟩ := byteLoop_hang tdo hbytes (length + 1) val length s
  refine ⟨s', ?_⟩
  rw [shiftinval, bind_error h']

/-- The loop of `shiftinval(length, val)` ends, and the call has then clocked the bits of
`val`, with TMS low. -/
def Sends (length val : ℕ) (s : BlasterState) (w : Wire) : Prop :=
  (∃ n r s', rounds tdo n (length >>> 3) val length s = .ok r s' ∧ r.1 = 0) ∧
    ∃ s', shiftinval tdo length val s = .ok () s' ∧ At s' (w.put (dataEdges (bits length val)))

/-- `write(seq, use_last)` returns, and has clocked the bits of `seq` but for one kept back. -/
def Writes (seq : BitSequence) (useLast : Bool) (s : BlasterState) (w : Wire) : Prop :=
  ∃ s', write tdo seq useLast s = .ok () s' ∧ At s' (w.afterScan seq useLast)

/-- **When a scan is sent**: exactly if fewer than 512 bits are clocked at once. -/
theorem sends_iff {s : BlasterState} {w : Wire} (hs : At s w) :
    (∀ length val, Sends tdo length val s w ↔ length < 512) ∧
      ∀ seq useLast, Writes tdo seq useLast s w ↔ ScanOk seq useLast := by
  refine ⟨fun length val => ⟨?_, ?_⟩, fun seq useLast => ⟨?_, ?_⟩⟩
  · rintro ⟨-, s', h', -⟩
    by_contra hlong
    obtain ⟨s₁, h₁⟩ := shiftinval_hang tdo (Nat.not_lt.mp hlong) val s
    rw [h₁] at h'
    cases h'
  · intro hlen
    have hbytes : length >>> 3 < 64 := by
      rw [Nat.shiftRight_eq_div_pow]
      omega
    exact ⟨⟨1, rounds_end tdo hbytes val length s⟩, shiftinval_eq tdo hlen val hs⟩
  · rintro ⟨s', h', -⟩
    have hne : useLast = true → seq ≠ [] := by
      rintro rfl rfl
      cases h'
    refine ⟨?_, hne⟩
    by_contra hlong
    obtain ⟨s₁, h₁, -⟩ := keepLast_eq hne hs
    obtain ⟨s₂, h₂⟩ := shiftinval_hang tdo (Nat.not_lt.mp hlong) (BitSequence.toInt (Wire.now seq useLast)) s₁
    rw [write, Prog.bind_ok h₁, h₂] at h'
    cases h'
  · intro hok
    obtain ⟨s₁, h₁, hs₁⟩ := keepLast_eq hok.2 hs
    obtain ⟨s', h', hs'⟩ := shiftinval_eq tdo hok.1 (value (Wire.now seq useLast)) hs₁
    rw [bits_value] at hs'
    exact ⟨s', by rw [write, Prog.bind_ok h₁, BitSequence.toInt_eq, h'], hs'⟩

/-- 77 bits, the longest of the debug frames. -/
theorem sends_frame : Sends (fun _ => true) 77 (2 ^ 76) fresh ⟨none, []⟩ ∧
    Writes (fun _ => true) (List.replicate 77 true) true fresh ⟨none, []⟩ := by
  have hs : At fresh ⟨none, []⟩ := ⟨rfl, rfl, rfl, rfl⟩
  refine ⟨((sends_iff _ hs).1 77 _).mpr (by decide), ((sends_iff _ hs).2 _ _).mpr ⟨?_, ?_⟩⟩
  · exact (by decide : 76 < 512)
  · exact fun _ => List.cons_ne_nil _ _

/-- **64 bytes are not sent.** -/
theorem not_sends_512 : ¬ ∀ (tdo : History → Bool) (length val : ℕ) (s : BlasterState) (w : Wire),
    At s w → val < 2 ^ length → Sends tdo length val s w := by
  intro h
  obtain ⟨length, hlong⟩ : ∃ length, 512 ≤ length := ⟨512, le_refl 512⟩
  obtain ⟨-, s', h', -⟩ := h (fun _ => true) length 0 fresh ⟨none, []⟩ ⟨rfl, rfl, rfl, rfl⟩ (Nat.two_pow_pos _)
  obtain ⟨s₁, h₁⟩ := shiftinval_hang (fun _ => true) hlong 0 fresh
  rw [h₁] at h'
  cases h'

/-! ### A scan that is refused -/

/-- `x` does not raise `Exception("length > 63 bytes")`. -/
def Accepts {α : Type} (x : M α) : Prop := ∀ s s', x s ≠ .error .tooLong s'

theorem Accepts.ok {α : Type} {x : M α} (h : ∀ s, ∃ a s', x s = .ok a s') : Accepts x := by
  intro s s' he
  obtain ⟨a, s₁, h₁⟩ := h s
  rw [h₁] at he
  cases he

theorem Accepts.bind {α β : Type} {x : M α} {f : α → M β} (hx : Accepts x) (hf : ∀ a, Accepts (f a)) :
    Accepts (x >>= f) := by
  intro s s' he
  cases h : x s with
  | ok a s₁ =>
    rw [Prog.bind_ok h] at he
    exact hf a s₁ s' he
  | error e s₁ =>
    rw [bind_error h] at he
    injection he with he
    rw [he] at h
    exact hx s s₁ h

theorem accepts_pure {α : Type} (a : α) : Accepts (pure a) := Accepts.ok fun s => ⟨a, s, rfl⟩

theorem accepts_throw {α : Type} {e : Fault} (he : e ≠ .tooLong) : Accepts (throw e : M α) := by
  intro s s' h
  injection h with h
  exact he h

theorem accepts_write_ (data : List ℕ) : Accepts (write_ tdo data) := Accepts.ok fun _ => ⟨_, _, rfl⟩

theorem accepts_readwritebit (tms tdi : Bool) : Accepts (readwritebit tdo tms tdi) :=
  Accepts.ok fun _ => ⟨_, _, rfl⟩

theorem accepts_writebit (tms tdi : Bool) : Accepts (writebit tdo tms tdi) := Accepts.ok fun _ => ⟨_, _, rfl⟩

theorem accepts_readLoop (n i val outval : ℕ) : Accepts (readLoop tdo n i val outval) := by
  induction n generalizing i val outval with
  | zero => exact accepts_pure outval
  | succ n ih => exact (accepts_readwritebit tdo _ _).bind fun _ => ih _ _ _

theorem accepts_writeLoop (n val : ℕ) : Accepts (writeLoop tdo n val) := by
  induction n generalizing val with
  | zero => exact accepts_pure ()
  | succ n ih => exact (accepts_writebit tdo _ _).bind fun _ => ih _

theorem accepts_byteLoop (fuel nbytes val length : ℕ) : Accepts (byteLoop tdo fuel nbytes val length) := by
  induction fuel generalizing nbytes val length with
  | zero => exact accepts_throw (by decide)
  | succ fuel ih =>
    rw [byteLoop]
    split_ifs
    · exact accepts_pure _
    · exact accepts_throw (by decide)
    · exact (accepts_write_ tdo _).bind fun _ => (accepts_write_ tdo _).bind fun _ => ih _ _ _

theorem accepts_shiftinval (length val : ℕ) : Accepts (shiftinval tdo length val) :=
  (accepts_byteLoop tdo _ _ _ _).bind fun _ => accepts_writeLoop tdo _ _

theorem accepts_tmsLoop (tms : BitSequence) (shouldRead : Bool) (tdo' : ℕ) :
    Accepts (tmsLoop tdo tms shouldRead tdo') := by
  induction tms generalizing shouldRead tdo' with
  | nil => exact accepts_pure tdo'
  | cons t tms ih =>
    refine Accepts.bind (Accepts.ok fun s => ⟨s, s, rfl⟩) fun s => ?_
    have hrest (tdo' : ℕ) : Accepts (do
        modify fun s : BlasterState => { s with last := none }
        tmsLoop tdo tms false tdo') := Accepts.bind (Accepts.ok fun _ => ⟨_, _, rfl⟩) fun _ => ih _ _
    cases s.last with
    | none => exact (accepts_writebit tdo t false).bind fun _ => hrest tdo'
    | some last =>
      cases shouldRead with
      | true => exact (accepts_readwritebit tdo t last).bind hrest
      | false => exact (accepts_writebit tdo t last).bind fun _ => hrest tdo'

theorem accepts_writeTms (tms : BitSequence) (shouldRead : Bool) : Accepts (writeTms tdo tms shouldRead) :=
  (accepts_tmsLoop tdo tms shouldRead 0).bind fun _ => accepts_pure _

theorem accepts_keepLast (out : BitSequence) (useLast : Bool) : Accepts (keepLast out useLast) := by
  cases useLast with
  | true =>
    rw [keepLast, if_pos rfl]
    cases out.getLast? with
    | none => exact accepts_throw (by decide)
    | some b => exact Accepts.ok fun _ => ⟨_, _, rfl⟩
  | false => exact accepts_pure out

theorem keepLast_ok {out : BitSequence} {useLast : Bool} (hne : useLast = true → out ≠ []) (s : BlasterState) :
    keepLast out useLast s =
      .ok (Wire.now out useLast) { s with last := if useLast then out.getLast? else s.last } := by
  cases useLast with
  | true =>
    rw [keepLast, if_pos rfl, List.getLast?_eq_some_getLast (hne rfl)]
    rfl
  | false => rfl

theorem accepts_shiftinoutval {length : ℕ} (h : length < 512) (val : ℕ) :
    Accepts (shiftinoutval tdo length val) := by
  have hbytes : ¬ length >>> 3 > 63 := by
    rw [Nat.shiftRight_eq_div_pow]
    omega
  simp only [shiftinoutval, if_neg hbytes]
  refine (accepts_write_ tdo _).bind fun _ => (accepts_write_ tdo _).bind fun _ => ?_
  exact Accepts.bind (Accepts.ok fun _ => ⟨_, _, rfl⟩) fun _ => accepts_readLoop tdo _ _ _ _

/-- It refuses before anything is written. -/
theorem shiftinoutval_tooLong {length : ℕ} (h : 512 ≤ length) (val : ℕ) (s : BlasterState) :
    shiftinoutval tdo length val s = .error .tooLong s := by
  have hbytes : length >>> 3 > 63 := by
    rw [Nat.shiftRight_eq_div_pow]
    omega
  simp only [shiftinoutval, if_pos hbytes]
  rfl

theorem accepts_writeread {out : BitSequence} {useLast : Bool} (h : (Wire.now out useLast).length < 512) :
    Accepts (writeread tdo out useLast) := by
  have hrest : Accepts (do
      let val ← shiftinoutval tdo (Wire.now out useLast).length (BitSequence.toInt (Wire.now out useLast))
      return BitSequence.ofInt val false (Wire.now out useLast).length) :=
    (accepts_shiftinoutval tdo h _).bind fun _ => accepts_pure _
  intro s s' he
  by_cases hne : useLast = true → out ≠ []
  · rw [writeread, Prog.bind_ok (keepLast_ok hne s)] at he
    exact hrest _ s' he
  · obtain ⟨rfl, rfl⟩ : useLast = true ∧ out = [] := by simpa using hne
    cases he

theorem writeread_tooLong {out : BitSequence} {useLast : Bool} (h : 512 ≤ (Wire.now out useLast).length)
    (s : BlasterState) : writeread tdo out useLast s =
      .error .tooLong { s with last := if useLast then out.getLast? else s.last } := by
  have hne : useLast = true → out ≠ [] := by
    rintro rfl rfl
    exact absurd h (by decide)
  rw [writeread, Prog.bind_ok (keepLast_ok hne s), bind_error (shiftinoutval_tooLong tdo h _ _)]

/-- If the call is refused for its length, it leaves everything as it was: the edges, the bit
kept back, and the state of the cable. -/
def RefusedWhole (c : CtrlCall) (s : BlasterState) : Prop :=
  ∀ s', (controller tdo).call c s = .error .tooLong s' → s' = s

/-- A call that stores another last bit before it is refused. -/
def StoresFirst (s : BlasterState) : CtrlCall → Prop
  | .writeread out true => 512 ≤ out.dropLast.length ∧ s.last ≠ out.getLast?
  | _ => False

/-- A call that is never refused has nothing to undo. -/
theorem refusedWhole_of_accepts {c : CtrlCall} (h : Accepts ((controller tdo).call c)) (s : BlasterState) :
    RefusedWhole tdo c s := by
  intro s' he
  exact absurd he (h s s')

theorem refusedWhole_read (n : ℕ) (s : BlasterState) : RefusedWhole tdo (.read n) s := by
  by_cases hlong : 512 ≤ n
  · intro s' h
    have hread : read tdo n s = .error .tooLong s := bind_error (shiftinoutval_tooLong tdo hlong 0 s)
    have hs : (controller tdo).call (.read n) s = .error .tooLong s := bind_error hread
    rw [hs] at h
    injection h with _ h
    exact h.symm
  · refine refusedWhole_of_accepts tdo (Accepts.bind ?_ fun _ => accepts_pure _) s
    exact (accepts_shiftinoutval tdo (Nat.not_le.mp hlong) 0).bind fun _ => accepts_pure _

/-- A `writeread` that is too long has stored its last bit when it is refused. -/
theorem refusedWhole_writeread {out : BitSequence} {useLast : Bool}
    (hlong : 512 ≤ (Wire.now out useLast).length) (s : BlasterState) :
    RefusedWhole tdo (.writeread out useLast) s ↔ (useLast = true → s.last = out.getLast?) := by
  have hs : (controller tdo).call (.writeread out useLast) s =
      .error .tooLong { s with last := if useLast then out.getLast? else s.last } :=
    bind_error (writeread_tooLong tdo hlong s)
  rw [RefusedWhole, hs]
  constructor
  · rintro h rfl
    exact (congrArg BlasterState.last (h _ rfl)).symm
  · rintro h s' ⟨⟩
    cases useLast with
    | false => rfl
    | true => rw [if_pos rfl, ← h rfl]

/-- **When a refused call leaves no trace**: exactly if it is not a `writeread` that keeps back
a last bit other than the one that is kept back already. -/
theorem refusedWhole_iff (c : CtrlCall) (s : BlasterState) : RefusedWhole tdo c s ↔ ¬ StoresFirst s c := by
  cases c with
  | writeTms seq shouldRead =>
    refine iff_of_true (refusedWhole_of_accepts tdo ?_ s) not_false
    exact (accepts_writeTms tdo seq shouldRead).bind fun _ => accepts_pure _
  | write seq useLast =>
    refine iff_of_true (refusedWhole_of_accepts tdo (Accepts.bind ?_ fun _ => accepts_pure _) s) not_false
    exact (accepts_keepLast seq useLast).bind fun _ => accepts_shiftinval tdo _ _
  | reset =>
    refine iff_of_true (refusedWhole_of_accepts tdo (Accepts.bind ?_ fun _ => accepts_pure _) s) not_false
    exact (accepts_writeTms tdo _ _).bind fun _ => accepts_pure _
  | read n => exact iff_of_true (refusedWhole_read tdo n s) not_false
  | writeread out useLast =>
    by_cases hlong : 512 ≤ (Wire.now out useLast).length
    · rw [refusedWhole_writeread tdo hlong]
      cases useLast with
      | false => exact iff_of_true (fun h => nomatch h) not_false
      | true =>
        rw [StoresFirst, not_and, not_not]
        exact ⟨fun h _ => h rfl, fun h _ => h hlong⟩
    · refine iff_of_true (refusedWhole_of_accepts tdo (Accepts.bind ?_ fun _ => accepts_pure _) s) ?_
      · exact accepts_writeread tdo (Nat.not_le.mp hlong)
      · cases useLast with
        | false => exact not_false
        | true => exact fun h => hlong h.1

/-- **`writeread` of 513 bits keeps back the last one, and is then refused.** -/
theorem writeread_not_refusedWhole : ¬ ∀ (tdo : History → Bool) (c : CtrlCall) (s : BlasterState),
    RefusedWhole tdo c s := by
  intro h
  have hlen (n : ℕ) : (Wire.now (List.replicate (n + 1) true) true).length = n := by simp [Wire.now]
  have hlast (n : ℕ) : (List.replicate (n + 1) true).getLast? = some true := by simp [List.getLast?_replicate]
  have herr := bind_error (f := fun r => pure (some r)) (writeread_tooLong (fun _ => true) (hlen 512).ge fresh)
  have hsame := congrArg BlasterState.last (h _ (.writeread (List.replicate (512 + 1) true) true) fresh _ herr)
  rw [if_pos rfl, hlast 512] at hsame
  exact absurd hsame (by decide)

end PyOcdRiscv.Jtag.Blaster
