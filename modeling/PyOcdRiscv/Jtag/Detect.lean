import PyOcdRiscv.Jtag.JtagTool

/-!
# Finding out the length of a register

What `detect_register_size` finds. A register on the way of the data is a delay: what comes
out is what was in it, then what went in (`ShowsRegister`). At the right length every pattern
comes back in its place (`patternLoop_found`). At a length that is too short the wrong bits
are looked at, and they cannot be the right ones in all 255 rounds: the lowest bit of the
pattern changes from round to round, and no bit of an earlier round, taken at a fixed place,
does so too (`not_matches`). That holds as long as the delay is one of fewer than 252
rounds, which for every length tried is the case up to 2520 bits; a register that is longer
may answer with what it held before.
-/

namespace PyOcdRiscv.Jtag

open Lib

/-- After `h` the target shows a register with the contents `c`. -/
def ShowsRegister (tdo : History → Bool) (h : History) (c : List Bool) : Prop :=
  ∀ l : List Bool, sample tdo h (dataEdges l) = (c ++ l).take l.length

/-- What was shifted in takes the place of what was shifted out. -/
theorem ShowsRegister.shift {tdo : History → Bool} {h : History} {c : List Bool} (hc : ShowsRegister tdo h c)
    (l : List Bool) : ShowsRegister tdo (h ++ dataEdges l) ((c ++ l).drop l.length) := by
  intro l'
  have hboth := hc (l ++ l')
  rw [dataEdges_append, sample_append, hc l] at hboth
  have hlen : ((c ++ l).take l.length).length = l.length := by simp
  have hrest := congrArg (List.drop l.length) hboth
  rw [List.drop_left' hlen] at hrest
  rw [hrest, List.length_append, ← List.append_assoc, List.drop_take, List.drop_append_of_le_length (by simp),
    Nat.add_sub_cancel_left]

namespace JtagTool

@[simp] theorem zeros_eq (length : ℕ) : zeros length = List.replicate length false := by
  cases length with
  | zero => rfl
  | succ n => simp [zeros, BitSequence.updateLength]

/-! ### The bits of a round -/

/-- What is shifted in the round of the pattern `p`. -/
def sent (length p : ℕ) : List Bool := zeros length ++ bits (length + 8) p

/-- What is shifted in the `k` rounds from the pattern `p` on. -/
def sentFrom (length : ℕ) : ℕ → ℕ → List Bool
  | _, 0 => []
  | p, k + 1 => sent length p ++ sentFrom length (p + 1) k

/-- The contents after a round. -/
def nextContents (length p : ℕ) (c : List Bool) : List Bool := (c ++ sent length p).drop (2 * length + 8)

/-- The pattern comes back in its place, from a register with the contents `c`. -/
def Matches (length p : ℕ) (c : List Bool) : Prop := ((c ++ sent length p).drop (2 * length)).take 8 = bits 8 p

instance (length p : ℕ) (c : List Bool) : Decidable (Matches length p c) :=
  inferInstanceAs (Decidable (_ = _))

/-- It does so in each of the `k` rounds from `p` on. -/
def MatchesFrom (length : ℕ) : ℕ → List Bool → ℕ → Prop
  | _, _, 0 => True
  | p, c, k + 1 => Matches length p c ∧ MatchesFrom length (p + 1) (nextContents length p c) k

@[simp] theorem length_sent (length p : ℕ) : (sent length p).length = 2 * length + 8 := by
  simp only [sent, zeros_eq, List.length_append, List.length_replicate, length_bits]
  omega

@[simp] theorem length_nextContents (length p : ℕ) (c : List Bool) : (nextContents length p c).length = c.length := by
  simp [nextContents]

/-- A pattern of eight bits, with zeros above. -/
theorem bits_pattern (length : ℕ) {p : ℕ} (hp : p < 256) :
    bits (length + 8) p = bits 8 p ++ List.replicate length false := by
  rw [Nat.add_comm, bits_add, Nat.div_eq_of_lt (b := 2 ^ 8) hp, bits_of_zero]

theorem getElem?_bits {n j : ℕ} (hj : j < n) (v : ℕ) : (bits n v)[j]? = some (v.testBit j) := by
  induction n generalizing j v with
  | zero => omega
  | succ n ih =>
    cases j with
    | zero => simp [bits, Nat.testBit_zero, ← Bool.beq_eq_decide_eq]
    | succ j =>
      rw [bits, List.getElem?_cons_succ, ih (by omega), Nat.testBit_succ]

/-- One bit of a round. -/
theorem getElem?_sent {length p o : ℕ} (hp : p < 256) (ho : o < 2 * length + 8) :
    (sent length p)[o]? = some (decide (length ≤ o ∧ o < length + 8) && p.testBit (o - length)) := by
  rw [sent, zeros_eq]
  by_cases hlow : o < length
  · rw [List.getElem?_append_left (by simpa using hlow)]
    simp [hlow]
  · rw [List.getElem?_append_right (by simpa using hlow), List.length_replicate, getElem?_bits (by omega)]
    by_cases hmid : o < length + 8
    · simp [hmid, Nat.le_of_not_lt hlow]
    · have hzero : p.testBit (o - length) = false :=
        Nat.testBit_lt_two_pow (hp.trans_le (Nat.pow_le_pow_right (n := 2) (by decide) (show 8 ≤ o - length by omega)))
      simp [hzero]

/-- One bit of the rounds from `p` on. -/
theorem getElem?_sentFrom {length p k r o : ℕ} (hr : r < k) (ho : o < 2 * length + 8) :
    (sentFrom length p k)[r * (2 * length + 8) + o]? = (sent length (p + r))[o]? := by
  induction k generalizing p r with
  | zero => omega
  | succ k ih =>
    rw [sentFrom]
    cases r with
    | zero => rw [Nat.zero_mul, Nat.zero_add, List.getElem?_append_left (by simpa using ho), Nat.add_zero]
    | succ r =>
      have hround : (r + 1) * (2 * length + 8) = r * (2 * length + 8) + (2 * length + 8) := Nat.succ_mul _ _
      rw [List.getElem?_append_right (by rw [length_sent]; omega), length_sent,
        show (r + 1) * (2 * length + 8) + o - (2 * length + 8) = r * (2 * length + 8) + o by omega,
        ih (by omega), Nat.add_right_comm, Nat.add_assoc]

/-! ### At a length that is too short -/

/-- What matches are about: eight bits in each round, of what was in the register and what
was sent. -/
theorem MatchesFrom.getElem? {length p k : ℕ} {c : List Bool} (h : MatchesFrom length p c k) {r j : ℕ}
    (hr : r < k) (hj : j < 8) :
    (c ++ sentFrom length p k)[r * (2 * length + 8) + 2 * length + j]? = some ((p + r).testBit j) := by
  induction k generalizing p r c with
  | zero => omega
  | succ k ih =>
    obtain ⟨hfirst, hrest⟩ := h
    rw [sentFrom, ← List.append_assoc]
    cases r with
    | zero =>
      rw [Nat.zero_mul, Nat.zero_add, List.getElem?_append_left (by simp; omega), Nat.add_zero, ← getElem?_bits hj,
        ← hfirst, List.getElem?_take_of_lt hj, List.getElem?_drop]
    | succ r =>
      have hsplit : c ++ sent length p = (c ++ sent length p).take (2 * length + 8) ++ nextContents length p c :=
        (List.take_append_drop _ _).symm
      have hlen : ((c ++ sent length p).take (2 * length + 8)).length = 2 * length + 8 := by simp
      have hround : (r + 1) * (2 * length + 8) = r * (2 * length + 8) + (2 * length + 8) := Nat.succ_mul _ _
      rw [hsplit, List.append_assoc, List.getElem?_append_right (by omega), hlen,
        show (r + 1) * (2 * length + 8) + 2 * length + j - (2 * length + 8) =
          r * (2 * length + 8) + 2 * length + j by omega,
        ih hrest (by omega), Nat.add_right_comm, Nat.add_assoc]

/-- A register that is longer by `d` bits than the length tried shows what was sent `d` bits before. -/
theorem MatchesFrom.sent {length p k : ℕ} {c : List Bool} (h : MatchesFrom length p c k) {d r q o j : ℕ}
    (hd : c.length = length + d) (hr : r < k) (hj : j < 8) (hq : q < k) (ho : o < 2 * length + 8)
    (hpos : r * (2 * length + 8) + length + j = q * (2 * length + 8) + o + d) (hp : p + k ≤ 256) :
    (p + r).testBit j = (decide (length ≤ o ∧ o < length + 8) && (p + q).testBit (o - length)) := by
  have hbit := h.getElem? hr hj
  rw [List.getElem?_append_right (by omega), hd,
    show r * (2 * length + 8) + 2 * length + j - (length + d) = q * (2 * length + 8) + o by omega,
    getElem?_sentFrom hq ho, getElem?_sent (by omega) ho] at hbit
  exact (Option.some.inj hbit).symm

/-- The lowest bit of the pattern is not always zero. -/
theorem exists_odd (m : ℕ) : ∃ q < 2, (m + q).testBit 0 = true := by
  rcases Nat.mod_two_eq_zero_or_one m with h | h
  · exact ⟨1, by decide, by simp [Nat.testBit_zero]; omega⟩
  · exact ⟨0, by decide, by simp [Nat.testBit_zero, h]⟩

/-- **At a length that is too short a pattern is missed.** -/
theorem not_matches {length d : ℕ} {c : List Bool} (hd : c.length = length + d) (hpos : 0 < d)
    (hlt : d < 252 * (2 * length + 8)) : ¬ MatchesFrom length 1 c 255 := by
  intro h
  -- the delay in rounds and bits
  obtain ⟨m, e, hm, he, hde⟩ : ∃ m e, m < 252 ∧ e < 2 * length + 8 ∧ d = m * (2 * length + 8) + e :=
    ⟨d / (2 * length + 8), d % (2 * length + 8), Nat.div_lt_of_lt_mul (by rwa [Nat.mul_comm]),
      Nat.mod_lt _ (by omega), (Nat.div_add_mod' _ _).symm⟩
  have hround (q : ℕ) : (m + q) * (2 * length + 8) = q * (2 * length + 8) + m * (2 * length + 8) := by
    rw [Nat.add_comm m, Nat.add_mul]
  rcases Nat.eq_zero_or_pos e with rfl | hpe
  · -- whole rounds: one pattern would be another
    have hbits : bits 8 (1 + m) = bits 8 1 := by
      refine List.ext_getElem? fun j => ?_
      by_cases hj : j < 8
      · have hbit := h.sent (r := m) (q := 0) (o := length + j) hd (by omega) hj (by omega) (by omega) (by omega)
          (by omega)
        rw [decide_eq_true (by omega), Bool.true_and, Nat.add_sub_cancel_left, Nat.add_zero] at hbit
        rw [getElem?_bits hj, getElem?_bits hj, hbit]
      · rw [List.getElem?_eq_none (by simpa using hj), List.getElem?_eq_none (by simpa using hj)]
    have hvalue := congrArg value hbits
    rw [value_bits_of_lt (by omega), value_bits_of_lt (by decide)] at hvalue
    obtain rfl : m = 0 := by omega
    omega
  · by_cases hel : e ≤ length
    · -- the lowest bit is looked for among the zeros before a pattern
      obtain ⟨q, hq, hodd⟩ := exists_odd (1 + m)
      have hr := hround q
      have hbit := h.sent (r := m + q) (q := q) (o := length - e) (j := 0) hd (by omega) (by decide) (by omega)
        (by omega) (by omega) (by omega)
      rw [← Nat.add_assoc, hodd, decide_eq_false (by omega), Bool.false_and] at hbit
      exact Bool.false_ne_true hbit.symm
    · have hsent (q : ℕ) (hq : q < 3) := h.sent (r := m + q + 1) (q := q) (o := 3 * length + 8 - e) (j := 0) hd
        (by omega) (by decide) (by omega) (by omega)
        (by have := hround q; have := Nat.add_mul (m + q) 1 (2 * length + 8); omega) (by omega)
      by_cases hb : 8 ≤ 2 * length + 8 - e
      · -- or among the zeros behind one
        obtain ⟨q, hq, hodd⟩ := exists_odd (2 + m)
        have hbit := hsent q (by omega)
        rw [show 1 + (m + q + 1) = 2 + m + q by omega, hodd, decide_eq_false (by omega), Bool.false_and] at hbit
        exact Bool.false_ne_true hbit.symm
      · -- or in a higher bit of a pattern, which does not change as often
        have hbit (q : ℕ) (hq : q < 3) : (2 + m + q).testBit 0 = (1 + q).testBit (2 * length + 8 - e) := by
          have hq' := hsent q hq
          rwa [show 1 + (m + q + 1) = 2 + m + q by omega, decide_eq_true (by omega), Bool.true_and,
            show 3 * length + 8 - e - length = 2 * length + 8 - e by omega] at hq'
        obtain ⟨b, hb'⟩ : ∃ b, 2 * length + 8 - e = b + 1 := ⟨2 * length + 7 - e, by omega⟩
        have hsame : (1 + 1).testBit (b + 1) = (1 + 2).testBit (b + 1) := by simp [Nat.testBit_succ]
        rw [← hb', ← hbit 1 (by decide), ← hbit 2 (by decide)] at hsame
        simp only [Nat.testBit_zero, decide_eq_decide] at hsame
        omega

/-! ### The loops -/

section
variable {φ ε : Type} {E : ToolEngine φ ε} {tdo : History → Bool} (L : E.Lawful tdo)

/-- What a round looks at. -/
theorem irshift_received {length p : ℕ} (hp : p < 256) {h : History} {c : List Bool} (hc : ShowsRegister tdo h c) :
    let rcv := sample tdo (h ++ dataEdges (zeros length)) (dataEdges (bits (length + 8) p))
    BitSequence.cmp (BitSequence.irshift rcv length) (bits (length + 8) p) = 0 ↔ Matches length p c := by
  intro rcv
  have hzeros : (zeros length).length = length := by simp
  have hrcv : rcv = ((c ++ sent length p).drop length).take (length + 8) := by
    have hdrop : (c ++ zeros length ++ bits (length + 8) p).drop length =
        (c ++ zeros length).drop length ++ bits (length + 8) p := List.drop_append_of_le_length (by simp)
    rw [show rcv = _ from hc.shift (zeros length) (bits (length + 8) p), length_bits, hzeros, sent,
      ← List.append_assoc, hdrop]
  have hlen : rcv.length = length + 8 := by simp [rcv]
  have hshift : BitSequence.irshift rcv length =
      ((c ++ sent length p).drop (2 * length)).take 8 ++ List.replicate length false := by
    rw [BitSequence.irshift, hlen, Nat.mod_eq_of_lt (by omega), hrcv, List.drop_take, List.drop_drop,
      Nat.add_sub_cancel_left, ← Nat.two_mul]
  rw [BitSequence.cmp_eq_zero, hshift, bits_pattern length hp, List.append_left_inj]
  exact Iff.rfl

include L in
/-- **A round.** -/
theorem patternLoop_round {s : ε} {sm : TapState} {h : History} {c : List Bool} (hs : L.At s sm h)
    (hsm : sm.Shifts) (hc : ShowsRegister tdo h c) {length p : ℕ} (hpos : 0 < length) (hlen : length ≤ 12)
    (hp : p < 256) (k : ℕ) (ok : Bool) (stuck : Option Bool) : ∃ s' stuck',
      patternLoop E length (k + 1) (bits (length + 8) p) ok stuck s =
          (if Matches length p c then patternLoop E length k (bits (length + 8) (p + 1)) true stuck' s'
          else .ok (false, stuck') s') ∧
        L.At s' sm (h ++ dataEdges (sent length p)) ∧
        ShowsRegister tdo (h ++ dataEdges (sent length p)) (nextContents length p c) := by
  have hinc : BitSequence.inc (bits (length + 8) p) = bits (length + 8) (p + 1) := by
    refine BitSequence.inc_bits (lt_of_lt_of_le (Nat.succ_lt_succ hp) ?_)
    exact le_trans (by decide) (Nat.pow_le_pow_right (n := 2) (by decide) (show 9 ≤ length + 8 by omega))
  obtain ⟨s₁, h₁, hs₁⟩ := L.write hs hsm (zeros length) (by simp; omega) (by simp; omega)
  obtain ⟨s₂, h₂, hs₂⟩ := L.shiftRegister hs₁ hsm (bits (length + 8) p) (bits_ne_nil (by omega) p)
    (by rw [length_bits]; omega)
  have hedges : h ++ dataEdges (zeros length) ++ dataEdges (bits (length + 8) p) = h ++ dataEdges (sent length p) := by
    rw [List.append_assoc, ← dataEdges_append, sent]
  rw [hedges] at hs₂
  refine ⟨s₂, nextStuck stuck (BitSequence.invariant (sample tdo (h ++ dataEdges (zeros length))
    (dataEdges (bits (length + 8) p)))), ?_, hs₂, ?_⟩
  · rw [patternLoop, Prog.bind_ok h₁, Prog.bind_ok h₂, hinc]
    by_cases hm : Matches length p c
    · rw [if_pos hm, if_pos ((irshift_received hp hc).mpr hm)]
    · rw [if_neg hm, if_neg (mt (irshift_received hp hc).mp hm)]
      rfl
  · have hshift := hc.shift (sent length p)
    rwa [length_sent] at hshift

include L in
/-- **At a length at which a pattern is missed**. -/
theorem patternLoop_missed {s : ε} {sm : TapState} {h : History} {c : List Bool} (hs : L.At s sm h)
    (hsm : sm.Shifts) (hc : ShowsRegister tdo h c) {length p k : ℕ} (hpos : 0 < length) (hlen : length ≤ 12)
    (hp : p + k ≤ 256) (hm : ¬ MatchesFrom length p c k) (ok : Bool) (stuck : Option Bool) :
    ∃ s' stuck' l c', patternLoop E length k (bits (length + 8) p) ok stuck s = .ok (false, stuck') s' ∧
      L.At s' sm (h ++ dataEdges l) ∧ ShowsRegister tdo (h ++ dataEdges l) c' ∧ c'.length = c.length := by
  induction k generalizing s h c p ok stuck with
  | zero => exact absurd trivial hm
  | succ k ih =>
    obtain ⟨s', stuck', h', hs', hc'⟩ := patternLoop_round L hs hsm hc hpos hlen (p := p) (by omega) k ok stuck
    by_cases hfirst : Matches length p c
    · obtain ⟨s'', stuck'', l, c'', h'', hs'', hc'', hl⟩ :=
        ih hs' hc' (by omega) (fun hrest => hm ⟨hfirst, hrest⟩) true stuck'
      rw [List.append_assoc, ← dataEdges_append] at hs'' hc''
      exact ⟨s'', stuck'', _, c'', by rw [h', if_pos hfirst, h''], hs'', hc'', by rw [hl, length_nextContents]⟩
    · exact ⟨s', stuck', _, _, by rw [h', if_neg hfirst], hs', hc', length_nextContents _ _ _⟩

/-- A register of the length tried gives the pattern back, and is full of zeros then. -/
theorem matches_found {length p : ℕ} {c : List Bool} (hp : p < 256) (hc : c.length = length) :
    Matches length p c ∧ nextContents length p c = zeros length := by
  have hsplit : c ++ sent length p = (c ++ zeros length) ++ (bits 8 p ++ zeros length) := by
    rw [sent, bits_pattern length hp, zeros_eq, List.append_assoc]
  have hhead : (c ++ zeros length).length = 2 * length := by
    rw [List.length_append, hc, zeros_eq, List.length_replicate, Nat.two_mul]
  constructor
  · rw [Matches, hsplit, List.drop_left' hhead, List.take_left' (length_bits 8 p)]
  · rw [nextContents, hsplit, ← List.append_assoc, List.drop_left' (by rw [List.length_append, hhead, length_bits])]

include L in
/-- **At the length of the register** every pattern comes back. -/
theorem patternLoop_found {s : ε} {sm : TapState} {h : History} {c : List Bool} (hs : L.At s sm h)
    (hsm : sm.Shifts) (hc : ShowsRegister tdo h c) {length p : ℕ} (hpos : 0 < length) (hlen : length ≤ 12)
    (hcl : c.length = length) (k : ℕ) (hp : p + k < 256) (ok : Bool) (stuck : Option Bool) :
    ∃ s' stuck' l, patternLoop E length (k + 1) (bits (length + 8) p) ok stuck s = .ok (true, stuck') s' ∧
      L.At s' sm (h ++ dataEdges l) ∧ ShowsRegister tdo (h ++ dataEdges l) (zeros length) := by
  induction k generalizing s h c p ok stuck with
  | zero =>
    obtain ⟨s', stuck', h', hs', hc'⟩ := patternLoop_round L hs hsm hc hpos hlen (p := p) (by omega) 0 ok stuck
    obtain ⟨hfirst, hnext⟩ := matches_found (p := p) (by omega) hcl
    rw [hnext] at hc'
    exact ⟨s', stuck', _, by rw [h', if_pos hfirst]; rfl, hs', hc'⟩
  | succ k ih =>
    obtain ⟨s', stuck', h', hs', hc'⟩ := patternLoop_round L hs hsm hc hpos hlen (p := p) (by omega) (k + 1) ok stuck
    obtain ⟨hfirst, hnext⟩ := matches_found (p := p) (by omega) hcl
    obtain ⟨s'', stuck'', l, h'', hs'', hc''⟩ :=
      ih (p := p + 1) hs' hc' (by rw [hnext, zeros_eq, List.length_replicate]) (by omega) true stuck'
    rw [List.append_assoc, ← dataEdges_append] at hs'' hc''
    exact ⟨s'', stuck'', _, by rw [h', if_pos hfirst, h''], hs'', hc''⟩

include L in
/-- **The lengths one after the other**, up to that of the register. -/
theorem lengthLoop_eq {s : ε} {sm : TapState} {h : History} {c : List Bool} (hs : L.At s sm h)
    (hsm : sm.Shifts) (hc : ShowsRegister tdo h c) (hmax : c.length ≤ 2520) (k length : ℕ) (hpos : 0 < length)
    (hle : length ≤ c.length) (hk : 13 < length + k) (hlen : length ≤ 13) (stuck : Option Bool) :
    ∃ s' l c', lengthLoop E k length stuck s = .ok (if c.length ≤ 12 then .length c.length else .none) s' ∧
      L.At s' sm (h ++ dataEdges l) ∧ ShowsRegister tdo (h ++ dataEdges l) c' ∧ c'.length = c.length ∧
        (c.length ≤ 12 → c' = zeros c.length) := by
  induction k generalizing s h c length stuck with
  | zero => omega
  | succ k ih =>
    by_cases hgive : length > 12
    · -- the function gives up
      refine ⟨s, [], c, ?_, by simpa using hs, by simpa using hc, rfl, fun hshort => by omega⟩
      rw [lengthLoop, if_pos hgive, if_neg (by omega)]
      rfl
    · have hinj : BitSequence.inc (zeros (length + PATTERN_LEN)) = bits (length + 8) 1 := by
        rw [zeros_eq, ← bits_of_zero]
        exact BitSequence.inc_bits (Nat.one_lt_two_pow (by omega))
      rcases Nat.eq_or_lt_of_le hle with heq | hlt
      · -- the length of the register
        obtain ⟨s', stuck', l, h', hs', hc'⟩ :=
          patternLoop_found L hs hsm hc hpos (by omega) heq.symm (p := 1) 254 (by decide) false stuck
        have h255 : patternLoop E length ((1 <<< PATTERN_LEN) - 1) (bits (length + 8) 1) false stuck s =
          .ok (true, stuck') s' := h'
        refine ⟨s', l, _, ?_, hs', hc', by simp [heq], fun _ => by rw [heq]⟩
        rw [lengthLoop, if_neg hgive, hinj, Prog.bind_ok h255, if_pos rfl, ← heq, if_pos (by omega)]
        rfl
      · -- one that is too short
        have hmiss : ¬ MatchesFrom length 1 c 255 :=
          not_matches (d := c.length - length) (by omega) (by omega) (by omega)
        obtain ⟨s', stuck', l, c', h', hs', hc', hl⟩ :=
          patternLoop_missed L hs hsm hc hpos (by omega) (by decide) hmiss false stuck
        obtain ⟨s'', l', c'', h'', hs'', hc'', hl', hzero⟩ :=
          ih hs' hc' (by omega) (length + 1) (by omega) (by omega) (by omega) (by omega) stuck'
        rw [List.append_assoc, ← dataEdges_append] at hs'' hc''
        have h255 : patternLoop E length ((1 <<< PATTERN_LEN) - 1) (bits (length + 8) 1) false stuck s =
          .ok (false, stuck') s' := h'
        refine ⟨s'', _, c'', ?_, hs'', hc'', hl'.trans hl, fun hshort => by rw [hzero (by omega), hl]⟩
        rw [lengthLoop, if_neg hgive, hinj, Prog.bind_ok h255, if_neg Bool.false_ne_true, h'', hl]

/-- The edge with which a capture state is left. -/
def leaveEdges (sm : TapState) (b : Bool) : List Edge :=
  if JtagStateMachine.isOf .capture sm then [⟨false, b⟩] else []

/-- The shift state of the column. -/
def shiftState (sm : TapState) : TapState := if JtagStateMachine.isOf .capture sm then sm.next false else sm

include L in
/-- **What `detect_register_size` finds** with a register of at most 2520 bits selected: its
length if that is at most 12, and nothing otherwise. It raises nothing, shifts only, and
leaves the register full of zeros if it has found it. -/
theorem detectRegisterSize_eq {s : ε} {sm : TapState} {h : History} {n : ℕ} (hs : L.At s sm h)
    (hsm : sm ∈ [TapState.captureDr, .shiftDr, .captureIr, .shiftIr])
    (hc : ∀ b, ∃ c, ShowsRegister tdo (h ++ leaveEdges sm b) c ∧ c.length = n) (hpos : 0 < n) (hmax : n ≤ 2520) :
    ∃ s' b l c', detectRegisterSize E s = .ok (if n ≤ 12 then .length n else .none) s' ∧
      L.At s' (shiftState sm) (h ++ leaveEdges sm b ++ dataEdges l) ∧
      ShowsRegister tdo (h ++ leaveEdges sm b ++ dataEdges l) c' ∧ c'.length = n ∧
        (n ≤ 12 → c' = zeros n) := by
  have hget : (get : EStateM φ ε ε) s = .ok s s := rfl
  have hshift : JtagStateMachine.isOf .shift sm = true := by
    clear hs hc
    revert sm
    decide
  have hcolumn : (shiftState sm).Shifts := by
    clear hs hc
    simp only [List.mem_cons, List.not_mem_nil, or_false] at hsm
    rcases hsm with rfl | rfl | rfl | rfl
    · exact Or.inl rfl
    · exact Or.inl rfl
    · exact Or.inr rfl
    · exact Or.inr rfl
  by_cases hcap : JtagStateMachine.isOf .capture sm = true
  · obtain ⟨s₁, s₂, b, h₁, h₂, hs₂⟩ := L.leave hs hcap
    have hedge : leaveEdges sm b = [⟨false, b⟩] := if_pos hcap
    rw [shiftState, if_pos hcap] at hcolumn ⊢
    obtain ⟨c, hshows, rfl⟩ := hc b
    obtain ⟨s', l, c', h', hs', hc', hl, hzero⟩ := lengthLoop_eq L hs₂ hcolumn (hedge ▸ hshows) hmax
      (MAX_REG_LEN - 1) 1 (by decide) hpos (by decide) (by decide) none
    refine ⟨s', b, l, c', ?_, by rwa [hedge], by rwa [hedge], hl, hzero⟩
    rw [detectRegisterSize, Prog.bind_ok hget, L.stateOf hs, L.stateOf hs, hshift, hcap, if_neg (by decide),
      if_pos rfl]
    dsimp only
    rw [Prog.bind_ok h₁, Prog.bind_ok h₂, h']
  · have hedge : leaveEdges sm false = [] := if_neg hcap
    obtain ⟨c, hc₀, rfl⟩ := hc false
    rw [hedge, List.append_nil] at hc₀
    rw [shiftState, if_neg hcap] at hcolumn ⊢
    obtain ⟨s', l, c', h', hs', hc', hl, hzero⟩ := lengthLoop_eq L hs hcolumn hc₀ hmax
      (MAX_REG_LEN - 1) 1 (by decide) hpos (by decide) (by decide) none
    refine ⟨s', false, l, c', ?_, by rwa [hedge, List.append_nil], by rwa [hedge, List.append_nil], hl, hzero⟩
    rw [detectRegisterSize, Prog.bind_ok hget, L.stateOf hs, L.stateOf hs, hshift, if_neg (by decide),
      if_neg hcap]
    exact h'

end

end JtagTool

end PyOcdRiscv.Jtag
