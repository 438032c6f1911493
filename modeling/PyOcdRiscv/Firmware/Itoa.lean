import PyOcdRiscv.Lib.Bits
import PyOcdRiscv.Lib.Buffer
import PyOcdRiscv.Lib.Decimal
import PyOcdRiscv.Lib.Prog
import Mathlib.Data.List.Induction

/-!
# Integers as text

`itoa` of `lib.c`, which the programs of Murax and Pulp print numbers with. It writes the digits
of a number into a buffer, the last one first, and reverses them. A negative number is
negated before; the most negative one is its own negation, stays negative, and so do the
digits it is divided into.
-/

namespace PyOcdRiscv.Firmware

open Lib

/-- What a program can come to grief on. -/
inductive Fault where
  /-- An access outside of a buffer or a string. -/
  | outOfBounds
  /-- A `va_arg` that finds no argument. -/
  | noArgument
  /-- A loop that has not ended after the rounds it is given. -/
  | hang
  deriving DecidableEq, Repr

/-- The bytes of a text. -/
def bytes (text : List Char) : List UInt8 := text.map Char.toUInt8

/-- A function that is given a buffer `str`. -/
abbrev M := EStateM Fault (List UInt8)

/-- The loop of `reverse`, with `stop` for `end`. -/
def reverseLoop : ℕ → ℕ → ℕ → M Unit
  | 0, _, _ => throw .hang
  | fuel + 1, start, stop =>
    if start < stop then do
      let tmp ← Buffer.read .outOfBounds start
      Buffer.write .outOfBounds start (← Buffer.read .outOfBounds stop)
      Buffer.write .outOfBounds stop tmp
      reverseLoop fuel (start + 1) (stop - 1)
    else return

/-- `reverse`. For a length of 0, `end` starts at -1 and `stop` at 0: the loop has no round either way. -/
def reverse (fuel length : ℕ) : M Unit := reverseLoop fuel 0 (length - 1)

/-- The `while` loop of `itoa`, and `i` after it. -/
def digitLoop (base : Word) : ℕ → Word → ℕ → M ℕ
  | 0, _, _ => throw .hang
  | fuel + 1, value, i =>
    if value ≠ 0 then do
      let rem := value.srem base
      Buffer.write .outOfBounds i (UInt8.ofNat (rem + BitVec.ofNat 32 '0'.toNat).toNat)
      digitLoop base fuel (value.sdiv base) (i + 1)
    else return i

/-- `itoa`. Its loops are given `fuel` rounds. -/
def itoa (fuel : ℕ) (value base : Word) : M Unit := do
  if value = 0 then
    Buffer.write .outOfBounds 0 '0'.toUInt8
    Buffer.write .outOfBounds 1 0
  else
    let neg := value.slt 0
    let i ← digitLoop base fuel (if neg then -value else value) 0
    let i ← if neg then do
        Buffer.write .outOfBounds i '-'.toUInt8
        pure (i + 1)
      else pure i
    Buffer.write .outOfBounds i 0
    reverse fuel i

/-! ### Reversing -/

theorem reverseLoop_eq (mid pre post : List UInt8) {fuel : ℕ} (hfuel : mid.length < fuel) :
    reverseLoop fuel pre.length (pre.length + mid.length - 1) (pre ++ mid ++ post) =
      .ok () (pre ++ mid.reverse ++ post) := by
  induction mid using List.bidirectionalRec generalizing fuel pre post with
  | nil =>
    obtain ⟨fuel, rfl⟩ := Nat.exists_eq_succ_of_ne_zero (Nat.ne_zero_of_lt hfuel)
    rw [reverseLoop, if_neg (by simp)]
    rfl
  | singleton a =>
    obtain ⟨fuel, rfl⟩ := Nat.exists_eq_succ_of_ne_zero (Nat.ne_zero_of_lt hfuel)
    rw [reverseLoop, if_neg (by simp)]
    rfl
  | cons_append a mid b ih =>
    obtain ⟨fuel, rfl⟩ := Nat.exists_eq_succ_of_ne_zero (Nat.ne_zero_of_lt hfuel)
    have hlength : (a :: (mid ++ [b])).length = mid.length + 2 := by simp
    rw [hlength] at hfuel ⊢
    rw [reverseLoop, if_pos (by omega)]
    have hstop (x : UInt8) : pre.length + (mid.length + 2) - 1 = (pre ++ x :: mid).length := by simp
    -- the two ends are swapped, and the middle is left to the rest of the loop
    have hfirst := Buffer.read_append Fault.outOfBounds pre a (mid ++ b :: post) rfl
    have hlast := Buffer.read_append Fault.outOfBounds (pre ++ a :: mid) b post (hstop a)
    have hput := Buffer.write_append Fault.outOfBounds pre a (mid ++ b :: post) rfl b
    have hput' := Buffer.write_append Fault.outOfBounds (pre ++ b :: mid) b post (hstop b) a
    have hrest := ih (pre ++ [b]) (a :: post) (show mid.length < fuel by omega)
    simp only [List.append_assoc, List.cons_append, List.nil_append, List.length_append, List.length_cons,
      List.length_nil, List.reverse_append, List.reverse_cons, List.reverse_nil] at *
    rw [Prog.bind_ok hfirst, Prog.bind_ok hlast, Prog.bind_ok hput, Prog.bind_ok hput', ← hrest]
    congr 1
    omega

theorem reverse_eq (text post : List UInt8) {fuel : ℕ} (hfuel : text.length < fuel) :
    reverse fuel text.length (text ++ post) = .ok () (text.reverse ++ post) := by
  have h := reverseLoop_eq text [] post hfuel
  rwa [List.length_nil, Nat.zero_add, List.nil_append] at h

/-! ### The digits -/

/-- The digit `d` as a character, or `-d` of a number that has stayed negative. -/
def digitChar (neg : Bool) (d : ℕ) : UInt8 := UInt8.ofNat (if neg then '0'.toNat - d else '0'.toNat + d)

/-- The digits of a number, the last one first. -/
def digitChars (neg : Bool) (n : ℕ) : List UInt8 := (Nat.digits 10 n).map (digitChar neg)

theorem length_digitChars (neg : Bool) (n : ℕ) : (digitChars neg n).length = (Nat.digits 10 n).length :=
  List.length_map _

theorem digitChars_pos (neg : Bool) {n : ℕ} (hn : 0 < n) :
    digitChars neg n = digitChar neg (n % 10) :: digitChars neg (n / 10) := by
  rw [digitChars, Nat.digits_def' (by decide) hn, List.map_cons, ← digitChars]

/-- The remainder has the sign of the number. -/
theorem srem_char (value : Word) :
    UInt8.ofNat (value.srem 10 + BitVec.ofNat 32 '0'.toNat).toNat =
      digitChar value.msb (value.toInt.natAbs % 10) := by
  have hrem : value.srem 10 = BitVec.ofInt 32 (value.toInt.tmod 10) := by
    rw [show value.toInt.tmod 10 = (value.srem 10).toInt from (BitVec.toInt_srem value 10).symm, BitVec.ofInt_toInt]
  have hd : value.toInt.natAbs % 10 < 10 := Nat.mod_lt _ (by decide)
  rw [hrem, BitVec.msb_eq_toInt]
  by_cases hneg : value.toInt < 0
  · have h : value.toInt = -(value.toInt.natAbs : ℤ) := by omega
    have hmod : value.toInt.tmod 10 = -((value.toInt.natAbs % 10 : ℕ) : ℤ) := by
      rw [h, Int.neg_tmod, Int.natAbs_neg, Int.natAbs_natCast]
      rfl
    rw [hmod, decide_eq_true hneg]
    interval_cases value.toInt.natAbs % 10 <;> decide
  · have h : value.toInt = (value.toInt.natAbs : ℤ) := by omega
    have hmod : value.toInt.tmod 10 = ((value.toInt.natAbs % 10 : ℕ) : ℤ) := by
      rw [h, Int.natAbs_natCast]
      rfl
    rw [hmod, decide_eq_false hneg]
    interval_cases value.toInt.natAbs % 10 <;> decide

theorem toInt_sdiv_ten (value : Word) : (value.sdiv 10).toInt = value.toInt.tdiv 10 :=
  BitVec.toInt_sdiv_of_ne_or_ne value 10 (Or.inr (by decide))

theorem natAbs_sdiv_ten (value : Word) : (value.sdiv 10).toInt.natAbs = value.toInt.natAbs / 10 := by
  rw [toInt_sdiv_ten, Int.natAbs_tdiv]
  rfl

/-- The quotient keeps the sign, as long as it is a number that has one. -/
theorem msb_sdiv_ten {value : Word} (hne : value.sdiv 10 ≠ 0) : (value.sdiv 10).msb = value.msb := by
  have hne' : value.toInt.tdiv 10 ≠ 0 := by
    intro h
    exact hne (BitVec.eq_of_toInt_eq (by rw [toInt_sdiv_ten, h]; rfl))
  rw [BitVec.msb_eq_toInt, BitVec.msb_eq_toInt, toInt_sdiv_ten, decide_eq_decide]
  constructor
  · intro h
    by_contra hnonneg
    exact absurd (Int.tdiv_nonneg (Int.not_lt.mp hnonneg) (by decide : (0 : ℤ) ≤ 10)) (Int.not_le.mpr h)
  · intro h
    have hpos : 0 ≤ (-value.toInt).tdiv 10 := Int.tdiv_nonneg (by omega) (by decide)
    rw [Int.neg_tdiv] at hpos
    omega

/-- One round writes one digit and goes on with the others. -/
theorem digitLoop_succ {value : Word} (hvalue : value ≠ 0) (fuel : ℕ) (pre : List UInt8) (a : UInt8)
    (post : List UInt8) :
    digitLoop 10 (fuel + 1) value pre.length (pre ++ a :: post) =
      digitLoop 10 fuel (value.sdiv 10) (pre.length + 1)
        (pre ++ digitChar value.msb (value.toInt.natAbs % 10) :: post) := by
  have hput := Buffer.write_append Fault.outOfBounds pre a post rfl
    (digitChar value.msb (value.toInt.natAbs % 10))
  rw [digitLoop, if_pos hvalue, srem_char]
  exact Prog.bind_ok hput

theorem digitLoop_eq (fuel : ℕ) (value : Word) {neg : Bool} (pre junk : List UInt8)
    (hsign : value ≠ 0 → value.msb = neg) (hfuel : (digitChars neg value.toInt.natAbs).length < fuel)
    (hroom : (digitChars neg value.toInt.natAbs).length ≤ junk.length) :
    digitLoop 10 fuel value pre.length (pre ++ junk) =
      .ok (pre.length + (digitChars neg value.toInt.natAbs).length)
        (pre ++ digitChars neg value.toInt.natAbs ++ junk.drop (digitChars neg value.toInt.natAbs).length) := by
  induction fuel generalizing value pre junk with
  | zero => exact absurd hfuel (Nat.not_lt_zero _)
  | succ fuel ih =>
    by_cases hvalue : value = 0
    · subst hvalue
      rw [digitLoop, if_neg (not_not_intro rfl)]
      simp [digitChars]
      rfl
    · have hpos : 0 < value.toInt.natAbs := by
        rw [Int.natAbs_pos]
        intro h
        exact hvalue (BitVec.eq_of_toInt_eq h)
      have hchars := digitChars_pos neg hpos
      rw [hchars, List.length_cons] at hfuel hroom
      obtain ⟨a, junk, rfl⟩ := List.exists_cons_of_ne_nil (List.ne_nil_of_length_pos (Nat.zero_lt_of_lt hroom))
      have hrest := ih (value.sdiv 10) (pre ++ [digitChar neg (value.toInt.natAbs % 10)]) junk
        (fun hne => (msb_sdiv_ten hne).trans (hsign hvalue))
      rw [natAbs_sdiv_ten] at hrest
      rw [digitLoop_succ hvalue, hsign hvalue, hchars, List.length_cons, List.drop_succ_cons, ← Nat.add_assoc,
        Nat.add_right_comm]
      simpa using hrest (by omega) (by simpa using hroom)

/-! ### The whole text -/

/-- What `itoa` leaves before the terminator. The most negative number is the one that is still
negative after `value = -value`. -/
def itoaText (value : Word) : List UInt8 :=
  if value = 0 then ['0'.toUInt8]
  else Decimal.sign value.toInt ++ (digitChars (value = BitVec.intMin 32) value.toInt.natAbs).reverse

theorem slt_zero (value : Word) : value.slt 0 = decide (value.toInt < 0) := rfl

theorem natAbs_neg (value : Word) : (-value).toInt.natAbs = value.toInt.natAbs := by
  by_cases h : value = BitVec.intMin 32
  · subst h
    decide
  · rw [BitVec.toInt_neg_of_ne_intMin h, Int.natAbs_neg]

theorem msb_neg {value : Word} (hneg : value.slt 0) : (-value).msb = decide (value = BitVec.intMin 32) := by
  by_cases h : value = BitVec.intMin 32
  · subst h
    decide
  · have hlt : value.toInt < 0 := by simpa [BitVec.slt] using hneg
    rw [BitVec.msb_eq_toInt, BitVec.toInt_neg_of_ne_intMin h, decide_eq_false h, decide_eq_false (by omega)]

/-- The number that is divided, without its sign where that can be taken off. -/
theorem magnitude (value : Word) :
    (if value.slt 0 then -value else value).toInt.natAbs = value.toInt.natAbs ∧
      (if value.slt 0 then -value else value).msb = decide (value = BitVec.intMin 32) := by
  split
  · next hneg => exact ⟨natAbs_neg value, msb_neg hneg⟩
  · next hneg =>
    refine ⟨rfl, ?_⟩
    have hmsb : value.msb = false := by simpa [BitVec.slt_zero_eq_msb] using hneg
    rw [hmsb, eq_comm, decide_eq_false_iff_not]
    rintro rfl
    exact absurd hmsb (by decide)

theorem length_digitChars_le (neg : Bool) (value : Word) : (digitChars neg value.toInt.natAbs).length ≤ 10 := by
  have hlow := BitVec.le_toInt value
  have hhigh := BitVec.toInt_lt (x := value)
  rw [length_digitChars, Nat.digits_length_le_iff (by decide)]
  omega

theorem exists_cons_cons {str : List UInt8} (h : 2 ≤ str.length) : ∃ a b rest, str = a :: b :: rest :=
  match str, h with
  | a :: b :: rest, _ => ⟨a, b, rest, rfl⟩

/-- The end of `itoa`, after the characters are there. -/
theorem terminate_eq (text : List UInt8) (b : UInt8) (rest : List UInt8) {fuel : ℕ} (hfuel : text.length < fuel) :
    (Buffer.write Fault.outOfBounds text.length 0 >>= fun _ => reverse fuel text.length) (text ++ b :: rest) =
      .ok () (text.reverse ++ 0 :: rest) := by
  rw [Prog.bind_ok (Buffer.write_append Fault.outOfBounds text b rest rfl 0), reverse_eq text _ hfuel]

theorem itoa_eq (value : Word) {fuel : ℕ} (hfuel : 12 ≤ fuel) {str : List UInt8} (hstr : 12 ≤ str.length) :
    itoa fuel value 10 str =
      .ok () (itoaText value ++ 0 :: str.drop ((itoaText value).length + 1)) := by
  rw [itoa, itoaText]
  split
  · obtain ⟨a, b, rest, rfl⟩ := exists_cons_cons (show 2 ≤ str.length by omega)
    rfl
  · next hvalue =>
    obtain ⟨habs, hmsb⟩ := magnitude value
    have hcount := length_digitChars_le (value = BitVec.intMin 32) value
    have hloop := digitLoop_eq fuel (if value.slt 0 then -value else value) [] str (fun _ => hmsb)
      (by rw [habs]; omega) (by rw [habs]; omega)
    rw [habs, List.length_nil, Nat.zero_add, List.nil_append, List.nil_append] at hloop
    generalize digitChars (value = BitVec.intMin 32) value.toInt.natAbs = digits at *
    rw [Prog.bind_ok hloop]
    -- behind the digits there is room for the sign and for the terminator
    obtain ⟨a, b, rest, hrest⟩ := exists_cons_cons
      (show 2 ≤ (str.drop digits.length).length by rw [List.length_drop]; omega)
    have hdrop (n : ℕ) : str.drop (digits.length + n) = (a :: b :: rest).drop n := by
      rw [← hrest, List.drop_drop]
    rw [hrest, slt_zero, Decimal.sign]
    by_cases hneg : value.toInt < 0
    · have hsign := Buffer.write_append Fault.outOfBounds digits a (b :: rest) rfl '-'.toUInt8
      have htail := terminate_eq (digits ++ ['-'.toUInt8]) b rest
        (show (digits ++ ['-'.toUInt8]).length < fuel by simp; omega)
      rw [if_pos (decide_eq_true hneg), if_pos hneg, Prog.bind_ok hsign]
      simpa [hdrop, Nat.add_comm 1, Nat.add_assoc] using htail
    · have htail := terminate_eq digits a (b :: rest) (show digits.length < fuel by omega)
      rw [if_neg (by simpa using hneg), if_neg hneg]
      simpa [hdrop] using htail

/-! ### When the text is the number's -/

theorem itoaText_eq {value : Word} (hvalue : value ≠ BitVec.intMin 32) :
    itoaText value = Decimal.decimal value.toInt := by
  rw [itoaText, Decimal.decimal, Decimal.numeral, decide_eq_false hvalue]
  by_cases hzero : value = 0
  · subst hzero
    decide
  · have hne : value.toInt.natAbs ≠ 0 := by
      intro h
      exact hzero (BitVec.eq_of_toInt_eq (Int.natAbs_eq_zero.mp h))
    rw [if_neg hzero, if_neg hne]
    rfl

/-- The digits of the most negative number are those of its absolute value, taken below `'0'`. -/
theorem itoaText_intMin : itoaText (BitVec.intMin 32) =
    bytes ['-', '.', '/', ',', ')', ',', '(', '-', '*', ',', '('] := by
  decide +kernel

theorem length_itoaText (value : Word) : (itoaText value).length < 12 := by
  have hcount := length_digitChars_le (value = BitVec.intMin 32) value
  rw [itoaText, Decimal.sign]
  split
  · decide
  · split <;> simp <;> omega

theorem lt_digitChar (neg : Bool) {d : ℕ} (hd : d < 10) : '%'.toUInt8 < digitChar neg d := by
  cases neg <;> interval_cases d <;> decide

/-- Nothing in the text ends it, and nothing in it is a conversion. -/
theorem lt_of_mem_itoaText {value : Word} {c : UInt8} (hc : c ∈ itoaText value) : '%'.toUInt8 < c := by
  rw [itoaText] at hc
  split at hc
  · rw [List.mem_singleton.mp hc]
    decide
  · rcases List.mem_append.mp hc with hsign | hdigit
    · rw [Decimal.sign] at hsign
      split at hsign
      · rw [List.mem_singleton.mp hsign]
        decide
      · exact absurd hsign List.not_mem_nil
    · obtain ⟨d, hd, rfl⟩ := List.mem_map.mp (List.mem_reverse.mp hdigit)
      exact lt_digitChar _ (Nat.digits_lt_base (by decide) hd)

/-- `itoa` ends with the decimal representation of `value` in the first 12 bytes of the buffer
`str`, followed by a terminator, and with the rest of the buffer as it was. -/
def Leaves (value : Word) (str : List UInt8) : Prop :=
  ∃ text, Decimal.IsDecimal value.toInt text ∧ text.length < 12 ∧
    ∃ rounds, ∀ fuel ≥ rounds, itoa fuel value 10 str = .ok () (text ++ 0 :: str.drop (text.length + 1))

theorem leaves_of_ne {value : Word} (hvalue : value ≠ BitVec.intMin 32) {str : List UInt8} (hstr : 12 ≤ str.length) :
    Leaves value str := by
  refine ⟨itoaText value, ?_, length_itoaText value, 12, fun fuel hfuel => itoa_eq value hfuel hstr⟩
  rw [Decimal.isDecimal_iff, itoaText_eq hvalue]

theorem not_leaves_intMin {str : List UInt8} (hstr : 12 ≤ str.length) : ¬ Leaves (BitVec.intMin 32) str := by
  rintro ⟨text, htext, -, rounds, hruns⟩
  rw [Decimal.isDecimal_iff] at htext
  have hrun := hruns (max rounds 12) (Nat.le_max_left _ _)
  rw [itoa_eq _ (Nat.le_max_right _ _) hstr] at hrun
  -- the two texts have one length, and are told apart by their second character
  have hsame : text.length = (itoaText (BitVec.intMin 32)).length := by
    rw [htext]
    decide +kernel
  have heq := List.append_inj_left (EStateM.Result.ok.inj hrun).2 hsame.symm
  rw [htext] at heq
  exact absurd heq (by decide +kernel)

/-- **`itoa` is right** about every number but the most negative one. -/
theorem itoa_leaves_iff (value : Word) {str : List UInt8} (hstr : 12 ≤ str.length) :
    Leaves value str ↔ value ≠ BitVec.intMin 32 := by
  constructor
  · rintro h rfl
    exact not_leaves_intMin hstr h
  · intro hvalue
    exact leaves_of_ne hvalue hstr

theorem itoa_leaves_iff_907 : 12 ≤ (List.replicate 20 (0 : UInt8)).length ∧
    Leaves (BitVec.ofInt 32 (-907)) (List.replicate 20 0) :=
  ⟨by decide, (itoa_leaves_iff _ (by decide)).mpr (by decide)⟩

/-- The most negative number, in the buffer of `printfdbg`. -/
theorem itoa_intMin : itoa 12 (BitVec.intMin 32) 10 (List.replicate 20 0) =
      .ok () (bytes ['-', '.', '/', ',', ')', ',', '(', '-', '*', ',', '('] ++ List.replicate 9 0) ∧
    ¬ Leaves (BitVec.intMin 32) (List.replicate 20 0) := by
  refine ⟨?_, not_leaves_intMin (by decide)⟩
  rw [itoa_eq _ (by decide) (by decide), itoaText_intMin]
  rfl

end PyOcdRiscv.Firmware
