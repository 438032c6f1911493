import PyOcdRiscv.Firmware.Itoa

/-!
# Formatted output

`printfdbg` of `lib.c`, which Murax sends with `bsp_putc` and Pulp with `uart_sendchar`. It knows
one conversion, `"%d"`. A `'%'` in front of another character is sent together with that
character, which is then looked at once more: `"%x"` comes out as `"%xx"`, and a `'%'` at the
end of the text sends the terminator.

The text is what the memory holds from `txt` on, up to a terminator. An access behind what the
memory is known to hold fails, and so does a `va_arg` for which no argument is left.
-/

namespace PyOcdRiscv.Firmware

open Lib

/-- A function that sends. The state is what has been sent, in order. -/
abbrev Out := EStateM Fault (List UInt8)

namespace Murax

/-- `bsp_putc`. -/
def bsp_putc (c : UInt8) : Out Unit := modify fun sent => sent ++ [c]

end Murax

namespace Pulp

/-- `uart_sendchar`. -/
def uart_sendchar (c : UInt8) : Out Unit := modify fun sent => sent ++ [c]

end Pulp

/-- `*txt`. -/
def load (mem : List UInt8) (txt : ℕ) : Out UInt8 :=
  match mem[txt]? with
  | some c => return c
  | none => throw .outOfBounds

/-- A function on a local buffer, and what it leaves there. -/
def onBuffer (f : M Unit) (buffer : List UInt8) : Out (List UInt8) := fun sent =>
  match f buffer with
  | .ok _ buffer => .ok buffer sent
  | .error e _ => .error e sent

/-- `va_arg`, and the arguments it leaves. -/
def va_arg : List Word → Out (Word × List Word)
  | [] => throw .noArgument
  | v :: args => return (v, args)

/-- The loop of `printfdbg`, which calls `printfdbg` on its buffer. -/
def printfLoop (putc : UInt8 → Out Unit) (printfdbg : List UInt8 → Out Unit) (mem : List UInt8) :
    ℕ → ℕ → List Word → List UInt8 → Out Unit
  | 0, _, _, _ => throw .hang
  | fuel + 1, txt, args, buffer => do
    let c ← load mem txt
    if c ≠ 0 then
      if c = '%'.toUInt8 then
        let next ← load mem (txt + 1)
        if next = 'd'.toUInt8 then
          let (v, args) ← va_arg args
          let buffer ← onBuffer (itoa fuel v 10) buffer
          printfdbg buffer
          printfLoop putc printfdbg mem fuel (txt + 2) args buffer
        else
          putc c
          putc next
          printfLoop putc printfdbg mem fuel (txt + 1) args buffer
      else
        putc c
        printfLoop putc printfdbg mem fuel (txt + 1) args buffer
    else return

/-- `printfdbg`, with the memory from `txt` on and the arguments. Calls of it nest at most `fuel`
deep, with as many rounds each; `stack` is what the 20 bytes of the buffer hold at first. -/
def printfdbg (putc : UInt8 → Out Unit) (stack : ℕ → Vector UInt8 20) : ℕ → List UInt8 → List Word → Out Unit
  | 0, _, _ => throw .hang
  | fuel + 1, mem, args =>
    printfLoop putc (fun buffer => printfdbg putc stack fuel buffer []) mem fuel 0 args (stack fuel).toList

/-- `printfdbg` of Murax. -/
def Murax.printfdbg := Firmware.printfdbg Murax.bsp_putc

/-- `printfdbg` of Pulp. -/
def Pulp.printfdbg := Firmware.printfdbg Pulp.uart_sendchar

/-! ### What is to be sent, and what is -/

/-- The text with each `"%d"`, from the left, replaced by an argument as `text` has it. -/
def expand (text : Word → List UInt8) : List UInt8 → List Word → List UInt8
  | [], _ => []
  | [c], _ => [c]
  | c :: d :: txt, args =>
    if c = '%'.toUInt8 ∧ d = 'd'.toUInt8 then
      match args with
      | [] => expand text txt []
      | v :: args => text v ++ expand text txt args
    else c :: expand text (d :: txt) args

/-- The occurrences of `"%d"`, from the left. -/
def placeholders : List UInt8 → ℕ
  | [] => 0
  | [_] => 0
  | c :: d :: txt =>
    if c = '%'.toUInt8 ∧ d = 'd'.toUInt8 then placeholders txt + 1 else placeholders (d :: txt)

/-- The characters sent by `printfdbg`. -/
def emitted : List UInt8 → List Word → List UInt8
  | [], _ => []
  | [c], _ => if c = '%'.toUInt8 then [c, 0] else [c]
  | c :: d :: txt, args =>
    if c = '%'.toUInt8 then
      if d = 'd'.toUInt8 then
        match args with
        | [] => emitted txt []
        | v :: args => itoaText v ++ emitted txt args
      else c :: d :: emitted (d :: txt) args
    else c :: emitted (d :: txt) args

section Text

variable {c d : UInt8} (txt : List UInt8) (args : List Word) (text : Word → List UInt8)

theorem emitted_plain (hc : c ≠ '%'.toUInt8) : emitted (c :: txt) args = c :: emitted txt args := by
  cases txt with
  | nil => simp [emitted, hc]
  | cons d txt => cases args <;> rw [emitted, if_neg hc]

theorem emitted_stray (hd : d ≠ 'd'.toUInt8) :
    emitted ('%'.toUInt8 :: d :: txt) args = '%'.toUInt8 :: d :: emitted (d :: txt) args := by
  cases args <;> rw [emitted, if_pos rfl, if_neg hd]

theorem emitted_number (v : Word) :
    emitted ('%'.toUInt8 :: 'd'.toUInt8 :: txt) (v :: args) = itoaText v ++ emitted txt args := by
  rw [emitted, if_pos rfl, if_pos rfl]

theorem placeholders_plain (hc : c ≠ '%'.toUInt8) : placeholders (c :: txt) = placeholders txt := by
  cases txt with
  | nil => rfl
  | cons d txt => exact if_neg fun h => hc h.1

theorem placeholders_stray (hd : d ≠ 'd'.toUInt8) :
    placeholders ('%'.toUInt8 :: d :: txt) = placeholders (d :: txt) :=
  if_neg fun h => hd h.2

theorem placeholders_number : placeholders ('%'.toUInt8 :: 'd'.toUInt8 :: txt) = placeholders txt + 1 :=
  if_pos ⟨rfl, rfl⟩

theorem expand_plain (hc : c ≠ '%'.toUInt8) : expand text (c :: txt) args = c :: expand text txt args := by
  cases txt with
  | nil => simp [expand]
  | cons d txt => cases args <;> rw [expand, if_neg fun h => hc h.1]

theorem expand_stray (hd : d ≠ 'd'.toUInt8) :
    expand text ('%'.toUInt8 :: d :: txt) args = '%'.toUInt8 :: expand text (d :: txt) args := by
  cases args <;> rw [expand, if_neg fun h => hd h.2]

theorem expand_number (v : Word) :
    expand text ('%'.toUInt8 :: 'd'.toUInt8 :: txt) (v :: args) = text v ++ expand text txt args := by
  rw [expand, if_pos ⟨rfl, rfl⟩]

end Text

/-- Induction along a text that takes as many arguments as there are. -/
@[elab_as_elim]
theorem text_induction {motive : (txt : List UInt8) → (args : List Word) → args.length = placeholders txt → Prop}
    (nil : motive [] [] rfl)
    (plain : ∀ c txt args hargs (hc : c ≠ '%'.toUInt8), motive txt args hargs →
      motive (c :: txt) args (hargs.trans (placeholders_plain txt hc).symm))
    (last : motive ['%'.toUInt8] [] rfl)
    (stray : ∀ d txt args hargs (hd : d ≠ 'd'.toUInt8), motive (d :: txt) args hargs →
      motive ('%'.toUInt8 :: d :: txt) args (hargs.trans (placeholders_stray txt hd).symm))
    (number : ∀ v txt args hargs, motive txt args hargs →
      motive ('%'.toUInt8 :: 'd'.toUInt8 :: txt) (v :: args)
        ((congrArg Nat.succ hargs).trans (placeholders_number txt).symm))
    (txt : List UInt8) (args : List Word) (hargs : args.length = placeholders txt) : motive txt args hargs := by
  induction txt, args using emitted.induct with
  | case1 args =>
    obtain rfl := List.length_eq_zero_iff.mp hargs
    exact nil
  | case2 args =>
    obtain rfl := List.length_eq_zero_iff.mp hargs
    exact last
  | case3 c args hc =>
    obtain rfl := List.length_eq_zero_iff.mp hargs
    exact plain c [] [] rfl hc nil
  | case4 txt ih => cases hargs.trans (placeholders_number txt)
  | case5 txt v args ih =>
    have hargs' := Nat.succ_inj.mp (hargs.trans (placeholders_number txt))
    exact number v txt args hargs' (ih hargs')
  | case6 d txt args hd ih =>
    have hargs' := hargs.trans (placeholders_stray txt hd)
    exact stray d txt args hargs' hd (ih hargs')
  | case7 c d txt args hc ih =>
    have hargs' := hargs.trans (placeholders_plain (d :: txt) hc)
    exact plain c (d :: txt) args hargs' hc (ih hargs')

/-! ### The loop -/

theorem load_append (pre : List UInt8) (c : UInt8) (post sent : List UInt8) :
    load (pre ++ c :: post) pre.length sent = .ok c sent := by
  simp [load]
  rfl

theorem load_second (pre : List UInt8) (c next : UInt8) (post sent : List UInt8) :
    load (pre ++ c :: next :: post) (pre.length + 1) sent = .ok next sent := by
  have h := load_append (pre ++ [c]) next post sent
  rwa [← List.append_cons, List.length_append] at h

theorem onBuffer_itoa (v : Word) {fuel : ℕ} (hfuel : 12 ≤ fuel) {buffer : List UInt8} (hbuffer : 12 ≤ buffer.length)
    (sent : List UInt8) :
    onBuffer (itoa fuel v 10) buffer sent =
      .ok (itoaText v ++ 0 :: buffer.drop ((itoaText v).length + 1)) sent := by
  rw [onBuffer, itoa_eq v hfuel hbuffer]

theorem length_onBuffer (v : Word) {buffer : List UInt8} (hbuffer : 12 ≤ buffer.length) :
    12 ≤ (itoaText v ++ 0 :: buffer.drop ((itoaText v).length + 1)).length := by
  have hlength := length_itoaText v
  simp
  omega

/-- What sends a character. -/
def Sends (putc : UInt8 → Out Unit) : Prop := ∀ c sent, putc c sent = .ok () (sent ++ [c])

section Loop

variable {putc : UInt8 → Out Unit} {printfdbg : List UInt8 → Out Unit} (pre post : List UInt8) (fuel : ℕ)
  (args : List Word) (buffer sent : List UInt8)

theorem printfLoop_terminator :
    printfLoop putc printfdbg (pre ++ 0 :: post) (fuel + 1) pre.length args buffer sent = .ok () sent := by
  rw [printfLoop, Prog.bind_ok (load_append pre 0 post sent)]
  rfl

theorem printfLoop_plain (hputc : Sends putc) {c : UInt8} (hc : c ≠ 0) (hplain : c ≠ '%'.toUInt8) :
    printfLoop putc printfdbg (pre ++ c :: post) (fuel + 1) pre.length args buffer sent =
      printfLoop putc printfdbg (pre ++ [c] ++ post) fuel (pre ++ [c]).length args buffer (sent ++ [c]) := by
  rw [printfLoop, Prog.bind_ok (load_append pre c post sent), if_pos hc, if_neg hplain, Prog.bind_ok (hputc c sent),
    List.append_cons, List.length_append]
  rfl

/-- A `'%'` takes the next character with it, but the text goes on at that character. -/
theorem printfLoop_stray (hputc : Sends putc) {next : UInt8} (hnext : next ≠ 'd'.toUInt8) :
    printfLoop putc printfdbg (pre ++ '%'.toUInt8 :: next :: post) (fuel + 1) pre.length args buffer sent =
      printfLoop putc printfdbg (pre ++ ['%'.toUInt8] ++ next :: post) fuel (pre ++ ['%'.toUInt8]).length args buffer
        (sent ++ ['%'.toUInt8] ++ [next]) := by
  have hload := load_second pre '%'.toUInt8 next post sent
  rw [printfLoop, Prog.bind_ok (load_append pre _ _ sent), if_pos (by decide), if_pos rfl, Prog.bind_ok hload,
    if_neg hnext, Prog.bind_ok (hputc _ sent), Prog.bind_ok (hputc next _), List.append_cons, List.length_append]
  rfl

theorem printfLoop_number {v : Word} (hfuel : 12 ≤ fuel) (hbuffer : 12 ≤ buffer.length)
    (hprint : ∀ post sent, printfdbg (itoaText v ++ 0 :: post) sent = .ok () (sent ++ itoaText v)) :
    printfLoop putc printfdbg (pre ++ '%'.toUInt8 :: 'd'.toUInt8 :: post) (fuel + 1) pre.length (v :: args) buffer
        sent =
      printfLoop putc printfdbg (pre ++ ['%'.toUInt8, 'd'.toUInt8] ++ post) fuel
        (pre ++ ['%'.toUInt8, 'd'.toUInt8]).length args (itoaText v ++ 0 :: buffer.drop ((itoaText v).length + 1))
        (sent ++ itoaText v) := by
  have hload := load_second pre '%'.toUInt8 'd'.toUInt8 post sent
  have harg : va_arg (v :: args) sent = .ok (v, args) sent := rfl
  rw [printfLoop, Prog.bind_ok (load_append pre _ _ sent), if_pos (by decide), if_pos rfl, Prog.bind_ok hload,
    if_pos rfl, Prog.bind_ok harg, List.append_assoc, List.length_append]
  exact (Prog.bind_ok (onBuffer_itoa v hfuel hbuffer sent)).trans (Prog.bind_ok (hprint _ sent))

end Loop

theorem printfLoop_eq {putc : UInt8 → Out Unit} (hputc : Sends putc) (printfdbg : List UInt8 → Out Unit)
    (txt : List UInt8) (args : List Word) (hargs : args.length = placeholders txt) (htxt : 0 ∉ txt)
    (hprint : ∀ v ∈ args, ∀ post sent, printfdbg (itoaText v ++ 0 :: post) sent = .ok () (sent ++ itoaText v))
    (fuel : ℕ) (hfuel : txt.length + 12 < fuel) (pre post : List UInt8) {buffer : List UInt8}
    (hbuffer : 12 ≤ buffer.length) (sent : List UInt8) :
    printfLoop putc printfdbg (pre ++ (txt ++ 0 :: post)) fuel pre.length args buffer sent =
      .ok () (sent ++ emitted txt args) := by
  induction txt, args, hargs using text_induction generalizing fuel pre buffer sent <;>
    obtain ⟨fuel, rfl⟩ := Nat.exists_eq_succ_of_ne_zero (Nat.ne_zero_of_lt hfuel)
  case nil => rw [List.nil_append, printfLoop_terminator, emitted, List.append_nil]
  case plain c txt args hargs hc ih =>
    rw [List.length_cons] at hfuel
    have hzero : c ≠ 0 := by
      rintro rfl
      exact htxt List.mem_cons_self
    have hrest := ih (fun h => htxt (List.mem_cons_of_mem _ h)) hprint fuel (by omega) (pre ++ [c]) hbuffer
      (sent ++ [c])
    rw [List.cons_append, printfLoop_plain pre _ _ _ _ _ hputc hzero hc, hrest, emitted_plain _ _ hc]
    simp
  case last =>
    -- the terminator is sent, and is there once more to end the loop
    obtain ⟨fuel, rfl⟩ := Nat.exists_eq_succ_of_ne_zero (show fuel ≠ 0 by omega)
    rw [List.cons_append, List.nil_append, printfLoop_stray pre post _ _ _ _ hputc (by decide), printfLoop_terminator,
      emitted, if_pos rfl, List.append_assoc]
    rfl
  case stray d txt args hargs hd ih =>
    rw [List.length_cons] at hfuel
    have hrest := ih (fun h => htxt (List.mem_cons_of_mem _ h)) hprint fuel (by omega) (pre ++ ['%'.toUInt8]) hbuffer
      (sent ++ ['%'.toUInt8] ++ [d])
    rw [List.cons_append] at hrest ⊢
    rw [List.cons_append, printfLoop_stray pre _ _ _ _ _ hputc hd, hrest, emitted_stray _ _ hd]
    simp
  case number v txt args hargs ih =>
    rw [List.length_cons, List.length_cons] at hfuel
    have hv := hprint v List.mem_cons_self
    have hrest := ih (fun h => htxt (List.mem_cons_of_mem _ (List.mem_cons_of_mem _ h)))
      (fun w hw => hprint w (List.mem_cons_of_mem v hw)) fuel (by omega) (pre ++ ['%'.toUInt8, 'd'.toUInt8])
      (length_onBuffer v hbuffer) (sent ++ itoaText v)
    rw [List.cons_append, List.cons_append, printfLoop_number pre _ _ _ _ _ (by omega) hbuffer hv, hrest,
      emitted_number, List.append_assoc]

/-! ### The call -/

/-- The text of a number has no `'%'` in it: the call that prints it takes no argument. -/
theorem placeholders_eq_zero {txt : List UInt8} (htxt : '%'.toUInt8 ∉ txt) : placeholders txt = 0 := by
  induction txt with
  | nil => rfl
  | cons c txt ih =>
    rw [List.mem_cons, not_or] at htxt
    rw [placeholders_plain txt (Ne.symm htxt.1), ih htxt.2]

theorem emitted_eq_self {txt : List UInt8} (htxt : '%'.toUInt8 ∉ txt) (args : List Word) : emitted txt args = txt := by
  induction txt with
  | nil => rw [emitted]
  | cons c txt ih =>
    rw [List.mem_cons, not_or] at htxt
    rw [emitted_plain txt args (Ne.symm htxt.1), ih htxt.2]

theorem percent_notMem_itoaText (v : Word) : '%'.toUInt8 ∉ itoaText v := fun h =>
  absurd (lt_of_mem_itoaText h) (by decide)

theorem zero_notMem_itoaText (v : Word) : 0 ∉ itoaText v := fun h => absurd (lt_of_mem_itoaText h) (by decide)

section Call

variable {putc : UInt8 → Out Unit} (hputc : Sends putc) (stack : ℕ → Vector UInt8 20)
include hputc

/-- The call for the digits of a number. -/
theorem printfdbg_itoaText (v : Word) {fuel : ℕ} (hfuel : 25 ≤ fuel) (post sent : List UInt8) :
    printfdbg putc stack fuel (itoaText v ++ 0 :: post) [] sent = .ok () (sent ++ itoaText v) := by
  obtain ⟨fuel, rfl⟩ := Nat.exists_eq_succ_of_ne_zero (Nat.ne_zero_of_lt hfuel)
  have hlength := length_itoaText v
  have hloop := printfLoop_eq hputc (fun buffer => printfdbg putc stack fuel buffer []) (itoaText v) []
    (placeholders_eq_zero (percent_notMem_itoaText v)).symm (zero_notMem_itoaText v)
    (fun w hw => absurd hw List.not_mem_nil) fuel (by omega) [] post
    (show 12 ≤ (stack fuel).toList.length by simp) sent
  rw [emitted_eq_self (percent_notMem_itoaText v)] at hloop
  exact hloop

theorem printfdbg_eq {txt : List UInt8} (htxt : 0 ∉ txt) (post : List UInt8) {args : List Word}
    (hargs : args.length = placeholders txt) {fuel : ℕ} (hfuel : txt.length + 26 ≤ fuel) (sent : List UInt8) :
    printfdbg putc stack fuel (txt ++ 0 :: post) args sent = .ok () (sent ++ emitted txt args) := by
  obtain ⟨fuel, rfl⟩ := Nat.exists_eq_succ_of_ne_zero (Nat.ne_zero_of_lt (show 0 < fuel by omega))
  exact printfLoop_eq hputc _ txt args hargs htxt
    (fun v _ => printfdbg_itoaText hputc stack v (by omega)) fuel (by omega) [] post
    (show 12 ≤ (stack fuel).toList.length by simp) sent

end Call

/-! ### When it is what is to be sent -/

/-- Every `'%'` of the text is directly followed by a `'d'`. -/
def OnlyNumbers (txt : List UInt8) : Prop :=
  ∀ i, txt[i]? = some '%'.toUInt8 → txt[i + 1]? = some 'd'.toUInt8

/-- How many are not. -/
def strays : List UInt8 → ℕ
  | [] => 0
  | c :: txt => if c = '%'.toUInt8 ∧ txt.head? ≠ some 'd'.toUInt8 then strays txt + 1 else strays txt

theorem onlyNumbers_cons_iff (c : UInt8) (txt : List UInt8) :
    OnlyNumbers (c :: txt) ↔ (c = '%'.toUInt8 → txt.head? = some 'd'.toUInt8) ∧ OnlyNumbers txt := by
  constructor
  · intro h
    refine ⟨fun hc => ?_, fun i hi => h (i + 1) hi⟩
    rw [List.head?_eq_getElem?]
    exact h 0 (congrArg some hc)
  · rintro ⟨hhead, htail⟩ i hi
    cases i with
    | zero => exact List.head?_eq_getElem?.symm.trans (hhead (Option.some.inj hi))
    | succ i => exact htail i hi

theorem strays_eq_zero_iff (txt : List UInt8) : strays txt = 0 ↔ OnlyNumbers txt := by
  induction txt with
  | nil => exact iff_of_true rfl fun i hi => absurd hi (by simp)
  | cons c txt ih =>
    rw [onlyNumbers_cons_iff, strays, ← ih]
    by_cases h : c = '%'.toUInt8 ∧ txt.head? ≠ some 'd'.toUInt8
    · rw [if_pos h]
      exact iff_of_false (Nat.succ_ne_zero _) fun h' => h.2 (h'.1 h.1)
    · rw [if_neg h]
      exact ⟨fun h' => ⟨fun hc => by_contra fun hd => h ⟨hc, hd⟩, h'⟩, And.right⟩

theorem strays_number (txt : List UInt8) : strays ('%'.toUInt8 :: 'd'.toUInt8 :: txt) = strays txt := by
  rw [strays, if_neg fun h => h.2 rfl, strays, if_neg fun h => absurd h.1 (by decide)]

theorem strays_stray {d : UInt8} (txt : List UInt8) (hd : d ≠ 'd'.toUInt8) :
    strays ('%'.toUInt8 :: d :: txt) = strays (d :: txt) + 1 := by
  rw [strays, if_pos ⟨rfl, fun h => hd (Option.some.inj h)⟩]

theorem strays_plain {c : UInt8} (txt : List UInt8) (hc : c ≠ '%'.toUInt8) : strays (c :: txt) = strays txt := by
  rw [strays, if_neg fun h => hc h.1]

section Compare

variable {text : Word → List UInt8} {txt : List UInt8} {args : List Word}

/-- Each stray `'%'` costs one character too many, and nothing makes up for it if numbers have as many
characters as they should. -/
theorem length_emitted (hlength : ∀ v, (itoaText v).length = (text v).length) (hargs : args.length = placeholders txt) :
    (emitted txt args).length = (expand text txt args).length + strays txt := by
  induction txt, args, hargs using text_induction with
  | nil => simp [emitted, expand, strays]
  | plain c txt args hargs hc ih =>
    rw [strays_plain _ hc, emitted_plain _ _ hc, expand_plain _ _ _ hc, List.length_cons, List.length_cons, ih]
    omega
  | last => simp [emitted, expand, strays]
  | stray d txt args hargs hd ih =>
    rw [strays_stray txt hd, emitted_stray txt args hd, expand_stray txt args text hd, List.length_cons,
      List.length_cons, List.length_cons, ih]
    omega
  | number v txt args hargs ih =>
    rw [strays_number, emitted_number, expand_number, List.length_append, List.length_append, ih, hlength v,
      Nat.add_assoc]

theorem emitted_eq_expand_iff (hlength : ∀ v, (itoaText v).length = (text v).length)
    (hargs : args.length = placeholders txt) (hstrays : strays txt = 0) :
    emitted txt args = expand text txt args ↔ ∀ v ∈ args, itoaText v = text v := by
  induction txt, args, hargs using text_induction with
  | nil => simp [emitted, expand]
  | plain c txt args hargs hc ih =>
    rw [strays_plain _ hc] at hstrays
    rw [emitted_plain _ _ hc, expand_plain _ _ _ hc, List.cons_inj_right, ih hstrays]
  | last => cases hstrays
  | stray d txt args hargs hd ih =>
    rw [strays_stray txt hd] at hstrays
    cases hstrays
  | number v txt args hargs ih =>
    rw [strays_number] at hstrays
    rw [emitted_number, expand_number, List.append_eq_append_iff_of_size_eq_left (hlength v), List.forall_mem_cons,
      ih hstrays]

end Compare

/-- The decimal text of an argument. -/
def decimalText (v : Word) : List UInt8 := Decimal.decimal v.toInt

theorem itoaText_eq_iff (v : Word) : itoaText v = decimalText v ↔ v ≠ BitVec.intMin 32 := by
  constructor
  · rintro h rfl
    exact absurd h (by decide +kernel)
  · exact itoaText_eq

theorem length_itoaText_eq (v : Word) : (itoaText v).length = (decimalText v).length := by
  by_cases h : v = BitVec.intMin 32
  · subst h
    decide +kernel
  · rw [(itoaText_eq_iff v).mpr h]

theorem emitted_eq_iff {txt : List UInt8} {args : List Word} (hargs : args.length = placeholders txt) :
    emitted txt args = expand decimalText txt args ↔ OnlyNumbers txt ∧ ∀ v ∈ args, v ≠ BitVec.intMin 32 := by
  rw [← strays_eq_zero_iff]
  constructor
  · intro h
    have hlength := length_emitted length_itoaText_eq hargs
    rw [h] at hlength
    have hstrays : strays txt = 0 := by omega
    rw [emitted_eq_expand_iff length_itoaText_eq hargs hstrays] at h
    exact ⟨hstrays, fun v hv => (itoaText_eq_iff v).mp (h v hv)⟩
  · rintro ⟨hstrays, hmin⟩
    rw [emitted_eq_expand_iff length_itoaText_eq hargs hstrays]
    intro v hv
    exact (itoaText_eq_iff v).mpr (hmin v hv)

/-- `printfdbg` ends, and has sent `text`. -/
def Prints (printfdbg : ℕ → List UInt8 → List Word → Out Unit) (mem : List UInt8) (args : List Word)
    (text : List UInt8) : Prop :=
  ∃ rounds, ∀ fuel ≥ rounds, ∀ sent, printfdbg fuel mem args sent = .ok () (sent ++ text)

theorem prints_iff {putc : UInt8 → Out Unit} (hputc : Sends putc) (stack : ℕ → Vector UInt8 20) {txt : List UInt8}
    (htxt : 0 ∉ txt) (post : List UInt8) {args : List Word} (hargs : args.length = placeholders txt)
    (text : List UInt8) :
    Prints (printfdbg putc stack) (txt ++ 0 :: post) args text ↔ emitted txt args = text := by
  have hrun (fuel : ℕ) (hfuel : txt.length + 26 ≤ fuel) (sent : List UInt8) :=
    printfdbg_eq hputc stack htxt post hargs hfuel sent
  constructor
  · rintro ⟨rounds, hprints⟩
    have hsent := hprints (max rounds (txt.length + 26)) (Nat.le_max_left _ _) []
    rw [hrun _ (Nat.le_max_right _ _)] at hsent
    exact (EStateM.Result.ok.inj hsent).2
  · rintro rfl
    exact ⟨txt.length + 26, fun fuel hfuel sent => hrun fuel hfuel sent⟩

theorem sends_bsp_putc : Sends Murax.bsp_putc := fun _ _ => rfl

theorem sends_uart_sendchar : Sends Pulp.uart_sendchar := fun _ _ => rfl

/-- **What is printed is right** as long as every `'%'` is one of a `"%d"`, and no argument is the
most negative number. Behind the terminator there may be anything, or nothing that can be read. -/
theorem printfdbg_prints_iff (stack : ℕ → Vector UInt8 20) {txt : List UInt8} (htxt : 0 ∉ txt) (post : List UInt8)
    {args : List Word} (hargs : args.length = placeholders txt) :
    (Prints (Murax.printfdbg stack) (txt ++ 0 :: post) args (expand decimalText txt args) ↔
        OnlyNumbers txt ∧ ∀ v ∈ args, v ≠ BitVec.intMin 32) ∧
      (Prints (Pulp.printfdbg stack) (txt ++ 0 :: post) args (expand decimalText txt args) ↔
        OnlyNumbers txt ∧ ∀ v ∈ args, v ≠ BitVec.intMin 32) := by
  rw [← emitted_eq_iff hargs]
  exact ⟨prints_iff sends_bsp_putc stack htxt post hargs _, prints_iff sends_uart_sendchar stack htxt post hargs _⟩

theorem printfdbg_prints_iff_907 :
    Prints (Murax.printfdbg fun _ => Vector.replicate 20 0) (bytes ['=', '%', 'd', ';'] ++ [0])
        [BitVec.ofInt 32 (-907)] (bytes ['=', '-', '9', '0', '7', ';']) ∧
      Prints (Pulp.printfdbg fun _ => Vector.replicate 20 0) (bytes ['=', '%', 'd', ';'] ++ [0])
        [BitVec.ofInt 32 (-907)] (bytes ['=', '-', '9', '0', '7', ';']) := by
  have hcondition : OnlyNumbers (bytes ['=', '%', 'd', ';']) ∧
      ∀ v ∈ [BitVec.ofInt 32 (-907)], v ≠ BitVec.intMin 32 := by
    refine ⟨(strays_eq_zero_iff _).mp (by decide), fun v hv => ?_⟩
    rw [List.mem_singleton.mp hv]
    decide
  have htext : expand decimalText (bytes ['=', '%', 'd', ';']) [BitVec.ofInt 32 (-907)] =
      bytes ['=', '-', '9', '0', '7', ';'] := by
    decide +kernel
  have h := @printfdbg_prints_iff (fun _ => Vector.replicate 20 0) (bytes ['=', '%', 'd', ';']) (by decide) []
    [BitVec.ofInt 32 (-907)] (by decide)
  rw [htext] at h
  exact ⟨h.1.mpr hcondition, h.2.mpr hcondition⟩

/-- `"%x"` comes out as `"%xx"`. -/
theorem printfdbg_percent_x :
    Prints (Murax.printfdbg fun _ => Vector.replicate 20 0) (bytes ['%', 'x'] ++ [0]) [] (bytes ['%', 'x', 'x']) ∧
      Prints (Pulp.printfdbg fun _ => Vector.replicate 20 0) (bytes ['%', 'x'] ++ [0]) [] (bytes ['%', 'x', 'x']) ∧
      expand decimalText (bytes ['%', 'x']) [] = bytes ['%', 'x'] ∧
      ¬ Prints (Murax.printfdbg fun _ => Vector.replicate 20 0) (bytes ['%', 'x'] ++ [0]) [] (bytes ['%', 'x']) ∧
      ¬ Prints (Pulp.printfdbg fun _ => Vector.replicate 20 0) (bytes ['%', 'x'] ++ [0]) [] (bytes ['%', 'x']) := by
  have hmurax (text : List UInt8) := prints_iff sends_bsp_putc (fun _ => Vector.replicate 20 0)
    (show 0 ∉ bytes ['%', 'x'] by decide) [] (show ([] : List Word).length = _ by decide) text
  have hpulp (text : List UInt8) := prints_iff sends_uart_sendchar (fun _ => Vector.replicate 20 0)
    (show 0 ∉ bytes ['%', 'x'] by decide) [] (show ([] : List Word).length = _ by decide) text
  have hsent : emitted (bytes ['%', 'x']) [] = bytes ['%', 'x', 'x'] := by decide
  rw [hsent] at hmurax hpulp
  exact ⟨(hmurax _).mpr rfl, (hpulp _).mpr rfl, by decide +kernel, fun h => absurd ((hmurax _).mp h) (by decide),
    fun h => absurd ((hpulp _).mp h) (by decide)⟩

end PyOcdRiscv.Firmware
