import PyOcdRiscv.Lib.Prog
import PyOcdRiscv.Jtag.StateMachine

/-!
# Controllers

What `JtagSimController` and `Blaster` have in common: a controller puts edges on the
wire, and keeps back the last bit of a scan until the port is moved (`_last`), because
TMS has to be high at it. `Wire` is what there is to see of a controller: the bit kept
back, and the edges the target has seen.

The spec of a controller is `Lawful`: what each call puts on the wire and what it
returns, against an arbitrary target. What a `write_tms` that is asked to read returns
when no bit was kept back is a field of it (`unkept`): there the two controllers differ.
-/

namespace PyOcdRiscv.Jtag

open Lib

/-- What there is to see of a controller. -/
structure Wire where
  /-- `self._last`: the bit kept back. -/
  last : Option Bool
  /-- The edges the target has seen. -/
  history : History
  deriving DecidableEq

/-- The methods of a controller, on a state `σ`. -/
structure Controller (σ : Type) where
  /-- `write_tms(tms, should_read)`. -/
  writeTms : BitSequence → Bool → EStateM Fault σ BitSequence
  /-- `read(length)`. -/
  read : ℕ → EStateM Fault σ BitSequence
  /-- `write(out, use_last)`. -/
  write : BitSequence → Bool → EStateM Fault σ Unit
  /-- `writeread(out, use_last)`. -/
  writeread : BitSequence → Bool → EStateM Fault σ BitSequence
  /-- `reset()`. -/
  reset : EStateM Fault σ Unit

namespace Wire

/-- Edges are put on the wire. -/
def put (w : Wire) (es : List Edge) : Wire := { w with history := w.history ++ es }

@[simp] theorem last_put (w : Wire) (es : List Edge) : (w.put es).last = w.last := rfl

@[simp] theorem history_put (w : Wire) (es : List Edge) : (w.put es).history = w.history ++ es := rfl

@[simp] theorem put_nil (w : Wire) : w.put [] = w := by simp [put]

@[simp] theorem put_put (w : Wire) (es₁ es₂ : List Edge) : (w.put es₁).put es₂ = w.put (es₁ ++ es₂) := by
  simp [put]

/-- The level on TDI that goes with the bit kept back: low if there is none. -/
def tdi (w : Wire) : Bool := w.last = some true

/-- The wire after `write_tms(tms)`. -/
def afterTms (w : Wire) (tms : BitSequence) : Wire :=
  if tms = [] then w else ⟨none, w.history ++ moveEdges w.tdi tms⟩

/-- The bits of a scan that are clocked at once. -/
def now (out : BitSequence) (useLast : Bool) : BitSequence := if useLast then out.dropLast else out

/-- The wire after a scan of `out`. -/
def afterScan (w : Wire) (out : BitSequence) (useLast : Bool) : Wire :=
  ⟨if useLast then out.getLast? else w.last, w.history ++ dataEdges (now out useLast)⟩

/-- What comes back from shifting `l`: the level before each edge. -/
def shifted (tdo : History → Bool) (w : Wire) (l : BitSequence) : BitSequence :=
  sample tdo w.history (dataEdges l)

end Wire

/-- The bits that a method returns as `BitSequence(value=.., length=n)`: for a length of 0
it is a single zero. -/
def asRead (l : BitSequence) : BitSequence := BitSequence.ofInt (value l) false l.length

theorem asRead_eq {l : BitSequence} (h : l ≠ []) : asRead l = l := by
  rw [asRead, BitSequence.ofInt_eq (List.length_pos_of_ne_nil h), bits_value]

/-- A scan that the code can make: fewer than 512 bits are clocked at once, and it is not
empty if its last bit is to be kept back. -/
def ScanOk (out : BitSequence) (useLast : Bool) : Prop :=
  (Wire.now out useLast).length < 512 ∧ (useLast = true → out ≠ [])

/-- **What a controller does**, for a target that shows `tdo`. -/
structure Controller.Lawful {σ : Type} (C : Controller σ) (tdo : History → Bool) where
  /-- What there is to see of a state. -/
  wire : σ → Wire
  /-- The states between calls. -/
  Rest : σ → Prop
  /-- What a `write_tms` that is asked to read returns when no bit was kept back. -/
  unkept : History → Bool
  writeTms : ∀ tms shouldRead s, Rest s → ∃ s',
    C.writeTms tms shouldRead s = .ok [shouldRead && decide (tms ≠ []) &&
        if (wire s).last.isSome then tdo (wire s).history else unkept (wire s).history] s' ∧
      Rest s' ∧ wire s' = (wire s).afterTms tms
  read : ∀ n s, n < 512 → Rest s → ∃ s',
    C.read n s = .ok (asRead ((wire s).shifted tdo (List.replicate n false))) s' ∧ Rest s' ∧
      wire s' = (wire s).afterScan (List.replicate n false) false
  write : ∀ out useLast s, ScanOk out useLast → Rest s → ∃ s',
    C.write out useLast s = .ok () s' ∧ Rest s' ∧ wire s' = (wire s).afterScan out useLast
  writeread : ∀ out useLast s, ScanOk out useLast → Rest s → ∃ s',
    C.writeread out useLast s = .ok (asRead ((wire s).shifted tdo (Wire.now out useLast))) s' ∧ Rest s' ∧
      wire s' = (wire s).afterScan out useLast
  reset : ∀ s, Rest s → ∃ s',
    C.reset s = .ok () s' ∧ Rest s' ∧ wire s' = (wire s).afterTms (List.replicate 5 true)

/-- The controller can scan `out`: the calls that shift as many bits do what they should.
A lawful controller can if there are fewer than 512. -/
structure Controller.Lawful.Carries {σ : Type} {C : Controller σ} {tdo : History → Bool} (L : C.Lawful tdo)
    (out : BitSequence) : Prop where
  read : ∀ s, L.Rest s → ∃ s',
    C.read out.length s = .ok (asRead ((L.wire s).shifted tdo (List.replicate out.length false))) s' ∧
      L.Rest s' ∧ L.wire s' = (L.wire s).afterScan (List.replicate out.length false) false
  write : ∀ useLast s, (useLast = true → out ≠ []) → L.Rest s → ∃ s',
    C.write out useLast s = .ok () s' ∧ L.Rest s' ∧ L.wire s' = (L.wire s).afterScan out useLast
  writeread : ∀ useLast s, (useLast = true → out ≠ []) → L.Rest s → ∃ s',
    C.writeread out useLast s = .ok (asRead ((L.wire s).shifted tdo (Wire.now out useLast))) s' ∧
      L.Rest s' ∧ L.wire s' = (L.wire s).afterScan out useLast

theorem Wire.length_now_le (out : BitSequence) (useLast : Bool) : (now out useLast).length ≤ out.length := by
  cases useLast with
  | true => exact List.length_dropLast.trans_le (Nat.sub_le _ _)
  | false => exact le_refl _

theorem Controller.Lawful.carries {σ : Type} {C : Controller σ} {tdo : History → Bool} (L : C.Lawful tdo)
    {out : BitSequence} (h : out.length < 512) : L.Carries out where
  read s hs := L.read out.length s h hs
  write useLast s hne hs := L.write out useLast s ⟨(Wire.length_now_le out useLast).trans_lt h, hne⟩ hs
  writeread useLast s hne hs :=
    L.writeread out useLast s ⟨(Wire.length_now_le out useLast).trans_lt h, hne⟩ hs

end PyOcdRiscv.Jtag
