import PyOcdRiscv.Lib.Fair
import PyOcdRiscv.Target.DebugSession

/-!
# Commands come to their end

The hart makes its accesses when it likes, but goes on making them. Then the debug module comes to rest time
and again, whatever is asked of it meanwhile, and a hart that is to resume does (`session_proceeds`): `Due` and
`Leaving` say how far off that is, and an access of the hart brings it nearer (`Progress`).
-/

namespace PyOcdRiscv.Target

open Lib Debug
open DebugTarget (inPage)

/-- Nothing is asked of the hart. -/
structure Rests (t : DmTop) : Prop where
  state : t.mem.cmdbusy = false
  cmdValid : t.regs.cmdValid = false

theorem rests_of_idle {t : DmTop} (hstate : t.mem.state = .idle) (hvalid : t.regs.cmdValid = false) : Rests t :=
  ⟨by simp [DmMem.cmdbusy, hstate], hvalid⟩

/-- How far off it is that a hart that is to resume reports it: the turn that the hart is at, and the instructions
that it executes before its next access to a device. -/
inductive Resumes (t : DmTop) (h : RiscvCore) (d : Debuggee) : ℕ × ℕ → Prop
  | mk (L : Context) (p n : ℕ) (h₁ : RiscvCore)
      (hwhere : p = 4 ∧ h₁ = L.reportsHalted ∨ p = 3 ∧ h₁ = L.looksGo ∨ p = 2 ∧ h₁ = L.looksResume ∨
        p = 1 ∧ h₁ = L.reportsResuming)
      (hline : RomLine n h h₁) (he : Errand t L d) (hstate : t.mem.state = .resume) :
      Resumes t h d (p, n)

/-- How far off it is that the debug module rests: the turn that the hart is at, and the instructions that it
executes before its next access to a device. -/
inductive Due (t : DmTop) (h : RiscvCore) (d : Debuggee) : ℕ × ℕ → Prop
  /-- The hart is to resume. -/
  | resume {ρ : ℕ × ℕ} (hresumes : Resumes t h d ρ) : Due t h d ρ
  /-- A command is asked for. -/
  | asked (L : Context) (n : ℕ) (h₁ : RiscvCore) (hwhere : h₁ = L.reportsHalted ∨ h₁ = L.looksGo ∨ h₁ = L.looksResume)
      (hline : RomLine n h h₁) (he : Errand t L d) (hstate : t.mem.state = .idle)
      (hvalid : t.regs.cmdValid = true) : Due t h d (5, 0)
  /-- The hart is to go. -/
  | go (L : Context) (p n : ℕ) (h₁ : RiscvCore)
      (hwhere : p = 4 ∧ h₁ = L.looksResume ∨ p = 3 ∧ h₁ = L.reportsHalted ∨ p = 2 ∧ h₁ = L.looksGo ∨
        p = 1 ∧ h₁ = L.reportsGoing)
      (hline : RomLine n h h₁) (he : Errand t L d) (hstate : t.mem.state = .go) : Due t h d (p, n)
  /-- It executes a command, which has an access to data0 yet to come. -/
  | transfers (L : Context) (n m : ℕ) (h₁ : RiscvCore)
      (hline : Line haltAddress (commandCode t.regs.command t.regs.progbuf) n h h₁)
      (hpending : (∃ rd, h₁.pending = some (.lw rd 0x1b000380)) ∨ ∃ v, h₁.pending = some (.sw 0x1b000380 v))
      (hline' : Line haltAddress (commandCode t.regs.command t.regs.progbuf) m (h₁.next haltAddress (t.regs.data 0))
        L.reportsHalted) (hstate : t.mem.state = .cmdExecuting) : Due t h d (0, n + m + 1)
  /-- It executes a command. -/
  | executes (L : Context) (n : ℕ)
      (hline : Line haltAddress (commandCode t.regs.command t.regs.progbuf) n h L.reportsHalted)
      (hstate : t.mem.state = .cmdExecuting) : Due t h d (0, n)
  /-- It has reported that it resumes. -/
  | resumed (L : Context) (n : ℕ) (hline : RomLine (n + 1) h L.resumed) (hstate : t.mem.state = .resume)
      (hresuming : t.mem.resuming = true) : Due t h d (0, 0)

/-- How far off it is that the hart leaves debug mode. -/
inductive Leaving (t : DmTop) (h : RiscvCore) (d : Debuggee) : ℕ × ℕ → Prop
  | resume {ρ : ℕ × ℕ} (hresumes : Resumes t h d ρ) : Leaving t h d ρ
  | leaves (L : Context) (n : ℕ) (hline : RomLine (n + 1) h L.resumed) : Leaving t h d (0, n)

/-- The order of ranks. -/
abbrev Nearer : ℕ × ℕ → ℕ × ℕ → Prop := Prod.Lex (· < ·) (· < ·)

theorem nearer_wf : WellFounded Nearer := Nat.lt_wfRel.wf.prod_lex Nat.lt_wfRel.wf

/-- The goal is reached, or as near as it was, and nearer if the hart has made an access. -/
def Nears (P : DmTop → RiscvCore → Debuggee → ℕ × ℕ → Prop) (goal : DmTop → RiscvCore → Prop) (t : DmTop)
    (h : RiscvCore) (d : Debuggee) (a : Option Access) (ρ : ℕ × ℕ) : Prop :=
  goal t h ∨ ∃ ρ', P t h d ρ' ∧ (Nearer ρ' ρ ∨ ρ' = ρ ∧ a = none)

/-- What comes nearer with each access of a hart in debug mode, whatever happens to the memory. -/
structure Progress (P : DmTop → RiscvCore → Debuggee → ℕ × ℕ → Prop) (goal : DmTop → RiscvCore → Prop) : Prop where
  withMem : ∀ {t h d ρ}, P t h d ρ → ∀ mem, P t (h.withMem mem) d ρ
  edge : ∀ {t : DmTop} {h h' : RiscvCore} {d : Debuggee} {a : Option Access} {r : Option Request} {ρ : ℕ × ℕ},
    P t h d ρ → Attached t.regs → t.regs.progbuf = d.progbuf →
      (t.regs.dmcontrol.resumereq = true → d.resumes = true) → (∀ q, r = some q → Polite q ∧ Timely t d q) →
      Moves t r h h' a → ∀ b, Nears P goal (t.edge b a r) h' (d.after t.mem.cmdbusy r) a ρ

/-- What is due is that the debug module rests. -/
abbrev DueNears : DmTop → RiscvCore → Debuggee → Option Access → ℕ × ℕ → Prop := Nears Due fun t _ => Rests t

section

variable {t : DmTop} {d : Debuggee} {h h' h₁ : RiscvCore} {L : Context} {a : Option Access} {r : Option Request}

theorem Resumes.state {ρ : ℕ × ℕ} (h : Resumes t h d ρ) : t.mem.state = .resume := by
  obtain ⟨_, _, _, _, _, _, _, hstate⟩ := h
  exact hstate

theorem due_of_through {out : Option Word}
    (ht : Through (commandCode t.regs.command t.regs.progbuf) (t.regs.data 0) h L.reportsHalted out)
    (hstate : t.mem.state = .cmdExecuting) : ∃ n, Due t h d (0, n) := by
  cases ht with
  | @line n _ _ hl => exact ⟨n, .executes L n hl hstate⟩
  | @load n m rd _ h₁ _ hl hdebug hpending hl' => exact ⟨_, .transfers L n m h₁ hl (Or.inl ⟨rd, hpending⟩) hl' hstate⟩
  | @store n m v _ h₁ _ hl hdebug hpending hl' =>
    have hnext : h₁.next haltAddress (t.regs.data 0) = h₁.next haltAddress 0 := by
      rw [Hart.next, Hart.next, hpending]
    exact ⟨_, .transfers L n m h₁ hl (Or.inr ⟨v, hpending⟩) (by rw [hnext]; exact hl') hstate⟩

/-- A hart that polls when it is to resume. -/
theorem resumes_of_polls {n : ℕ} (hwhere : h₁ = L.reportsHalted ∨ h₁ = L.looksGo ∨ h₁ = L.looksResume)
    (hline : RomLine n h h₁) (he : Errand t L d) (hstate : t.mem.state = .resume) :
    ∃ ρ, Resumes t h d ρ := by
  rcases hwhere with hw | hw | hw
  · exact ⟨_, .mk L 4 n h₁ (Or.inl ⟨rfl, hw⟩) hline he hstate⟩
  · exact ⟨_, .mk L 3 n h₁ (Or.inr (Or.inl ⟨rfl, hw⟩)) hline he hstate⟩
  · exact ⟨_, .mk L 2 n h₁ (Or.inr (Or.inr (Or.inl ⟨rfl, hw⟩))) hline he hstate⟩

/-- In each stage the debug module rests, or it is due. -/
theorem Stage.due (hst : Stage t h d) : Rests t ∨ ∃ ρ, Due t h d ρ := by
  cases hst with
  | polls L n h₁ hwhere hline he =>
    have he' := he
    cases he' with
    | nothing hstate hvalid => exact Or.inl (rests_of_idle hstate hvalid)
    | command d₀ d₁ hstate =>
      rcases hstate with ⟨hgo, -⟩ | ⟨hidle, hvalid, -⟩
      · rcases hwhere with hw | hw | hw
        · exact Or.inr ⟨_, .go L 3 n h₁ (Or.inr (Or.inl ⟨rfl, hw⟩)) hline he hgo⟩
        · exact Or.inr ⟨_, .go L 2 n h₁ (Or.inr (Or.inr (Or.inl ⟨rfl, hw⟩))) hline he hgo⟩
        · exact Or.inr ⟨_, .go L 4 n h₁ (Or.inl ⟨rfl, hw⟩) hline he hgo⟩
      · exact Or.inr ⟨_, .asked L n h₁ hwhere hline he hidle hvalid⟩
    | resume hstate =>
      obtain ⟨ρ, hρ⟩ := resumes_of_polls hwhere hline he hstate
      exact Or.inr ⟨ρ, .resume hρ⟩
  | goes L n hline hstate he =>
    exact Or.inr ⟨_, .go L 1 n _ (Or.inr (Or.inr (Or.inr ⟨rfl, rfl⟩))) hline he hstate⟩
  | resumes L n hline hstate he =>
    exact Or.inr ⟨_, .resume (.mk L 1 n _ (Or.inr (Or.inr (Or.inr ⟨rfl, rfl⟩))) hline he hstate)⟩
  | executes L out hthrough hstate =>
    obtain ⟨n, hn⟩ := due_of_through (d := d) hthrough hstate
    exact Or.inr ⟨_, hn⟩
  | leaves L n hline hstate hhalted hvalid =>
    rcases hstate with hidle | ⟨hres, hresuming⟩
    · exact Or.inl (rests_of_idle hidle hvalid)
    · exact Or.inr ⟨_, .resumed L n hline hres hresuming⟩

/-- A hart that is to resume is about to leave debug mode. -/
theorem Stage.leaving (hst : Stage t h d) (hstate : t.mem.state = .resume) : ∃ ρ, Leaving t h d ρ := by
  cases hst with
  | polls L n h₁ hwhere hline he =>
    obtain ⟨ρ, hρ⟩ := resumes_of_polls hwhere hline he hstate
    exact ⟨ρ, .resume hρ⟩
  | resumes L n hline hstate he =>
    exact ⟨_, .resume (.mk L 1 n _ (Or.inr (Or.inr (Or.inr ⟨rfl, rfl⟩))) hline he hstate)⟩
  | leaves L n hline => exact ⟨_, .leaves L n hline⟩
  | goes L n hline hgo => exact absurd (hstate.symm.trans hgo) (by decide)
  | executes L out hthrough hexec => exact absurd (hstate.symm.trans hexec) (by decide)

/-- While a command is executed it is due. -/
theorem Stage.due_executing (hst : Stage t h d) (hstate : t.mem.state = .cmdExecuting) : ∃ n, Due t h d (0, n) := by
  rcases hst.due with hrests | ⟨ρ, hdue⟩
  · have hbusy : t.mem.cmdbusy = true := by simp [DmMem.cmdbusy, hstate]
    exact absurd (hbusy.symm.trans hrests.state) (by decide)
  · cases hdue with
    | asked _ _ _ _ _ _ hidle => exact absurd (hstate.symm.trans hidle) (by decide)
    | go _ _ _ _ _ _ _ hgo => exact absurd (hstate.symm.trans hgo) (by decide)
    | resume hresumes => exact absurd (hstate.symm.trans hresumes.state) (by decide)
    | resumed _ _ _ hres => exact absurd (hstate.symm.trans hres) (by decide)
    | transfers L n m h₁ hline hpending hline' hstate => exact ⟨_, .transfers L n m h₁ hline hpending hline' hstate⟩
    | executes L n hline hstate => exact ⟨_, .executes L n hline hstate⟩

/-! ### An edge -/

/-- A command that is asked for is offered to the hart at the next edge. -/
theorem Errand.edge_asked {g ha re : Bool} {st : Option Word} (he : Errand t L d) (ht : Attached t.regs)
    (hidle : t.mem.state = .idle) (hvalid : t.regs.cmdValid = true) (hs : Sees a g ha re st) (b : SbaBus) :
    (t.edge b a r).mem.state = .go := by
  have hstate' := state_edge ht hs b r
  cases he with
  | nothing _ hvalid' => exact absurd (hvalid.symm.trans hvalid') (by decide)
  | resume hres => exact absurd (hidle.symm.trans hres) (by decide)
  | command d₀ d₁ hstate =>
    rcases hstate with ⟨hgo, -⟩ | ⟨-, -, hhalted, hreq⟩
    · exact absurd (hidle.symm.trans hgo) (by decide)
    · rw [hstate', hidle, hvalid, hhalted, hreq]
      rfl

/-- A hart that polls when a command is asked for is to go. -/
theorem due_of_asked {n : ℕ} (hwhere : h₁ = L.reportsHalted ∨ h₁ = L.looksGo ∨ h₁ = L.looksResume)
    (hline : RomLine n h h₁) (he : Errand t L d) (hstate : t.mem.state = .go) :
    DueNears t h d a (5, 0) := by
  rcases hwhere with hw | hw | hw
  · exact Or.inr ⟨_, .go L 3 n h₁ (Or.inr (Or.inl ⟨rfl, hw⟩)) hline he hstate, Or.inl (.left _ _ (by decide))⟩
  · exact Or.inr ⟨_, .go L 2 n h₁ (Or.inr (Or.inr (Or.inl ⟨rfl, hw⟩))) hline he hstate,
      Or.inl (.left _ _ (by decide))⟩
  · exact Or.inr ⟨_, .go L 4 n h₁ (Or.inl ⟨rfl, hw⟩) hline he hstate, Or.inl (.left _ _ (by decide))⟩

/-- A command is executed until the hart reports that it is halted. -/
theorem edge_executing {g ha re : Bool} {st : Option Word} (ht : Attached t.regs)
    (hr : ∀ q, r = some q → Polite q ∧ Timely t d q) (hstate : t.mem.state = .cmdExecuting) (hs : Sees a g ha re st)
    (b : SbaBus) :
    (t.edge b a r).mem.state = (if ha then .idle else .cmdExecuting) ∧ (t.edge b a r).regs.cmdValid = false ∧
      commandCode (t.edge b a r).regs.command (t.edge b a r).regs.progbuf =
        commandCode t.regs.command t.regs.progbuf ∧
      (t.edge b a r).regs.data = st.elim t.regs.data (Function.update t.regs.data 0) := by
  have hbusy : t.mem.cmdbusy = true := by simp [DmMem.cmdbusy, hstate]
  obtain ⟨hvalid', hcmd', hprogbuf', hdata', -⟩ := regs_edge_of_busy ht hr hbusy hs b
  have hstate' := state_edge ht hs b r
  rw [hstate] at hstate'
  exact ⟨hstate', hvalid', by rw [hcmd', hprogbuf'], hdata'⟩

/-- A report that it resumes ends the errand. -/
theorem rests_of_resumed {g ha re : Bool} {st : Option Word} (ht : Attached t.regs)
    (hr : ∀ q, r = some q → Polite q ∧ Timely t d q) (hstate : t.mem.state = .resume)
    (hresuming : t.mem.resuming = true) (hs : Sees a g ha re st) (b : SbaBus) : Rests (t.edge b a r) := by
  have hbusy : t.mem.cmdbusy = true := by simp [DmMem.cmdbusy, hstate]
  obtain ⟨hvalid', -⟩ := regs_edge_of_busy ht hr hbusy hs b
  refine rests_of_idle ?_ hvalid'
  rw [state_edge ht hs b r, hstate, hresuming]
  rfl

section

variable {ρ : ℕ × ℕ} (hres : Resumes t h d ρ) (ht : Attached t.regs) (hprogbuf : t.regs.progbuf = d.progbuf)
  (hresumes : t.regs.dmcontrol.resumereq = true → d.resumes = true)
  (hr : ∀ q, r = some q → Polite q ∧ Timely t d q) (b : SbaBus)

include hres ht hprogbuf hresumes hr

/-- A hart that is to resume waits. -/
theorem Resumes.wait : Resumes (t.edge b none r) h (d.after t.mem.cmdbusy r) ρ := by
  obtain ⟨L, p, n, h₁, hwhere, hline, he, hstate⟩ := hres
  obtain ⟨he', hstate'⟩ := he.edge ht hprogbuf hresumes hr sees_none b
  rw [hstate] at hstate'
  exact .mk L p n h₁ hwhere hline he' (hstate' (by decide))

/-- A hart that is to resume makes its access: it is nearer to reporting it, or has done so. -/
theorem Resumes.move :
    (∃ ρ', Resumes (t.edge b (some h.access) r) (h.next haltAddress (t.mem.rdataO (t.memIn r) h.access))
        (d.after t.mem.cmdbusy r) ρ' ∧ Nearer ρ' ρ) ∨
      0 < ρ.1 ∧ (t.edge b (some h.access) r).mem.state = .resume ∧ (t.edge b (some h.access) r).mem.resuming = true ∧
        ∃ (L : Context) (n : ℕ), RomLine (n + 1) (h.next haltAddress (t.mem.rdataO (t.memIn r) h.access)) L.resumed := by
  obtain ⟨L, p, n, h₁, hwhere, hline, he, hstate⟩ := hres
  -- while it only looks and reports that it is halted
  have hstays {ha : Bool} (hs : Sees (some h.access) false ha false none) :
      Errand (t.edge b (some h.access) r) L (d.after t.mem.cmdbusy r) ∧
        (t.edge b (some h.access) r).mem.state = .resume := by
    obtain ⟨he', hstate'⟩ := he.edge ht hprogbuf hresumes hr hs b
    exact ⟨he', (hstate' (by rw [hstate]; decide)).trans hstate⟩
  cases n with
  | succ n =>
    obtain ⟨hs, hline'⟩ := next_rom t r hline
    obtain ⟨he', hstate'⟩ := hstays hs
    exact Or.inl ⟨_, .mk L p n h₁ hwhere hline' he' hstate', .right _ n.lt_succ_self⟩
  | zero =>
    obtain rfl := hline.zero
    rcases hwhere with ⟨rfl, rfl⟩ | ⟨rfl, rfl⟩ | ⟨rfl, rfl⟩ | ⟨rfl, rfl⟩
    · obtain ⟨he', hstate'⟩ := hstays sees_halted
      exact Or.inl ⟨_, .mk L 3 2 _ (Or.inr (Or.inl ⟨rfl, rfl⟩)) L.line_halted he' hstate',
        .left _ _ (by decide)⟩
    · obtain ⟨he', hstate'⟩ := hstays (sees_read rfl)
      rcases next_looksGo ht r with ⟨hgo, -⟩ | ⟨-, hline'⟩
      · exact absurd (hstate.symm.trans hgo) (by decide)
      · exact Or.inl ⟨_, .mk L 2 5 _ (Or.inr (Or.inr (Or.inl ⟨rfl, rfl⟩))) hline' he' hstate',
          .left _ _ (by decide)⟩
    · obtain ⟨he', hstate'⟩ := hstays (sees_read rfl)
      rcases next_looksResume ht r with ⟨-, hline'⟩ | ⟨hres, -⟩
      · exact Or.inl ⟨_, .mk L 1 5 _ (Or.inr (Or.inr (Or.inr ⟨rfl, rfl⟩))) hline' he' hstate',
          .left _ _ (by decide)⟩
      · exact absurd hstate hres
    · have hs : Sees (some L.reportsResuming.access) false false true none := sees_resuming
      cases he with
      | nothing hidle => exact absurd (hstate.symm.trans hidle) (by decide)
      | command d₀ d₁ hgo =>
        rcases hgo with ⟨hgo, -⟩ | ⟨hidle, -⟩
        · exact absurd (hstate.symm.trans hgo) (by decide)
        · exact absurd (hstate.symm.trans hidle) (by decide)
      | resume _ _ hresuming =>
        have hstate' := state_edge ht hs b r
        rw [hstate, hresuming] at hstate'
        exact Or.inr ⟨Nat.one_pos, hstate', resuming_edge hs b r, L.saved, 2, L.line_resuming⟩

end

section

variable {ρ : ℕ × ℕ} (hdue : Due t h d ρ) (ht : Attached t.regs) (hprogbuf : t.regs.progbuf = d.progbuf)
  (hresumes : t.regs.dmcontrol.resumereq = true → d.resumes = true)
  (hr : ∀ q, r = some q → Polite q ∧ Timely t d q) (b : SbaBus)

include hdue ht hprogbuf hresumes hr

/-- **The hart waits**: nothing is farther off after that. -/
theorem Due.wait : DueNears (t.edge b none r) h (d.after t.mem.cmdbusy r) none ρ := by
  cases hdue with
  | asked L n h₁ hwhere hline he hidle hvalid =>
    have he' := (he.edge ht hprogbuf hresumes hr sees_none b).1
    exact due_of_asked hwhere hline he' (he.edge_asked ht hidle hvalid sees_none b)
  | go L p n h₁ hwhere hline he hstate =>
    obtain ⟨he', hstate'⟩ := he.edge ht hprogbuf hresumes hr sees_none b
    rw [hstate] at hstate'
    exact Or.inr ⟨_, .go L p n h₁ hwhere hline he' (hstate' (by decide)), Or.inr ⟨rfl, rfl⟩⟩
  | resume hres => exact Or.inr ⟨_, .resume (hres.wait ht hprogbuf hresumes hr b), Or.inr ⟨rfl, rfl⟩⟩
  | transfers L n m h₁ hline hpending hline' hstate =>
    obtain ⟨hstate', -, hcode, hdata'⟩ := edge_executing ht hr hstate sees_none b
    refine Or.inr ⟨_, .transfers L n m h₁ ?_ hpending ?_ hstate', Or.inr ⟨rfl, rfl⟩⟩
    · rw [hcode]
      exact hline
    · rw [hcode, hdata']
      exact hline'
  | executes L n hline hstate =>
    obtain ⟨hstate', -, hcode, -⟩ := edge_executing ht hr hstate sees_none b
    refine Or.inr ⟨_, .executes L n ?_ hstate', Or.inr ⟨rfl, rfl⟩⟩
    rw [hcode]
    exact hline
  | resumed L n hline hstate hresuming => exact Or.inl (rests_of_resumed ht hr hstate hresuming sees_none b)

end

section

variable (ht : Attached t.regs) (hprogbuf : t.regs.progbuf = d.progbuf)
  (hresumes : t.regs.dmcontrol.resumereq = true → d.resumes = true)
  (hr : ∀ q, r = some q → Polite q ∧ Timely t d q) (b : SbaBus)

include ht hprogbuf hresumes hr

/-- A hart that polls makes its access when a command is asked for. -/
theorem move_asked {n : ℕ} (hwhere : h₁ = L.reportsHalted ∨ h₁ = L.looksGo ∨ h₁ = L.looksResume)
    (hline : RomLine n h h₁) (he : Errand t L d) (hidle : t.mem.state = .idle)
    (hvalid : t.regs.cmdValid = true) :
    DueNears (t.edge b (some h.access) r) (h.next haltAddress (t.mem.rdataO (t.memIn r) h.access))
      (d.after t.mem.cmdbusy r) (some h.access) (5, 0) := by
  cases n with
  | succ n =>
    obtain ⟨hs, hline'⟩ := next_rom t r hline
    exact due_of_asked hwhere hline' (he.edge ht hprogbuf hresumes hr hs b).1 (he.edge_asked ht hidle hvalid hs b)
  | zero =>
    obtain rfl := hline.zero
    rcases hwhere with rfl | rfl | rfl
    · exact due_of_asked (Or.inr (Or.inl rfl)) L.line_halted (he.edge ht hprogbuf hresumes hr sees_halted b).1
        (he.edge_asked ht hidle hvalid sees_halted b)
    · have hs : Sees (some L.looksGo.access) false false false none := sees_read rfl
      rcases next_looksGo ht r with ⟨hgo, -⟩ | ⟨-, hline'⟩
      · exact absurd (hidle.symm.trans hgo) (by decide)
      · exact due_of_asked (Or.inr (Or.inr rfl)) hline' (he.edge ht hprogbuf hresumes hr hs b).1
          (he.edge_asked ht hidle hvalid hs b)
    · have hs : Sees (some L.looksResume.access) false false false none := sees_read rfl
      rcases next_looksResume ht r with ⟨hres, -⟩ | ⟨-, hline'⟩
      · exact absurd (hidle.symm.trans hres) (by decide)
      · exact due_of_asked (Or.inl rfl) hline' (he.edge ht hprogbuf hresumes hr hs b).1
          (he.edge_asked ht hidle hvalid hs b)

/-- A hart that is to go makes its access. -/
theorem move_go {p n : ℕ}
    (hwhere : p = 4 ∧ h₁ = L.looksResume ∨ p = 3 ∧ h₁ = L.reportsHalted ∨ p = 2 ∧ h₁ = L.looksGo ∨
      p = 1 ∧ h₁ = L.reportsGoing)
    (hin : inPage h.access.addr) (hline : RomLine n h h₁) (he : Errand t L d)
    (hstate : t.mem.state = .go) :
    DueNears (t.edge b (some h.access) r) (h.next haltAddress (t.mem.rdataO (t.memIn r) h.access))
      (d.after t.mem.cmdbusy r) (some h.access) (p, n) := by
  -- while it only looks and reports that it is halted
  have hgoes {ha : Bool} (hs : Sees (some h.access) false ha false none) :
      Errand (t.edge b (some h.access) r) L (d.after t.mem.cmdbusy r) ∧
        (t.edge b (some h.access) r).mem.state = .go := by
    obtain ⟨he', hstate'⟩ := he.edge ht hprogbuf hresumes hr hs b
    exact ⟨he', (hstate' (by rw [hstate]; decide)).trans hstate⟩
  cases n with
  | succ n =>
    obtain ⟨hs, hline'⟩ := next_rom t r hline
    obtain ⟨he', hstate'⟩ := hgoes hs
    exact Or.inr ⟨_, .go L p n h₁ hwhere hline' he' hstate', Or.inl (.right _ n.lt_succ_self)⟩
  | zero =>
    obtain rfl := hline.zero
    rcases hwhere with ⟨rfl, rfl⟩ | ⟨rfl, rfl⟩ | ⟨rfl, rfl⟩ | ⟨rfl, rfl⟩
    · obtain ⟨he', hstate'⟩ := hgoes (sees_read rfl)
      rcases next_looksResume ht r with ⟨hres, -⟩ | ⟨-, hline'⟩
      · exact absurd (hstate.symm.trans hres) (by decide)
      · exact Or.inr ⟨_, .go L 3 5 _ (Or.inr (Or.inl ⟨rfl, rfl⟩)) hline' he' hstate',
          Or.inl (.left _ _ (by decide))⟩
    · obtain ⟨he', hstate'⟩ := hgoes sees_halted
      exact Or.inr ⟨_, .go L 2 2 _ (Or.inr (Or.inr (Or.inl ⟨rfl, rfl⟩))) L.line_halted he' hstate',
        Or.inl (.left _ _ (by decide))⟩
    · obtain ⟨he', hstate'⟩ := hgoes (sees_read rfl)
      rcases next_looksGo ht r with ⟨-, hline'⟩ | ⟨hgo, -⟩
      · exact Or.inr ⟨_, .go L 1 3 _ (Or.inr (Or.inr (Or.inr ⟨rfl, rfl⟩))) hline' he' hstate',
          Or.inl (.left _ _ (by decide))⟩
      · exact absurd hstate hgo
    · have hst := Stage.edge_goes ht hprogbuf hresumes hr (.move hin) hline hstate he b
      have hstate' := state_edge ht sees_going b r
      rw [hstate] at hstate'
      obtain ⟨m, hm⟩ := hst.due_executing hstate'
      exact Or.inr ⟨_, hm, Or.inl (.left _ _ (by decide))⟩

/-- **The hart makes an access**: what is due is nearer after that. -/
theorem Due.move {ρ : ℕ × ℕ} (hdue : Due t h d ρ) (hin : inPage h.access.addr) :
    DueNears (t.edge b (some h.access) r) (h.next haltAddress (t.mem.rdataO (t.memIn r) h.access))
      (d.after t.mem.cmdbusy r) (some h.access) ρ := by
  cases hdue with
  | asked L n h₁ hwhere hline he hidle hvalid =>
    exact move_asked ht hprogbuf hresumes hr b hwhere hline he hidle hvalid
  | go L p n h₁ hwhere hline he hstate =>
    exact move_go ht hprogbuf hresumes hr b hwhere hin hline he hstate
  | resume hres =>
    rcases hres.move ht hprogbuf hresumes hr b with ⟨ρ', hres', hnear⟩ | ⟨hpos, hstate', hresuming', L, n, hline⟩
    · exact Or.inr ⟨ρ', .resume hres', Or.inl hnear⟩
    · exact Or.inr ⟨_, .resumed L n hline hstate' hresuming', Or.inl (.left _ _ hpos)⟩
  | transfers L n m h₁ hline hpending hline' hstate =>
    cases n with
    | succ n =>
      obtain ⟨hs, hline₁⟩ := next_command r hstate hline
      obtain ⟨hstate', -, hcode, hdata'⟩ := edge_executing ht hr hstate hs b
      refine Or.inr ⟨_, .transfers L n m h₁ ?_ hpending ?_ hstate', Or.inl (.right _ (by omega))⟩
      · rw [hcode]
        exact hline₁
      · rw [hcode, hdata']
        exact hline'
    | zero =>
      obtain rfl := hline.zero
      -- the command reads data0 or writes it
      have hexec {st : Option Word} (hs : Sees (some h.access) false false false st)
          (hnext : h.next haltAddress (t.mem.rdataO (t.memIn r) h.access) = h.next haltAddress (t.regs.data 0)) :
          DueNears (t.edge b (some h.access) r) (h.next haltAddress (t.mem.rdataO (t.memIn r) h.access))
            (d.after t.mem.cmdbusy r) (some h.access) (0, 0 + m + 1) := by
        obtain ⟨hstate', -, hcode, -⟩ := edge_executing ht hr hstate hs b
        refine Or.inr ⟨_, .executes L m ?_ hstate', Or.inl (.right _ (by omega))⟩
        rw [hnext, hcode]
        exact hline'
      rcases hpending with ⟨rd, hpending⟩ | ⟨v, hpending⟩
      · have haccess : h.access = ⟨false, 0x1b000380, 0, 0b1111⟩ := by rw [Hart.access, hpending]
        refine hexec (sees_read (by rw [haccess])) ?_
        rw [haccess, rdataO_data]
        rfl
      · have haccess : h.access = ⟨true, 0x1b000380, v, 0b1111⟩ := by rw [Hart.access, hpending]
        refine hexec (by rw [haccess]; exact sees_stored v) ?_
        rw [Hart.next, Hart.next, hpending]
  | executes L n hline hstate =>
    cases n with
    | succ n =>
      obtain ⟨hs, hline'⟩ := next_command r hstate hline
      obtain ⟨hstate', -, hcode, -⟩ := edge_executing ht hr hstate hs b
      refine Or.inr ⟨_, .executes L n ?_ hstate', Or.inl (.right _ n.lt_succ_self)⟩
      rw [hcode]
      exact hline'
    | zero =>
      obtain rfl := hline.zero
      have hs : Sees (some L.reportsHalted.access) false true false none := sees_halted
      obtain ⟨hstate', hvalid', -⟩ := edge_executing ht hr hstate hs b
      exact Or.inl (rests_of_idle hstate' hvalid')
  | resumed L n hline hstate hresuming =>
    obtain ⟨hs, -⟩ := next_rom t r hline
    exact Or.inl (rests_of_resumed ht hr hstate hresuming hs b)

end

end

/-! ### Another memory -/

section

variable {t : DmTop} {d : Debuggee} {h : RiscvCore} {ρ : ℕ × ℕ}

theorem Resumes.withMem (hres : Resumes t h d ρ) (mem : Word → Word) : Resumes t (h.withMem mem) d ρ := by
  obtain ⟨L, p, n, h₁, hwhere, hline, he, hstate⟩ := hres
  refine .mk (L.withMem mem) p n (h₁.withMem mem) ?_ (hline.withMem mem) (he.withMem mem) hstate
  rcases hwhere with ⟨hp, rfl⟩ | ⟨hp, rfl⟩ | ⟨hp, rfl⟩ | ⟨hp, rfl⟩
  · exact Or.inl ⟨hp, (L.parked_withMem mem _ _ _).symm⟩
  · exact Or.inr (Or.inl ⟨hp, (L.parked_withMem mem _ _ _).symm⟩)
  · exact Or.inr (Or.inr (Or.inl ⟨hp, (L.parked_withMem mem _ _ _).symm⟩))
  · exact Or.inr (Or.inr (Or.inr ⟨hp, (L.parked_withMem mem _ _ _).symm⟩))

theorem Due.withMem (hdue : Due t h d ρ) (mem : Word → Word) : Due t (h.withMem mem) d ρ := by
  cases hdue with
  | asked L n h₁ hwhere hline he hidle hvalid =>
    refine .asked (L.withMem mem) n (h₁.withMem mem) ?_ (hline.withMem mem) (he.withMem mem) hidle hvalid
    rcases hwhere with rfl | rfl | rfl
    · exact Or.inl (L.parked_withMem mem _ _ _).symm
    · exact Or.inr (Or.inl (L.parked_withMem mem _ _ _).symm)
    · exact Or.inr (Or.inr (L.parked_withMem mem _ _ _).symm)
  | go L p n h₁ hwhere hline he hstate =>
    refine .go (L.withMem mem) p n (h₁.withMem mem) ?_ (hline.withMem mem) (he.withMem mem) hstate
    rcases hwhere with ⟨hp, rfl⟩ | ⟨hp, rfl⟩ | ⟨hp, rfl⟩ | ⟨hp, rfl⟩
    · exact Or.inl ⟨hp, (L.parked_withMem mem _ _ _).symm⟩
    · exact Or.inr (Or.inl ⟨hp, (L.parked_withMem mem _ _ _).symm⟩)
    · exact Or.inr (Or.inr (Or.inl ⟨hp, (L.parked_withMem mem _ _ _).symm⟩))
    · exact Or.inr (Or.inr (Or.inr ⟨hp, (L.parked_withMem mem _ _ _).symm⟩))
  | resume hres => exact .resume (hres.withMem mem)
  | transfers L n m h₁ hline hpending hline' hstate =>
    have hnext : (h₁.withMem mem).next haltAddress (t.regs.data 0) =
        (h₁.next haltAddress (t.regs.data 0)).withMem mem := by
      rcases hpending with ⟨rd, hpending⟩ | ⟨v, hpending⟩
      · exact next_withMem_load hpending mem (t.regs.data 0)
      · exact next_withMem_store hpending mem (t.regs.data 0)
    have hl := hline'.withMem mem
    rw [Context.reportsHalted, ← L.parked_withMem, ← hnext] at hl
    exact .transfers (L.withMem mem) n m (h₁.withMem mem) (hline.withMem mem) hpending hl hstate
  | executes L n hline hstate =>
    have hl := hline.withMem mem
    rw [Context.reportsHalted, ← L.parked_withMem] at hl
    exact .executes (L.withMem mem) n hl hstate
  | resumed L n hline hstate hresuming => exact .resumed (L.withMem mem) n (hline.withMem mem) hstate hresuming

theorem Leaving.withMem (hl : Leaving t h d ρ) (mem : Word → Word) : Leaving t (h.withMem mem) d ρ := by
  cases hl with
  | resume hres => exact .resume (hres.withMem mem)
  | leaves L n hline => exact .leaves (L.withMem mem) n (hline.withMem mem)

end

/-- **The debug module comes to rest.** -/
theorem progress_due : Progress Due fun t _ => Rests t where
  withMem h := h.withMem
  edge hdue ht hprogbuf hresumes hr hm b := by
    cases hm with
    | wait => exact hdue.wait ht hprogbuf hresumes hr b
    | move hin => exact hdue.move ht hprogbuf hresumes hr b hin

/-- **The hart leaves debug mode.** -/
theorem progress_leaving : Progress Leaving fun _ h => h.debug = false where
  withMem h := h.withMem
  edge hl ht hprogbuf hresumes hr hm b := by
    cases hm with
    | wait =>
      cases hl with
      | resume hres => exact Or.inr ⟨_, .resume (hres.wait ht hprogbuf hresumes hr b), Or.inr ⟨rfl, rfl⟩⟩
      | leaves L n hline => exact Or.inr ⟨_, .leaves L n hline, Or.inr ⟨rfl, rfl⟩⟩
    | move hin =>
      cases hl with
      | resume hres =>
        rcases hres.move ht hprogbuf hresumes hr b with ⟨ρ', hres', hnear⟩ | ⟨hpos, -, -, L, n, hline⟩
        · exact Or.inr ⟨ρ', .resume hres', Or.inl hnear⟩
        · exact Or.inr ⟨_, .leaves L n hline, Or.inl (.left _ _ hpos)⟩
      | leaves L n hline =>
        obtain ⟨-, hline'⟩ := next_rom _ _ hline
        cases n with
        | zero =>
          rw [hline'.zero]
          exact Or.inl rfl
        | succ n => exact Or.inr ⟨_, .leaves L n hline', Or.inl (.right _ n.lt_succ_self)⟩

/-! ### Runs -/

section

variable {P : DmTop → RiscvCore → Debuggee → ℕ × ℕ → Prop} {goal : DmTop → RiscvCore → Prop}
  {x : DebugTarget × Debuggee} {o : DebugTarget.Edge × Option Request}

/-- A hart that runs a program is asked for nothing. -/
theorem Holds.rests (h : Holds x) (hdebug : ¬ x.1.hart.debug = true) : Rests x.1.dm := by
  rw [Holds, if_neg hdebug] at h
  exact rests_of_idle h.state h.cmdValid

/-- How far off something is in a state of a run. -/
def AtRank (P : DmTop → RiscvCore → Debuggee → ℕ × ℕ → Prop) (ρ : ℕ × ℕ) (x : DebugTarget × Debuggee) : Prop :=
  Holds x ∧ x.1.hart.debug = true ∧ P x.1.dm x.1.hart x.2 ρ

/-- The hart makes its next access, or runs a program. -/
def Proceeds (x : DebugTarget × Debuggee) (o : DebugTarget.Edge × Option Request) : Prop :=
  o.1.hart = .move ∨ x.1.hart.debug = false

/-- **One edge**: the hart runs a program, or the goal is reached, or as near as it was and nearer after an
access. -/
theorem Progress.edge_follow (hP : Progress P goal) {ρ : ℕ × ℕ} (h : AtRank P ρ x) (ho : Allowed x o) :
    ((follow x o).1.hart.debug = false ∨ goal (follow x o).1.dm (follow x o).1.hart) ∨
      ∃ ρ', AtRank P ρ' (follow x o) ∧ (Nearer ρ' ρ ∨ ρ' = ρ ∧ ¬ Proceeds x o) := by
  obtain ⟨hholds, hdebug, hp⟩ := h
  by_cases hdebug' : (follow x o).1.hart.debug = true
  · have hd := hholds
    rw [Holds, if_pos hdebug] at hd
    have hin := hd.stage.debug.2
    have hmoves := edge_moves (i := o.1) (r := o.2) hdebug hin
    have hnears := hP.edge (hP.withMem hp _) hd.attached hd.progbuf hd.resumes ho hmoves
      (x.1.port.bus o.1.bus o.2)
    have hfollow := follow_of_debug hdebug o
    rcases hnears with hgoal | ⟨ρ', hp', hnear⟩
    · refine Or.inl (Or.inr ?_)
      rw [hfollow]
      exact hgoal
    · refine Or.inr ⟨ρ', ⟨(hholds.follow ho).1, hdebug', ?_⟩, hnear.imp id fun hsame => ⟨hsame.1, fun hc => ?_⟩⟩
      · rw [hfollow]
        exact hp'
      · rcases hc with hmove | hruns
        · have haccess : x.1.access o.1.hart = some x.1.hart.access := by
            rw [hmove]
            exact if_pos ⟨hdebug, hin⟩
          exact absurd (haccess.symm.trans hsame.2) (Option.some_ne_none _)
        · exact absurd (hdebug.symm.trans hruns) (by decide)
  · exact Or.inl (Or.inl (by simpa using hdebug'))

end

section

variable {os : ℕ → DebugTarget.Edge × Option Request} {x₀ : DebugTarget × Debuggee}

/-- **Progress in a run**, in which the hart goes on making accesses. -/
theorem Progress.reaches {P : DmTop → RiscvCore → Debuggee → ℕ × ℕ → Prop} {goal : DmTop → RiscvCore → Prop}
    (hP : Progress P goal) (hok : ∀ n, Allowed (states follow os x₀ n) (os n))
    (hfair : ∀ n, ∃ m, n ≤ m ∧ Proceeds (states follow os x₀ m) (os m)) {n : ℕ} {ρ : ℕ × ℕ}
    (hn : AtRank P ρ (states follow os x₀ n)) :
    ∃ k, n ≤ k ∧ ((states follow os x₀ k).1.hart.debug = false ∨
      goal (states follow os x₀ k).1.dm (states follow os x₀ k).1.hart) :=
  states_reach nearer_wf (AtRank P) (fun x => x.1.hart.debug = false ∨ goal x.1.dm x.1.hart)
    (fun _ _ _ hx ho => hP.edge_follow hx ho) hok hfair hn

end

/-- **Commands come to their end.** In a run from a reset without end, in which the debugger asks for what it
likes, and the hart makes its accesses when it likes but goes on making them: time and again the debug module
rests, and what is read then is what the account says, and a hart that is to resume comes to run a program. -/
theorem session_proceeds (core : Rv32.Hart) (csrs : CsRegisters) (pc : Word)
    (os : ℕ → DebugTarget.Edge × Option Request) (hok : ∀ n, Allowed (states follow os (begun core csrs pc) n) (os n))
    (hfair : ∀ n, ∃ m, n ≤ m ∧ Proceeds (states follow os (begun core csrs pc) m) (os m)) (n : ℕ) :
    (∃ k, n ≤ k ∧ Rests (states follow os (begun core csrs pc) k).1.dm ∧
      ∀ r w, (states follow os (begun core csrs pc) k).2.answer r = some w →
        (states follow os (begun core csrs pc) k).1.dm.respData r = w) ∧
      ((states follow os (begun core csrs pc) n).1.dm.mem.state = .resume →
        ∃ k, n ≤ k ∧ (states follow os (begun core csrs pc) k).1.hart.debug = false) := by
  have hholds : ∀ n, Holds (states follow os (begun core csrs pc) n) :=
    states_inv (fun _ _ ho hg => (hg.follow ho).1) hok (holds_begun core csrs pc)
  have hanswer {k : ℕ} (hrest : Rests (states follow os (begun core csrs pc) k).1.dm) (r : Request) (w : Word)
      (hw : (states follow os (begun core csrs pc) k).2.answer r = some w) :
      (states follow os (begun core csrs pc) k).1.dm.respData r = w :=
    (hholds k).respData hrest.state hrest.cmdValid hw
  by_cases hdebug : (states follow os (begun core csrs pc) n).1.hart.debug = true
  · have hd := hholds n
    rw [Holds, if_pos hdebug] at hd
    refine ⟨?_, fun hstate => ?_⟩
    · rcases hd.stage.due with hrests | ⟨ρ, hdue⟩
      · exact ⟨n, le_rfl, hrests, hanswer hrests⟩
      · obtain ⟨k, hk, hgoal⟩ := progress_due.reaches hok hfair ⟨hholds n, hdebug, hdue⟩
        have hrests : Rests (states follow os (begun core csrs pc) k).1.dm := by
          rcases hgoal with hruns | hrests
          · exact (hholds k).rests (by rw [hruns]; decide)
          · exact hrests
        exact ⟨k, hk, hrests, hanswer hrests⟩
    · obtain ⟨ρ, hleaving⟩ := hd.stage.leaving hstate
      obtain ⟨k, hk, hgoal⟩ := progress_leaving.reaches hok hfair ⟨hholds n, hdebug, hleaving⟩
      exact ⟨k, hk, hgoal.elim id id⟩
  · have hrests := (hholds n).rests hdebug
    exact ⟨⟨n, le_rfl, hrests, hanswer hrests⟩, fun _ => ⟨n, le_rfl, by simpa using hdebug⟩⟩

/-- The commands of that session come to their end, and the hart resumes. -/
theorem session_proceeds_mstatus :
    let x := states follow mstatusSession (begun ⟨fun _ => 0, fun _ => 0⟩ .fresh 0x80)
    (∃ k, 61 ≤ k ∧ Rests (x k).1.dm ∧ (x k).1.dm.respData ⟨DTM_READ, 0x04, 0⟩ = (x k).2.data 0) ∧
      (x 122).1.hart.debug = true ∧ ∃ k, 122 ≤ k ∧ (x k).1.hart.debug = false := by
  intro x
  have hok (n : ℕ) : Allowed (x n) (mstatusSession n) := by
    intro q hq
    have hnone (n : ℕ) (h : (mstatusSession n).2 = some q) : n = 0 ∨ n = 1 ∨ n = 13 ∨ n = 60 ∨ n = 120 := by
      simp only [mstatusSession] at h
      split at h <;> simp at h ⊢
    have hall : ∀ n ∈ [0, 1, 13, 60, 120], Allowed (x n) (mstatusSession n) := by decide +kernel
    exact hall n (by simpa using hnone n hq) q hq
  have hproceeds := session_proceeds ⟨fun _ => 0, fun _ => 0⟩ .fresh 0x80 mstatusSession hok
    fun n => ⟨n, le_rfl, Or.inl rfl⟩
  obtain ⟨k, hk, hrests, hread⟩ := (hproceeds 61).1
  exact ⟨⟨k, hk, hrests, hread _ _ rfl⟩, by decide +kernel, (hproceeds 122).2 (by decide +kernel)⟩

end PyOcdRiscv.Target
