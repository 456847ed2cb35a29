import Datapath.Proofs.Reachable

set_option autoImplicit false

namespace Datapath

namespace Machine

/-- The next line is the branch that halts. -/
def Halting (m : Machine) : Prop :=
  ∃ line i, m.fetch = some line ∧ line.parsed = some i ∧ i.Halts

structure Orderly (m : Machine) : Prop where
  aligned : Aligned m.pc
  finished : m.phase = .finished → (m.program.length : Int) ≤ m.pc / 4
  halted : m.phase = .halted → m.Halting
  ready : m.phase = .ready → m.pc / 4 < m.program.length ∨ m.program.length = 0

variable {m m' : Machine}

theorem orderly_of_start (hpc : m.pc = 0) (hp : m.phase = .ready) : m.Orderly := by
  refine ⟨hpc ▸ aligned_zero, ?_, ?_, fun _ => ?_⟩
  · simp [hp]
  · simp [hp]
  · omega

theorem orderly_create {c : Settings} {host : Host} (h : create c host = .ok m) : m.Orderly := by
  obtain ⟨memory, -, h⟩ := Outcome.bind_eq_ok.1 h
  obtain ⟨trace, -, h⟩ := Outcome.bind_eq_ok.1 h
  cases h
  exact orderly_of_start rfl rfl

theorem orderly_settle (h : Aligned m.pc) : m.settle.Orderly := by
  unfold settle
  refine ⟨h, ?_, ?_, ?_⟩ <;> intro hp <;> cases hf : m.finished <;> simp only [hf] at hp
  · cases hp
  · exact finished_iff.1 hf
  · cases hp
  · cases hp
  · have hlt := mt finished_iff.2 (Bool.eq_false_iff.1 hf)
    exact .inl (Int.not_le.1 hlt)
  · cases hp

theorem Orderly.step (h : m.Orderly) : m.step.2.Orderly := by
  have hs := m.stepEnd_step
  generalize m.step = x at hs ⊢
  cases hs with
  | past hf => exact ⟨h.aligned, fun _ => finished_iff.1 hf, nofun, nofun⟩
  | lost => exact ⟨h.aligned, nofun, nofun, nofun⟩
  | @escape line _ w hf =>
    have hpc : ((m.take line).apply w).pc = m.pc := pc_apply _ w
    have hp : ((m.take line).apply w).phase = .executing := phase_apply _ w
    refine ⟨hpc ▸ h.aligned, ?_, ?_, ?_⟩ <;> intro hp' <;> cases hp.symm.trans hp'
  | proceed w hf hpc =>
    refine orderly_settle ?_
    rcases hpc with rfl | hpc
    · exact h.aligned.next
    · exact hpc
  | halt hf hi hh => exact ⟨h.aligned, nofun, fun _ => ⟨_, _, hf, hi, hh⟩, nofun⟩

theorem Orderly.finish (h : m.Orderly) (r : Run) {reason : RunEnd}
    (hr : reason = .finished → m.finished = true) : (m.finish r reason).Orderly := by
  unfold Machine.finish
  split
  · dsimp only
    split
    · next he => exact ⟨h.aligned, fun _ => finished_iff.1 (hr he), nofun, nofun⟩
    · exact ⟨h.aligned, h.finished, h.halted, h.ready⟩
  · exact h

theorem Orderly.move (hm : Move m m') (h : m.Orderly) : m'.Orderly := by
  cases hm with
  | edit he =>
    cases he with
    | close hf => exact ⟨h.aligned, fun _ => finished_iff.1 hf, nofun, nofun⟩
    | registers | memory | note => exact ⟨h.aligned, h.finished, h.halted, h.ready⟩
  | stop =>
    unfold stop
    split
    · exact ⟨h.aligned, h.finished, h.halted, h.ready⟩
    · exact h
  | reset => exact orderly_of_start rfl rfl
  | install p => exact orderly_of_start rfl rfl
  | announce => exact ⟨h.aligned, h.finished, h.halted, h.ready⟩
  | finish r hr => exact h.finish r hr

def stance (m : Machine) : Int × Registers × DataMemory × Program × Phase :=
  (m.pc, m.registers, m.memory, m.program, m.phase)

theorem step_of_past (h : m.finished = true) : ∃ r m', m.step = (.ok r, m') ∧
    m'.stance = (m.pc, m.registers, m.memory, m.program, .finished) := by
  obtain ⟨r, _, _, hs⟩ := step_past h
  exact ⟨r, _, hs, rfl⟩

theorem step_of_halting (h : m.Halting) : ∃ r m', m.step = (.ok r, m') ∧
    m'.stance = (m.pc, m.registers, m.memory, m.program, .halted) := by
  obtain ⟨line, i, hf, hi, hh⟩ := h
  simp only [step_of_parsed hf hi, execute, hh.plan_eq]
  exact ⟨_, _, rfl, rfl⟩

theorem Orderly.rest (h : m.Orderly) (hp : m.phase = .halted ∨ m.phase = .finished) :
    ∃ r m', m.step = (.ok r, m') ∧ m'.stance = m.stance := by
  rcases hp with hp | hp
  · unfold stance
    rw [hp]
    exact step_of_halting (h.halted hp)
  · unfold stance
    rw [hp]
    exact step_of_past (finished_iff.2 (h.finished hp))

theorem Orderly.rest_stepMany (h : m.Orderly) (hp : m.phase = .halted ∨ m.phase = .finished)
    (n : Nat) : ∃ rs m', m.stepMany n = (.ok rs, m') ∧ m'.stance = m.stance := by
  induction n generalizing m with
  | zero => exact ⟨[], m, rfl, rfl⟩
  | succ n ih =>
    obtain ⟨r, m₁, hstep, hm₁⟩ := h.rest hp
    have ho : m₁.Orderly := by
      have := h.step
      rwa [hstep] at this
    have hphase : m₁.phase = m.phase := congrArg (·.2.2.2.2) hm₁
    obtain ⟨rs, m₂, hmany, hm₂⟩ := ih ho (hphase ▸ hp)
    refine ⟨r :: rs, m₂, ?_, hm₂.trans hm₁⟩
    simp only [stepMany, hstep, hmany]
    rfl

end Machine

theorem Session.Reachable.orderly {s : Session} (h : s.Reachable) : s.machine.Orderly := by
  induction h with
  | start hc => exact Machine.orderly_create hc
  | @perform s c _ ih =>
    exact (s.path_perform c).keeps (fun _ => Machine.Orderly.step)
      (fun _ _ => Machine.Orderly.move) ih

/-- In every state that a session reaches, the phase tells where the program counter stands, the
next line is in the program unless the program is over, and a machine that has halted or finished
stays as it is. -/
theorem Session.reachable_at_rest {s : Session} (hs : s.Reachable) :
    s.machine.Orderly ∧
      (s.machine.finished = false → ∃ line, s.machine.fetch = some line) ∧
      (s.machine.phase = .halted ∨ s.machine.phase = .finished → ∀ n,
        ∃ rs m, s.machine.stepMany n = (.ok rs, m) ∧ m.pc = s.machine.pc ∧
          m.registers = s.machine.registers ∧ m.memory = s.machine.memory ∧
          m.phase = s.machine.phase) := by
  have ho := hs.orderly
  refine ⟨ho, ?_, ?_⟩
  · intro hf
    cases hline : s.machine.fetch with
    | none => simp [(Machine.fetch_eq_none_iff ho.aligned.1).1 hline] at hf
    | some line => exact ⟨line, rfl⟩
  · intro hp n
    obtain ⟨rs, m, hmany, hm⟩ := ho.rest_stepMany hp n
    simp only [Machine.stance, Prod.mk.injEq] at hm
    exact ⟨rs, m, hmany, hm.1, hm.2.1, hm.2.2.1, hm.2.2.2.2⟩

theorem Session.reachable_at_rest_jump :
    ∃ s : Session, s.Reachable ∧ s.machine.phase = .halted ∧ s.machine.Halting ∧
      ∀ n, ∃ rs m, s.machine.stepMany n = (.ok rs, m) ∧ m.pc = 8 ∧ m.phase = .halted := by
  obtain ⟨s, hs, hp, hpc⟩ : ∃ s : Session,
      s.Reachable ∧ s.machine.phase = .halted ∧ s.machine.pc = 8 := by
    obtain ⟨m, hm⟩ : ∃ m, Machine.create {} = .ok m := ⟨_, rfl⟩
    refine ⟨_, ((Session.Reachable.start hm).perform
      (.load "jal x1, 8\nnop\nbeq x0, x0, 0".toList)).perform (.run (some 9)), ?_⟩
    cases hm
    exact ⟨rfl, rfl⟩
  obtain ⟨ho, -, hrest⟩ := Session.reachable_at_rest hs
  refine ⟨s, hs, hp, ho.halted hp, fun n => ?_⟩
  obtain ⟨rs, m, hmany, hpc', -, -, hp'⟩ := hrest (.inl hp) n
  exact ⟨rs, m, hmany, hpc'.trans hpc, hp'.trans hp⟩

end Datapath
