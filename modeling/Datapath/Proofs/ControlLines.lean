import Datapath.Proofs.Phase
import Datapath.Proofs.Store

/-! The control lines that a step shows. They tell what the step has done to the registers, to the
memory and to the program counter, and they are low when it has executed nothing. A step past the
end of the program is left out: it shows the lines of the step before it. -/

set_option autoImplicit false

namespace Datapath

theorem ControlLines.high_eq_nil_iff {c : ControlLines} : c.high = [] ↔
    c.regWrite = false ∧ c.aluSrc = false ∧ c.memRead = false ∧ c.memWrite = false ∧
      c.branch = false ∧ c.branchTaken = false := by
  simp [high, named]

theorem Opcode.kind_eq_load_iff {op : Opcode} : op.kind = some .load ↔ op = .lw := by
  cases op <;> simp [kind, spec]

namespace Order

variable {o : Order} {r : Registers} {m : DataMemory} {pc : Int} {p : Plan}

theorem memRead_plan (h : o.plan r m pc = .ok p) : p.signals.memRead = true ↔ o.kind = .load := by
  have hread : p.signals.memRead = (o.kind.effects (o.redirect? r pc).isSome).2.1 :=
    congrArg (·.2.1) (shows_plan h).effects
  rw [hread]
  cases o.kind <;> simp [ExecClass.effects]

theorem branchTaken_plan (h : o.plan r m pc = .ok p) :
    p.signals.branchTaken = (o.redirect? r pc).isSome := by
  have htaken : p.signals.branchTaken = (o.kind.effects (o.redirect? r pc).isSome).2.2.2 :=
    congrArg (·.2.2.2) (shows_plan h).effects
  rw [htaken]
  cases hk : o.kind <;> simp [ExecClass.effects, redirect?, hk]

theorem memWrite_plan (h : o.plan r m pc = .ok p) :
    p.signals.memWrite = p.write.word?.isSome := by
  have hwrite : p.signals.memWrite = (o.kind.effects (o.redirect? r pc).isSome).2.2.1 :=
    congrArg (·.2.2.1) (shows_plan h).effects
  have hcase := planCase_plan h
  rw [hwrite]
  generalize o.operands = operands at hcase
  cases hcase with
  | register hk _ hw | immediate hk _ hw | load hk _ hw | store hk _ hw => rw [hk, hw]; rfl
  | branch hk hw | halt hk _ hw | upper hk hw | jump hk hw => rw [hk, hw]; rfl

theorem regWrite_plan (h : o.plan r m pc = .ok p) :
    p.signals.regWrite = true ↔ ∃ rd v, p.write = .register rd v := by
  have hwrite : p.signals.regWrite = (o.kind.effects (o.redirect? r pc).isSome).1 :=
    congrArg (·.1) (shows_plan h).effects
  have hcase := planCase_plan h
  rw [hwrite]
  generalize o.operands = operands at hcase
  cases hcase with
  | register hk _ hw | immediate hk _ hw | load hk _ hw | upper hk hw | jump hk hw =>
    rw [hk]
    exact ⟨fun _ => ⟨_, _, hw⟩, fun _ => rfl⟩
  | store hk _ hw | branch hk hw | halt hk _ hw =>
    rw [hk, hw]
    simp [ExecClass.effects]

theorem head?_of_register (h : o.plan r m pc = .ok p) {rd : Fin 32} {v : Int}
    (hw : p.write = .register rd v) : o.operands.head? = some (named rd) := by
  have hcase := planCase_plan h
  generalize o.operands = operands at hcase ⊢
  cases hcase with
  | register _ _ hw' | immediate _ _ hw' | load _ _ hw' | upper _ hw' | jump _ hw' =>
    cases hw'.symm.trans hw
    rfl
  | store _ _ hw' | branch _ hw' | halt _ _ hw' => cases hw'.symm.trans hw

end Order

namespace Machine

def order? (m : Machine) : Option Order := (m.fetch.bind (·.parsed)).bind (·.order?)

/-- A step with this report has carried out the order. -/
def Executes (m : Machine) (r : StepReport) (o : Order) : Prop :=
  m.order? = some o ∧ r.fault = none

variable {m m' : Machine} {r : StepReport}

theorem order?_eq {line : Slot} {i : Instruction} (hf : m.fetch = some line)
    (hi : line.parsed = some i) : m.order? = i.order? := by
  rw [order?, hf, Option.bind_some, hi, Option.bind_some]

theorem exists_order {line : Slot} {i : Instruction} {p : Plan} (hf : m.fetch = some line)
    (hi : line.parsed = some i) (hp : i.plan m.registers m.memory m.pc = .ok p) :
    ∃ o, m.order? = some o ∧ o.opcode.kind = some o.kind ∧
      o.plan m.registers m.memory m.pc = .ok p := by
  unfold Instruction.plan at hp
  split at hp
  · cases hp
  · next o ho => exact ⟨o, (order?_eq hf hi).trans ho, (i.order?_cases ho).2.1, hp⟩

inductive StepShown (m : Machine) (r : StepReport) : Prop
  | executed {o : Order} {p : Plan} : m.Executes r o → o.opcode.kind = some o.kind →
      o.plan m.registers m.memory m.pc = .ok p → r.signals = p.signals →
      r.lastRegister = p.write.register? → r.lastMemory = p.write.word? →
      (p.halts = false → r.pc = p.nextPc) → StepShown m r
  | idle {line : Slot} : m.fetch = some line → (∀ o, ¬ m.Executes r o) → r.signals = .idle →
      r.lastRegister = none → r.lastMemory = none → StepShown m r
  | past : m.finished = true → (∀ o, ¬ m.Executes r o) → r.signals = m.signals →
      r.lastRegister = none → r.lastMemory = none → StepShown m r

theorem stepShown_step (h : m.step = (.ok r, m')) : m.StepShown r := by
  have hcase := m.stepCase_step
  rw [h] at hcase
  cases hcase with
  | past hf =>
    have hnone := fetch_of_finished hf
    exact .past hf (fun o ho => by simp [Executes, order?, hnone] at ho) rfl rfl rfl
  | blank hf hi =>
    exact .idle hf (fun o ho => by simp [Executes, order?, hf, hi] at ho) rfl rfl rfl
  | fault hf => exact .idle hf (fun o ho => by simp [Executes, advance, report] at ho) rfl rfl rfl
  | @halt line _ p _ hf hi hp _ hh =>
    obtain ⟨o, ho, hk, hplan⟩ := exists_order hf hi hp
    have hr := lastRegister_apply (m.take line) p.write rfl
    have hw := lastMemory_apply (m := m.take line) (w := p.write) rfl
    refine .executed ⟨ho, rfl⟩ hk hplan rfl hr hw fun hgo => ?_
    cases hgo.symm.trans hh
  | @proceed line _ p _ hf hi hp =>
    obtain ⟨o, ho, hk, hplan⟩ := exists_order hf hi hp
    have hr := lastRegister_apply (m.take line) p.write rfl
    have hw := lastMemory_apply (m := m.take line) (w := p.write) rfl
    exact .executed ⟨ho, rfl⟩ hk hplan rfl hr hw fun _ => rfl

theorem Executes.unique {o o' : Order} (h : m.Executes r o) (h' : m.Executes r o') : o = o' :=
  Option.some.inj (h.1.symm.trans h'.1)

/-- The lines of a report tell what its step has done. They are high for a store to the memory, for
a store to a register other than zero, for a load and for a redirection, and all are low where
nothing was executed. Only an instruction whose first operand is register zero raises the line to
the registers without a register that has changed. -/
structure LinesTell (m : Machine) (r : StepReport) : Prop where
  memWrite : r.signals.memWrite = true ↔ r.lastMemory ≠ none
  regWrite : r.lastRegister ≠ none → r.signals.regWrite = true
  zero : r.signals.regWrite = true → r.lastRegister = none →
    ∃ o, m.Executes r o ∧ o.operands.head? = some (some 0)
  memRead : r.signals.memRead = true ↔ ∃ o, m.Executes r o ∧ o.opcode = .lw
  branchTaken : r.signals.branchTaken = true ↔
    ∃ o target, m.Executes r o ∧ o.redirect? m.registers m.pc = some target ∧ r.pc = target
  low : (∀ o, ¬ m.Executes r o) → r.signals.high = []

theorem linesTell_of_executes {o : Order} {p : Plan} (ho : m.Executes r o)
    (hk : o.opcode.kind = some o.kind) (hp : o.plan m.registers m.memory m.pc = .ok p)
    (hs : r.signals = p.signals) (hr : r.lastRegister = p.write.register?)
    (hm : r.lastMemory = p.write.word?) (hpc : p.halts = false → r.pc = p.nextPc) :
    m.LinesTell r := by
  have hshows := Order.shows_plan hp
  constructor
  case memWrite =>
    rw [hs, Order.memWrite_plan hp, hm, Option.isSome_iff_ne_none]
  case regWrite =>
    intro hne
    rw [hs, Order.regWrite_plan hp]
    cases hw : p.write with
    | register rd v => exact ⟨rd, v, rfl⟩
    | nothing | memory =>
      rw [hr, hw] at hne
      exact absurd rfl hne
  case zero =>
    intro hreg hnone
    rw [hs, Order.regWrite_plan hp] at hreg
    obtain ⟨rd, v, hw⟩ := hreg
    rw [hr, hw] at hnone
    have hzero : rd.val = 0 := by
      by_contra hne
      simp [Write.register?, hne] at hnone
    have hhead := Order.head?_of_register hp hw
    rw [Order.named, hzero] at hhead
    exact ⟨o, ho, hhead⟩
  case memRead =>
    rw [hs, Order.memRead_plan hp]
    constructor
    · intro hload
      exact ⟨o, ho, Opcode.kind_eq_load_iff.1 (hk.trans (congrArg some hload))⟩
    · rintro ⟨o', ho', hlw⟩
      cases ho.unique ho'
      exact Option.some.inj (hk.symm.trans (Opcode.kind_eq_load_iff.2 hlw))
  case branchTaken =>
    rw [hs, Order.branchTaken_plan hp]
    constructor
    · intro htaken
      obtain ⟨target, htarget⟩ := Option.isSome_iff_exists.1 htaken
      refine ⟨o, target, ho, htarget, ?_⟩
      cases hh : p.halts with
      | true => cases (hshows.halts hh).symm.trans htarget
      | false => rw [hpc hh, hshows.nextPc hh, htarget, Option.getD_some]
    · rintro ⟨o', target, ho', htarget, -⟩
      cases ho.unique ho'
      rw [htarget, Option.isSome_some]
  case low => exact fun hnone => absurd ho (hnone o)

theorem linesTell_iff_of_not_executes (hnone : ∀ o, ¬ m.Executes r o)
    (hr : r.lastRegister = none) (hm : r.lastMemory = none) :
    m.LinesTell r ↔ r.signals.high = [] := by
  refine ⟨fun h => h.low hnone, fun hlow => ?_⟩
  obtain ⟨hreg, -, hread, hwrite, -, htaken⟩ := ControlLines.high_eq_nil_iff.1 hlow
  constructor
  case memWrite => simp [hwrite, hm]
  case regWrite => exact fun hne => absurd hr hne
  case zero => exact fun hhigh => absurd hhigh (by simp [hreg])
  case memRead =>
    rw [hread]
    exact ⟨fun h => absurd h Bool.false_ne_true, fun ⟨o, ho, _⟩ => absurd ho (hnone o)⟩
  case branchTaken =>
    rw [htaken]
    exact ⟨fun h => absurd h Bool.false_ne_true, fun ⟨o, _, ho, _⟩ => absurd ho (hnone o)⟩
  case low => exact fun _ => hlow

end Machine

namespace Session

open Machine

variable {s : Session} {m : Machine} {r : StepReport}

/-- In every state that a session reaches, the control lines that a step shows tell what it has
done, and all of the lines are at rest if it has executed nothing. A step past the end of the
program changes nothing and shows the lines that the machine had, so they tell the truth only if
none of them was high. -/
theorem lines_of_step (h : s.machine.step = (.ok r, m)) :
    (s.machine.finished = false → s.machine.LinesTell r ∧
      ((∀ o, ¬ s.machine.Executes r o) → r.signals = .idle)) ∧
    (s.machine.finished = true → (∀ o, ¬ s.machine.Executes r o) ∧
      r.signals = s.machine.signals ∧ r.lastRegister = none ∧ r.lastMemory = none ∧
      (s.machine.LinesTell r ↔ s.machine.signals.high = [])) := by
  cases stepShown_step h with
  | executed ho hk hp hsig hr hm hpc =>
    refine ⟨fun _ => ⟨linesTell_of_executes ho hk hp hsig hr hm hpc, ?_⟩, fun hf => ?_⟩
    · exact fun hnone => absurd ho (hnone _)
    · have hgone := ho.1
      rw [order?, fetch_of_finished hf] at hgone
      cases hgone
  | idle hfetch hnone hsig hr hm =>
    refine ⟨fun _ => ⟨?_, fun _ => hsig⟩, fun hf => ?_⟩
    · rw [linesTell_iff_of_not_executes hnone hr hm, hsig]
      rfl
    · cases hfetch.symm.trans (fetch_of_finished hf)
  | past hover hnone hsig hr hm =>
    refine ⟨fun hf => ?_, fun _ => ⟨hnone, hsig, hr, hm, ?_⟩⟩
    · cases hf.symm.trans hover
    · rw [linesTell_iff_of_not_executes hnone hr hm, hsig]

theorem lines_of_step_jump :
    ∃ s m r, Reachable s ∧ s.machine.step = (.ok r, m) ∧ s.machine.finished = false ∧
      s.machine.LinesTell r ∧ r.signals.high = ["reg_write", "alu_src", "branch", "branch_taken"] ∧
      r.lastRegister = some 1 ∧ r.pc = 8 := by
  obtain ⟨s, hs, m, r, hstep, hgoing, hhigh, hlast, hpc⟩ : ∃ s, Reachable s ∧
      ∃ m r, s.machine.step = (.ok r, m) ∧ s.machine.finished = false ∧
      r.signals.high = ["reg_write", "alu_src", "branch", "branch_taken"] ∧
      r.lastRegister = some 1 ∧ r.pc = 8 := by
    obtain ⟨m, hm⟩ : ∃ m, Machine.create {} = .ok m := ⟨_, rfl⟩
    refine ⟨_, (Reachable.start hm).perform (.load "jal x1, 8\nnop\nlw x2, 0(x0)".toList), ?_⟩
    cases hm
    exact ⟨_, _, rfl, rfl, rfl, rfl, rfl⟩
  obtain ⟨htell, -⟩ := (lines_of_step hstep).1 hgoing
  exact ⟨s, m, r, hs, hstep, hgoing, htell, hhigh, hlast, hpc⟩

/-- The step past the end shows the line of the store before it, and has stored nothing. -/
theorem lines_past_end :
    ∃ s m r, Reachable s ∧ s.machine.step = (.ok r, m) ∧ s.machine.finished = true ∧
      r.signals.memWrite = true ∧ r.lastMemory = none ∧ ¬ s.machine.LinesTell r := by
  obtain ⟨s, hs, m, r, hstep, hover, hwrite, hlast⟩ : ∃ s, Reachable s ∧
      ∃ m r, s.machine.step = (.ok r, m) ∧ s.machine.finished = true ∧
      r.signals.memWrite = true ∧ r.lastMemory = none := by
    obtain ⟨m, hm⟩ : ∃ m, Machine.create {} = .ok m := ⟨_, rfl⟩
    refine ⟨_, ((Reachable.start hm).perform (.load "sw x0, 0(x0)".toList)).perform .step, ?_⟩
    cases hm
    exact ⟨_, _, rfl, rfl, rfl, rfl⟩
  exact ⟨s, m, r, hs, hstep, hover, hwrite, hlast, fun htell => htell.memWrite.1 hwrite hlast⟩

end Session

end Datapath
