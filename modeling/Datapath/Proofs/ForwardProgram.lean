import Datapath.Proofs.Escape
import Datapath.Proofs.OperandKind
import Datapath.Proofs.UnheldRun

set_option autoImplicit false

namespace Datapath

namespace Instruction

def offset? (i : Instruction) : Option Int :=
  match i.kind with
  | some .branch => i.operands[2]?.join
  | some .jump => i.operands[1]?.join
  | _ => none

/-- The instruction is no jump from a register, and its offset is positive unless it halts. A jump
counts from where it stands only under the name of `jal`; under every other name it is executed as
`jalr` is. -/
structure Forward (i : Instruction) : Prop where
  jal : i.kind = some .jump → i.mnemonic = Opcode.jal.name
  offset : ∀ v, i.offset? = some v → 0 < v ∨ i.Halts

variable {i : Instruction} {o : Order} {r : Registers} {m : DataMemory} {pc target : Int} {p : Plan}

theorem opcode_of_order? {op : Opcode} (h : i.order? = some o) (hn : i.mnemonic = op.name) :
    o.opcode = op ∧ o.exact = true := by
  obtain ⟨mnemonic, operands⟩ := i
  subst hn
  rw [order?_named] at h
  obtain ⟨kind, -, h⟩ := Option.map_eq_some_iff.1 h
  cases h
  exact ⟨rfl, exact_orderFor op kind operands⟩

theorem operands_of_order? (h : o.kind = .branch ∨ o.kind = .jump) (ho : i.order? = some o) :
    o.operands = i.operands := by
  refine (order?_eq_some ho fun hn => ?_).2
  have hk := kind_of_order? ho
  rw [kind, hn, Opcode.lookup?_nopName, Option.bind_some] at hk
  rcases h with h | h <;> rw [h] at hk <;> cases hk

theorem offset?_branch {a b : Option Int} {v : Int} {rest : List (Option Int)}
    (hk : o.kind = .branch) (ho : i.order? = some o)
    (h : o.operands = a :: b :: some v :: rest) : i.offset? = some v := by
  rw [offset?, kind_of_order? ho, hk, ← operands_of_order? (.inl hk) ho, h]
  rfl

theorem offset?_jump {a : Option Int} {v : Int} {rest : List (Option Int)}
    (hk : o.kind = .jump) (ho : i.order? = some o)
    (h : o.operands = a :: some v :: rest) : i.offset? = some v := by
  rw [offset?, kind_of_order? ho, hk, ← operands_of_order? (.inr hk) ho, h]
  rfl

theorem Forward.lt_target (hi : i.Forward) (hgo : ¬ i.Halts) (ho : i.order? = some o)
    (h : o.redirect? r pc = some target) : pc < target := by
  have hahead : ∀ {v}, i.offset? = some v → pc < pc + v := fun hv => by
    have hpos := (hi.offset _ hv).resolve_right hgo
    omega
  unfold Order.redirect? at h
  split at h
  · next hk =>
    unfold Order.branchTarget? at h
    split at h
    · next hops =>
      obtain ⟨x, -, h⟩ := Option.bind_eq_some_iff.1 h
      obtain ⟨u, -, h⟩ := Option.bind_eq_some_iff.1 h
      obtain ⟨v, -, h⟩ := Option.bind_eq_some_iff.1 h
      split at h
      · cases h
      · split at h
        · cases h
          exact hahead (offset?_branch hk ho hops)
        · cases h
    · cases h
  · next hk =>
    unfold Order.jumpTarget? at h
    split at h
    · next hops =>
      have hjal := opcode_of_order? ho (hi.jal ((kind_of_order? ho).trans (congrArg some hk)))
      rw [if_pos hjal.symm] at h
      cases h
      exact hahead (offset?_jump hk ho hops)
    · cases h
  · cases h

/-- An instruction that goes forward halts, or it goes on at the next line or at a later one. -/
theorem Forward.next_le (hi : i.Forward) (ha : Aligned pc) (h : i.plan r m pc = .ok p)
    (hh : p.halts = false) : Aligned p.nextPc ∧ pc + 4 ≤ p.nextPc := by
  have hgo : ¬ i.Halts := by
    intro hhalts
    rw [hhalts.plan_eq] at h
    cases h
    cases hh
  have hnext : p.nextPc = pc + 4 ∨ Aligned p.nextPc ∧ pc < p.nextPc := by
    rcases plan_eq_ok h with ⟨-, haligned⟩ | ⟨hstop, -⟩
    · unfold plan at h
      split at h
      · cases h
      · next o ho =>
        have hshows := (Order.shows_plan h).nextPc hh
        cases htarget : o.redirect? r pc with
        | none =>
          rw [htarget] at hshows
          exact .inl hshows
        | some target =>
          rw [htarget, Option.getD_some] at hshows
          have hlt := hi.lt_target hgo ho htarget
          rw [← hshows] at hlt
          exact haligned.imp_right fun ha => ⟨ha, hlt⟩
    · cases hstop.symm.trans hh
  rcases hnext with hnext | ⟨haligned, hlt⟩
  · rw [hnext]
    exact ⟨ha.next, Int.le_refl _⟩
  · refine ⟨haligned, ?_⟩
    unfold Aligned at ha haligned
    omega

theorem forward_iff {t : Text} (ht : i.mnemonic = Text.lowercase t) : i.Forward ↔
    i.mnemonic ≠ Opcode.jalr.name ∧ ∀ v, i.offset? = some v → 0 < v ∨ i.Halts := by
  constructor
  · intro h
    refine ⟨fun hn => ?_, h.offset⟩
    have hk : i.kind = some .jump := by rw [kind, hn, Opcode.lookup?_name]; rfl
    cases Opcode.name_injective (hn.symm.trans (h.jal hk))
  · rintro ⟨hn, hoffset⟩
    refine ⟨fun hk => ?_, hoffset⟩
    obtain ⟨op, hop, hkind⟩ := Option.bind_eq_some_iff.1 hk
    rcases Opcode.lowercase_eq_of_lookup? (ht ▸ hop) with hname | hname
    · rw [ht, hname, Opcode.lookup?_nopName] at hop
      cases hop
      cases hkind
    · cases op with
      | jal => exact ht.trans hname
      | jalr => exact absurd (ht.trans hname) hn
      | _ => cases hkind

end Instruction

namespace Program

def instructions (p : Program) : List Instruction := p.lines.filterMap (·.parsed)

def ForwardOnly (p : Program) : Prop := ∀ i ∈ p.instructions, i.Forward

/-- A program that was read from a source has no other jumps than `jal` and `jalr`. -/
theorem forwardOnly_iff_of_load {source : Text} {p : Program} (h : load source = .ok p) :
    p.ForwardOnly ↔ ∀ i ∈ p.instructions,
      i.mnemonic ≠ Opcode.jalr.name ∧ ∀ v, i.offset? = some v → 0 < v ∨ i.Halts := by
  refine forall₂_congr fun i hi => ?_
  obtain ⟨line, hl, hparsed⟩ := List.mem_filterMap.1 hi
  obtain ⟨t, ht⟩ := exists_lowercase h hl hparsed
  exact Instruction.forward_iff ht

end Program

namespace Machine

variable {m m' : Machine} {r : StepReport} {limit : Int} {left : Nat} {first : Bool}

def linesLeft (m : Machine) : Nat := m.program.length - (m.pc / 4).toNat

theorem finished_iff_linesLeft (hpc : 0 ≤ m.pc) : m.finished = true ↔ m.linesLeft = 0 := by
  rw [finished_iff, linesLeft]
  omega

/-- A machine between two steps of a program that goes forward, with nothing to hold it up. -/
structure Onward (m : Machine) : Prop where
  forward : m.program.ForwardOnly
  aligned : Aligned m.pc
  free : m.breakpoints = []

theorem next_le_pc_step (h : m.Onward) (hf : m.finished = false) (hs : m.step = (.ok r, m'))
    (hh : m'.halted = false) : Aligned m'.pc ∧ m.pc + 4 ≤ m'.pc := by
  have hcase := m.stepCase_step
  rw [hs] at hcase
  cases hcase with
  | past hover => cases hf.symm.trans hover
  | blank | fault => exact ⟨h.aligned.next, Int.le_refl _⟩
  | halt => cases hh
  | @proceed line i _ _ hfetch hi hplan _ hgo =>
    have hmem : i ∈ m.program.instructions :=
      List.mem_filterMap.2 ⟨line, mem_of_fetch hfetch, hi⟩
    exact (h.forward i hmem).next_le h.aligned hplan hgo

theorem Onward.step (h : m.Onward) (hf : m.finished = false) (hs : m.step = (.ok r, m'))
    (hh : m'.halted = false) : m'.Onward ∧ m'.linesLeft < m.linesLeft := by
  obtain ⟨haligned, hnext⟩ := next_le_pc_step h hf hs hh
  have hprogram : m'.program = m.program := by simpa only [hs] using m.program_step
  have hfree : m'.breakpoints = m.breakpoints := by simpa only [hs] using m.breakpoints_step
  refine ⟨⟨hprogram ▸ h.forward, haligned, hfree.trans h.free⟩, ?_⟩
  have hpos := h.aligned.1
  have hleft := mt (finished_iff_linesLeft hpos).2 (Bool.eq_false_iff.1 hf)
  unfold linesLeft at hleft ⊢
  rw [hprogram]
  omega

/-- A run that may step from every line that is left comes to the end of the program, or it halts,
and it takes no line twice. -/
theorem Onward.runLoop (h : m.Onward) (hleft : m.linesLeft ≤ left)
    (hok : ∀ q ∈ loopTrail left first m, ∃ r, q.step.1 = .ok r) :
    ∃ reason m', Machine.runLoop limit left first m = (.ok reason, m') ∧
      (reason = .finished ∨ reason = .halt) ∧
      (loopTrail left first m).length ≤ m.linesLeft := by
  induction left generalizing m first with
  | zero =>
    have hf := (finished_iff_linesLeft h.aligned.1).2 (Nat.le_zero.1 hleft)
    exact ⟨_, _, runLoop_of_finished hf limit 0 first, .inl rfl, Nat.zero_le _⟩
  | succ left ih =>
    cases hf : m.finished with
    | true =>
      refine ⟨_, _, runLoop_of_finished hf limit (left + 1) first, .inl rfl, ?_⟩
      simp [loopTrail, hf]
    | false =>
      have hpos := mt (finished_iff_linesLeft h.aligned.1).2 (Bool.eq_false_iff.1 hf)
      obtain ⟨r, hr⟩ := hok m (mem_loopTrail hf h.free left first)
      obtain ⟨m', hs⟩ : ∃ m', m.step = (.ok r, m') := ⟨_, Prod.ext hr rfl⟩
      have htrail := loopTrail_of_step hf h.free hs left first
      cases hh : m'.halted with
      | true =>
        rw [hh, if_pos rfl] at htrail
        refine ⟨.halt, m', (runLoop_succ_eq_ok hf h.free).2 ⟨r, m', hs, .inl ⟨hh, rfl, rfl⟩⟩,
          .inr rfl, ?_⟩
        rw [htrail, List.length_singleton]
        omega
      | false =>
        rw [hh, if_neg Bool.false_ne_true] at htrail
        obtain ⟨hnext, hlt⟩ := h.step hf hs hh
        obtain ⟨reason, m₁, hrun, hreason, hlength⟩ := ih hnext (by omega)
          fun q hq => hok q (htrail ▸ List.mem_cons_of_mem m hq)
        refine ⟨reason, m₁, (runLoop_succ_eq_ok hf h.free).2 ⟨r, m', hs, .inr ⟨hh, hrun⟩⟩,
          hreason, ?_⟩
        rw [htrail, List.length_cons]
        omega

/-- A program that goes forward ends within its length. From its first line, without breakpoints and
with a limit that no line is left out by, it finishes or halts, and so it does in a run with pauses.
Each line is taken once at most, whatever it holds, if no step escapes. -/
theorem forward_ends (limit : Option Int) (hp : m.program.ForwardOnly) (hpc : m.pc = 0)
    (hidle : m.running = false) (hb : m.breakpoints = [])
    (hlimit : (m.program.length : Int) ≤ limit.getD m.settings.maxSteps)
    (hok : ∀ q ∈ loopTrail (limit.getD m.settings.maxSteps).toNat true m,
      ∃ r, q.step.1 = .ok r) :
    ∃ reason, (reason = .finished ∨ reason = .halt) ∧
      (∃ m₁, m.runThrough limit = (.ok reason, m₁) ∧ m₁.steps ≤ m.steps + m.program.length) ∧
      ∃ sleeps m₂, m.runPaced (some 0) limit = (sleeps, .ok (.ended reason), m₂) ∧
        m₂.steps ≤ m.steps + m.program.length := by
  have honward : m.Onward := ⟨hp, hpc ▸ aligned_zero, hb⟩
  have hall : m.linesLeft = m.program.length := by simp [linesLeft, hpc]
  obtain ⟨reason, m₁, hrun, hreason, hlength⟩ := honward.runLoop (by omega) hok
  have hsteps := steps_of_runLoop hrun
  have hle : m₁.steps ≤ m.steps + m.program.length := by omega
  obtain ⟨sleeps, m₂, hpaced, hcore⟩ := runPaced_eq_ok (some 0) limit hb hidle rfl hrun
  have hsame : m₂.steps = m₁.steps := congr_core hcore steps fun _ => rfl
  exact ⟨reason, hreason, ⟨m₁, hrun, hle⟩, sleeps, m₂, hpaced, hsame ▸ hle⟩

theorem forward_ends_halt :
    ∃ m p m₁ sleeps m₂, create {} = .ok m ∧
      Program.load "jal x1, 8\nnop\nlw x2, 2(y)\n,\nbeq x0, x0, 0".toList = .ok p ∧
      p.ForwardOnly ∧ p.length = 5 ∧
      (m.install p).runThrough (some 5) = (.ok .halt, m₁) ∧ m₁.steps ≤ 5 ∧
      (m.install p).runPaced (some 0) (some 5) = (sleeps, .ok (.ended .halt), m₂) ∧
      m₂.steps ≤ 5 := by
  obtain ⟨m, hm⟩ : ∃ m, create {} = .ok m := ⟨_, rfl⟩
  obtain ⟨p, hload, hlength, hi⟩ : ∃ p,
      Program.load "jal x1, 8\nnop\nlw x2, 2(y)\n,\nbeq x0, x0, 0".toList = .ok p ∧ p.length = 5 ∧
      p.instructions = [⟨Opcode.jal.name, [some 1, some 8]⟩, ⟨Opcode.nopName, []⟩,
        ⟨Opcode.lw.name, [some 2, some 2, none]⟩, ⟨Opcode.beq.name, [some 0, some 0, some 0]⟩] :=
    ⟨_, rfl, rfl, rfl⟩
  have hforward : p.ForwardOnly := by
    rw [Program.forwardOnly_iff_of_load hload, hi]
    simp only [List.forall_mem_cons, List.not_mem_nil, false_implies, implies_true, and_true]
    refine ⟨⟨by decide, ?_⟩, ⟨by decide, ?_⟩, ⟨by decide, ?_⟩, by decide, ?_⟩ <;> intro v hv
    · cases hv
      exact .inl (by decide)
    · cases hv
    · cases hv
    · exact .inr ⟨[], rfl⟩
  have hhalt : ((m.install p).runThrough (some 5)).1 = .ok .halt := by
    cases hm
    cases hload
    rfl
  have hanswers : ((loopTrail 5 true (m.install p)).all fun q => q.step.1.toOption.isSome) := by
    cases hm
    cases hload
    rfl
  have hok : ∀ q ∈ loopTrail 5 true (m.install p), ∃ r, q.step.1 = .ok r := fun q hq => by
    obtain ⟨r, hr⟩ := Option.isSome_iff_exists.1 (List.all_eq_true.1 hanswers q hq)
    exact ⟨r, Outcome.toOption_eq_some.1 hr⟩
  obtain ⟨reason, -, ⟨m₁, hrun, hsteps⟩, sleeps, m₂, hpaced, hsteps'⟩ :=
    forward_ends (m := m.install p) (some 5) hforward rfl rfl (by cases hm; rfl)
      (Int.le_of_eq (congrArg Int.ofNat hlength)) hok
  rw [hrun] at hhalt
  cases hhalt
  have hfive : (m.install p).steps + (m.install p).program.length = 5 :=
    (Nat.zero_add _).trans hlength
  exact ⟨m, p, m₁, sleeps, m₂, hm, hload, hforward, hlength, hrun, hfive ▸ hsteps, hpaced,
    hfive ▸ hsteps'⟩

end Machine

end Datapath
