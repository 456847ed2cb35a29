import Datapath.Proofs.OperandKind

set_option autoImplicit false

namespace Datapath

/-- The faults that the instructions of a class have, whatever the values of their operands. -/
def ExecClass.faults : ExecClass → List String
  | .load | .store => ["MemoryOutOfBounds"]
  | .branch | .jump => ["InvalidBranchTarget"]
  | .register | .immediate | .upper => []

/-- A computation that meets no other faults than these. -/
inductive FaultsWithin {α : Type} (names : List String) : Except Abort α → Prop
  | ok (a : α) : FaultsWithin names (.ok a)
  | escape (e : Escape) : FaultsWithin names (.error (.escape e))
  | fault {f : Fault} : f.name ∈ names → FaultsWithin names (.error (.fault f))

namespace FaultsWithin

variable {α β : Type} {names : List String}

theorem bind {x : Except Abort α} (hx : FaultsWithin names x) {f : α → Except Abort β}
    (hf : ∀ a, FaultsWithin names (f a)) : FaultsWithin names (x >>= f) := by
  cases hx with
  | ok a => exact hf a
  | escape e => exact .escape e
  | fault h => exact .fault h

theorem of_limited (x : Except Decimal.LimitError α) : FaultsWithin names (Order.limited x) := by
  cases x with
  | ok a => exact .ok a
  | error e => exact .escape _

theorem of_exactly (o : Order) (part : Opcode → Option α) :
    FaultsWithin names (o.exactly part) := by
  unfold Order.exactly
  split
  · exact .ok _
  · exact .escape _

theorem of_index (m : DataMemory) (address : Int) : FaultsWithin ["MemoryOutOfBounds"]
    ((m.index address).mapError fun e => Abort.fault (.memoryOutOfBounds e)) := by
  cases m.index address with
  | ok i => exact .ok i
  | error e => exact .fault (by simp [Fault.name])

theorem of_target (o : Order) (target : Int) :
    FaultsWithin ["InvalidBranchTarget"] (o.alignedTarget target) := by
  unfold Order.alignedTarget
  split
  · exact .fault (by simp [Fault.name])
  · exact .ok ()

end FaultsWithin

namespace Order

open FaultsWithin Outcome

variable {o : Order} {r : Registers} {m : DataMemory} {pc : Int} {names : List String}
  (a b c : Fin 32) (v : Int)

theorem faults_register :
    FaultsWithin names (o.planRegister r pc (named a) (named b) (named c)) := by
  simp only [planRegister, register_named, ok_bind]
  exact (of_exactly o _).bind fun _ => .ok _

theorem faults_immediate :
    FaultsWithin names (o.planImmediate r pc (named a) (named b) (some v)) := by
  simp only [planImmediate, register_named, immediate, ok_bind]
  exact (of_exactly o _).bind fun _ => .ok _

theorem faults_load : FaultsWithin ["MemoryOutOfBounds"]
    (o.planLoad r m pc (named a) (some v) (named b)) := by
  simp only [planLoad, register_named, immediate, ok_bind]
  exact (of_index m _).bind fun _ => .ok _

theorem faults_store : FaultsWithin ["MemoryOutOfBounds"]
    (o.planStore r m pc (named a) (some v) (named b)) := by
  simp only [planStore, register_named, immediate, ok_bind]
  exact (of_index m _).bind fun _ => .ok _

theorem faults_branch : FaultsWithin ["InvalidBranchTarget"]
    (o.planBranch r pc (named a) (named b) (some v)) := by
  simp only [planBranch, register_named, immediate, ok_bind]
  refine (of_exactly o _).bind fun _ => (of_limited _).bind fun _ => ?_
  split
  · exact .ok _
  · split
    · exact (of_target o _).bind fun _ => .ok _
    · exact .ok _

theorem faults_upper : FaultsWithin names (o.planUpper pc (named a) (some v)) := by
  simp only [planUpper, register_named, immediate, ok_bind]
  exact .ok _

theorem faults_link (address : Int) (text : String) :
    FaultsWithin ["InvalidBranchTarget"] (o.planLink pc a v address text) :=
  (of_target o address).bind fun _ => .ok _

/-- Only a jump to an offset does without a third operand. -/
theorem faults_jump {rest : List (Option Int)}
    (h : (o.exact ∧ o.opcode = .jal) ∨ rest.head?.getD none = named b) :
    FaultsWithin ["InvalidBranchTarget"] (o.planJump r pc (named a) (some v) rest) := by
  simp only [planJump, register_named, immediate, ok_bind]
  split
  · exact (of_limited _).bind fun _ => faults_link a v _ _
  · next hjal =>
    rw [h.resolve_left hjal, register_named, ok_bind]
    exact (of_limited _).bind fun _ => faults_link a v _ _

end Order

namespace Instruction

variable {i : Instruction} {op : Opcode} {f : Fields} {kind : ExecClass} {r : Registers}
  {m : DataMemory} {pc : Int}

theorem faults_canonical (hf : f.Bounded) (hk : op.kind = some kind) :
    FaultsWithin kind.faults ((canonical op f).plan r m pc) := by
  have hlen : ¬ (orderFor op kind (f.values op.format)).operands.length
      < op.format.roles.length := by
    simp [orderFor, Fields.length_values]
  unfold plan canonical
  simp only [order?_named, hk, Option.map_some, Order.plan, needed_orderFor, if_neg hlen]
  unfold Fields.values
  rw [Opcode.roles_of_kind hk]
  -- The values of the register roles are the numbers of registers.
  let rd : Fin 32 := ⟨f.rd, hf.rd⟩
  let rs1 : Fin 32 := ⟨f.rs1, hf.rs1⟩
  let rs2 : Fin 32 := ⟨f.rs2, hf.rs2⟩
  by_cases hjal : op = .jal
  · subst hjal
    cases hk
    exact Order.faults_jump rd rs1 f.imm (.inl ⟨exact_orderFor _ _ _, rfl⟩)
  · rw [if_neg hjal]
    cases kind with
    | register => exact Order.faults_register rd rs1 rs2
    | immediate => exact Order.faults_immediate rd rs1 f.imm
    | load => exact Order.faults_load rd rs1 f.imm
    | store => exact Order.faults_store rs2 rs1 f.imm
    | branch => exact Order.faults_branch rs1 rs2 f.imm
    | upper => exact Order.faults_upper rd f.imm
    | jump => exact Order.faults_jump rd rs1 f.imm (.inr rfl)

end Instruction

/-- A step on a line that has a word finds the line's instruction. One that is outside the datapath
is unsupported, and any other has at most the faults of its class, whatever the size of its
immediate and the operands that follow those of its format. -/
theorem Machine.fault_of_encoded {source : Text} {m : Machine}
    (hp : Program.load source = .ok m.program) {line : Slot} (hf : m.fetch = some line)
    {bits : Text} (hb : Encoding.encode line.raw = .ok bits) {r : StepReport}
    (hr : m.step.1 = .ok r) :
    ∃ i, line.parsed = some i ∧ (i.kind = none → r.fault = some "UnsupportedOpcode") ∧
      ∀ kind, i.kind = some kind → ∀ name, r.fault = some name → name ∈ kind.faults := by
  obtain ⟨hplain, hparse⟩ := Program.parsed_of_mem hp (mem_of_fetch hf)
  obtain ⟨n, hn, -⟩ := Outcome.map_eq_ok.1 hb
  obtain ⟨i, op, f, hi, hd, -⟩ := Instruction.denotes_of_word hplain hn hparse
  refine ⟨i, hi, fun hk => ?_, fun kind hk name hname => ?_⟩
  · have hnone : i.plan m.registers m.memory m.pc = _ := Instruction.plan_of_kind_none hk
    rcases plan_of_answer hr hf hi with ⟨g, hplan, hfault⟩ | ⟨p, hplan, -⟩
    · cases hplan.symm.trans hnone
      exact hfault
    · cases hplan.symm.trans hnone
  · have hwithin : FaultsWithin kind.faults (i.plan m.registers m.memory m.pc) := by
      rw [hd.plan_eq]
      exact Instruction.faults_canonical hd.bounded (hd.kind_eq ▸ hk)
    rcases plan_of_answer hr hf hi with ⟨g, hplan, hfault⟩ | ⟨p, -, hfault⟩
    · cases hname.symm.trans hfault
      rw [hplan] at hwithin
      cases hwithin with
      | fault hmem => exact hmem
    · cases hname.symm.trans hfault

theorem Machine.fault_of_encoded_jump :
    ∃ m, create {} = .ok m ∧ ∃ line i r,
      let loaded := (m.load "JAL x1, 99999999999998, x77".toList).2
      loaded.fetch = some line ∧ line.parsed = some i ∧ loaded.step.1 = .ok r ∧
        r.fault = some "InvalidBranchTarget" ∧
        ∀ name, r.fault = some name → name ∈ ExecClass.jump.faults := by
  obtain ⟨m, hm⟩ : ∃ m, create {} = .ok m := ⟨_, rfl⟩
  obtain ⟨line, r, bits, hp, hf, hb, hkind, hr, hfault⟩ : ∃ line r bits,
      let loaded := (m.load "JAL x1, 99999999999998, x77".toList).2
      Program.load "JAL x1, 99999999999998, x77".toList = .ok loaded.program ∧
        loaded.fetch = some line ∧ Encoding.encode line.raw = .ok bits ∧
        line.parsed.bind Instruction.kind = some .jump ∧ loaded.step.1 = .ok r ∧
        r.fault = some "InvalidBranchTarget" := by
    cases hm
    exact ⟨_, _, _, rfl, rfl, rfl, rfl, rfl, rfl⟩
  obtain ⟨i, hi, -, hfaults⟩ := fault_of_encoded hp hf hb hr
  rw [hi, Option.bind_some] at hkind
  exact ⟨m, hm, line, i, r, hf, hi, hr, hfault, hfaults .jump hkind⟩

end Datapath
