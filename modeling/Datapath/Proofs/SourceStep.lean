import Datapath.Proofs.ExportedProgram
import Datapath.Proofs.Phase

set_option autoImplicit false

namespace Datapath

namespace Opcode

theorem isLower_name (op : Opcode) : ∀ c ∈ op.name, c.isLower = true := by
  rw [← List.all_eq_true]
  cases op <;> rfl

theorem isLower_nopName : ∀ c ∈ nopName, c.isLower = true := by
  rw [← List.all_eq_true]
  rfl

theorem lowercase_eq_of_lookup? {t : Text} {op : Opcode}
    (h : lookup? (Text.lowercase t) = some op) :
    Text.lowercase t = nopName ∨ Text.lowercase t = op.name := by
  by_cases hn : Text.lowercase (Text.lowercase t) = nopName
  · left
    rw [← Text.lowercase_lowercase_of_isLower (hn ▸ isLower_nopName), hn]
  · right
    have ho := lowercase_of_lookup? h hn
    rw [← Text.lowercase_lowercase_of_isLower (ho ▸ op.isLower_name), ho]

theorem exists_operation {op : Opcode} (h : op.kind = some .register ∨ op.kind = some .immediate) :
    ∃ x, op.operation? = some x := by
  cases op <;> first | exact ⟨_, rfl⟩ | simp [kind, spec] at h

theorem exists_comparison {op : Opcode} (h : op.kind = some .branch) :
    ∃ x, op.comparison? = some x := by
  cases op <;> first | exact ⟨_, rfl⟩ | simp [kind, spec] at h

end Opcode

/-- An order under the exact name of its opcode, with the class of the table. -/
structure Order.Named (o : Order) : Prop where
  exact : o.exact = true
  kind : o.opcode.kind = some o.kind

namespace Instruction

theorem exists_lowercase {line : Text} {i : Instruction} (h : parse? line = .ok (some i)) :
    ∃ t, i.mnemonic = Text.lowercase t := by
  unfold parse? at h
  split at h
  · cases h
  · next mnemonic _ _ =>
    obtain ⟨values, -, h⟩ := Outcome.map_eq_ok.1 h
    cases h
    exact ⟨mnemonic, rfl⟩

theorem named_of_order? {i : Instruction} {o : Order} {t : Text}
    (ht : i.mnemonic = Text.lowercase t) (h : i.order? = some o) : o.Named := by
  obtain ⟨hop, hkind, ⟨-, ho⟩ | ⟨hnop, hmnemonic, -⟩⟩ := order?_cases h
  · rw [ho]
    exact ⟨exact_orderFor _ _ _, hkind⟩
  · rw [ht] at hop hnop
    refine ⟨decide_eq_true ?_, hkind⟩
    exact (hmnemonic.trans ht).trans ((Opcode.lowercase_eq_of_lookup? hop).resolve_left hnop)

end Instruction

theorem Program.exists_lowercase {source : Text} {p : Program} (h : load source = .ok p) {l : Slot}
    (hl : l ∈ p.lines) {i : Instruction} (hi : l.parsed = some i) :
    ∃ t, i.mnemonic = Text.lowercase t := by
  obtain ⟨lines, -, hf⟩ := exists_numberedLines h
  obtain ⟨line, -, -, hline⟩ := Outcome.exists_of_mem_forall₂ hf hl
  exact Instruction.exists_lowercase (hi ▸ hline)

/-- A computation that gives what it should, or a fault, or meets the limit of numerals. -/
inductive Contained {α : Type} (P : α → Prop) : Except Abort α → Prop
  | ok {a : α} : P a → Contained P (.ok a)
  | fault (f : Fault) : Contained P (.error (.fault f))
  | limit : Contained P (.error (.escape (.limit .writing)))

namespace Contained

variable {α β : Type} {P : α → Prop} {Q : β → Prop}

theorem bind {x : Except Abort α} (hx : Contained P x) {f : α → Except Abort β}
    (hf : ∀ a, P a → Contained Q (f a)) : Contained Q (x >>= f) := by
  cases hx with
  | ok ha => exact hf _ ha
  | fault f => exact .fault f
  | limit => exact .limit

end Contained

/-- Texts are not written where a numeral is too long, and for no other reason. -/
def Writable (x : Except Decimal.LimitError String) : Prop := ∀ e, x = .error e → e = .writing

namespace Writable

theorem ok (t : String) : Writable (.ok t) := fun _ h => nomatch h

theorem write (n : Int) : Writable (Decimal.write n) := by
  intro e h
  unfold Decimal.write at h
  split at h
  · cases h
  · cases h
    rfl

theorem bind {x : Except Decimal.LimitError String} (hx : Writable x)
    {f : String → Except Decimal.LimitError String} (hf : ∀ t, Writable (f t)) :
    Writable (x >>= f) := by
  cases x with
  | ok t => exact hf t
  | error e =>
    intro e' h
    cases h
    exact hx e rfl

theorem map {x : Except Decimal.LimitError String} (hx : Writable x) (f : String → String) :
    Writable (f <$> x) := by
  cases x with
  | ok t => exact ok (f t)
  | error e =>
    intro e' h
    cases h
    exact hx e rfl

theorem register (e : RegisterError) : Writable e.message := by
  obtain ⟨_ | i⟩ := e
  · exact ok _
  · exact (write i).map _

theorem memory (e : MemoryError) : Writable e.message := by
  cases e with
  | outOfRange address size => exact (write address).bind fun _ => (write _).bind fun _ => ok _
  | preloadPastEnd index => exact (write index).bind fun _ => ok _

theorem fault (f : Fault) : Writable f.message := by
  cases f with
  | invalidRegister e => exact register e
  | memoryOutOfBounds e => exact memory e
  | invalidTarget _ target => exact (write target).bind fun _ => ok _
  | _ => exact ok _

end Writable

namespace Order

open Contained

variable {o : Order} {r : Registers} {m : DataMemory} {pc : Int} {a b c : Option Int}

abbrev Planned (x : Except Abort Plan) : Prop := Contained (fun p => Writable p.message) x

theorem contained_register (a : Option Int) : Contained (fun _ => True) (register a) := by
  unfold register
  cases Registers.check a with
  | ok rd => exact .ok trivial
  | error e => exact .fault _

theorem contained_immediate (o : Order) (a : Option Int) :
    Contained (fun _ => True) (o.immediate a) := by
  cases a with
  | some v => exact .ok trivial
  | none => exact .fault _

theorem contained_index (m : DataMemory) (address : Int) : Contained (fun _ => True)
    ((m.index address).mapError fun e => Abort.fault (.memoryOutOfBounds e)) := by
  cases m.index address with
  | ok i => exact .ok trivial
  | error e => exact .fault _

theorem contained_target (o : Order) (target : Int) :
    Contained (fun _ => True) (o.alignedTarget target) := by
  unfold alignedTarget
  split
  · exact .fault _
  · exact .ok trivial

theorem contained_write (n : Int) : Contained (fun _ => True) (limited (Decimal.write n)) := by
  unfold limited
  cases h : Decimal.write n with
  | ok t => exact .ok trivial
  | error e =>
    obtain rfl := Writable.write n e h
    exact .limit

theorem contained_exactly {α : Type} {part : Opcode → Option α} (h : o.exact = true)
    (hx : ∃ x, part o.opcode = some x) : Contained (fun _ => True) (o.exactly part) := by
  obtain ⟨x, hx⟩ := hx
  unfold exactly
  rw [h, hx]
  exact .ok trivial

theorem planned_register (h : o.exact = true) (hx : ∃ x, o.opcode.operation? = some x) :
    Planned (o.planRegister r pc a b c) :=
  (contained_register a).bind fun _ _ => (contained_register b).bind fun _ _ =>
    (contained_register c).bind fun _ _ => (contained_exactly h hx).bind fun _ _ =>
      .ok (.ok _)

theorem planned_immediate (h : o.exact = true) (hx : ∃ x, o.opcode.operation? = some x) :
    Planned (o.planImmediate r pc a b c) :=
  (contained_register a).bind fun _ _ => (contained_register b).bind fun _ _ =>
    (contained_immediate o c).bind fun imm _ => (contained_exactly h hx).bind fun _ _ =>
      .ok ((Writable.write imm).map _)

theorem planned_load : Planned (o.planLoad r m pc a b c) :=
  (contained_register a).bind fun _ _ => (contained_immediate o b).bind fun offset _ =>
    (contained_register c).bind fun _ _ => (contained_index m _).bind fun _ _ =>
      .ok ((Writable.write offset).map _)

theorem planned_store : Planned (o.planStore r m pc a b c) :=
  (contained_register a).bind fun _ _ => (contained_immediate o b).bind fun offset _ =>
    (contained_register c).bind fun _ _ => (contained_index m _).bind fun _ _ =>
      .ok ((Writable.write offset).map _)

theorem planned_branch (h : o.exact = true) (hx : ∃ x, o.opcode.comparison? = some x) :
    Planned (o.planBranch r pc a b c) := by
  refine (contained_register a).bind fun _ _ => (contained_register b).bind fun _ _ =>
    (contained_immediate o c).bind fun _ _ => (contained_exactly h hx).bind fun _ _ =>
      (contained_write _).bind fun _ _ => ?_
  dsimp only
  split
  · exact .ok (.ok _)
  · split
    · exact (contained_target o _).bind fun _ _ => .ok ((Writable.write _).map _)
    · exact .ok ((Writable.write _).map _)

theorem planned_upper : Planned (o.planUpper pc a b) :=
  (contained_register a).bind fun _ _ => (contained_immediate o b).bind fun imm _ =>
    .ok ((Writable.write imm).map _)

theorem planned_link (rd : Fin 32) (offset target : Int) (text : String) :
    Planned (o.planLink pc rd offset target text) :=
  (contained_target o target).bind fun _ _ =>
    .ok ((Writable.write _).bind fun _ => (Writable.write _).bind fun _ => .ok _)

theorem planned_jump {rest : List (Option Int)} : Planned (o.planJump r pc a b rest) := by
  refine (contained_register a).bind fun _ _ => (contained_immediate o b).bind fun _ _ => ?_
  split
  · exact (contained_write _).bind fun _ _ => planned_link _ _ _ _
  · exact (contained_register _).bind fun _ _ => (contained_write _).bind fun _ _ =>
      planned_link _ _ _ _

theorem Named.planned (h : o.Named) : Planned (o.plan r m pc) := by
  have hk := h.kind
  unfold plan
  dsimp only
  split
  · exact .fault _
  · split
    · next hkind _ =>
      exact planned_register h.exact (Opcode.exists_operation (.inl (hkind ▸ hk)))
    · next hkind _ =>
      exact planned_immediate h.exact (Opcode.exists_operation (.inr (hkind ▸ hk)))
    · exact planned_load
    · exact planned_store
    · next hkind _ =>
      exact planned_branch h.exact (Opcode.exists_comparison (hkind ▸ hk))
    · exact planned_upper
    · exact planned_jump
    · exact .fault _

theorem two_le_needed (o : Order) : 2 ≤ o.needed := by
  unfold needed
  split <;> decide

theorem planJump_eq (h : o.exact = true) (ho : o.opcode = .jal) (rest rest' : List (Option Int)) :
    o.planJump r pc a b rest = o.planJump r pc a b rest' := by
  unfold planJump
  simp only [h, ho, and_self, ↓reduceIte]

theorem Named.plan_append (h : o.Named) (hn : o.needed ≤ o.operands.length)
    (more : List (Option Int)) :
    { o with operands := o.operands ++ more }.plan r m pc = o.plan r m pc := by
  obtain ⟨op, kind, mnemonic, operands⟩ := o
  obtain ⟨hx, hk⟩ := h
  have htwo := hn.trans' (two_le_needed _)
  have hmore : ∀ n ≤ operands.length, ¬ (operands ++ more).length < n := fun n hn => by
    rw [List.length_append]
    omega
  refine (if_neg (hmore _ hn)).trans (Eq.trans ?_ (if_neg (Nat.not_lt.2 hn)).symm)
  match operands, htwo with
  | _ :: _ :: _ :: _, _ => cases kind <;> rfl
  | [_, _], _ =>
    have hop : op = .lui ∨ op = .auipc ∨ op = .jal := by
      unfold needed at hn
      split at hn
      · next hop => simpa using hop.2
      · simp at hn
    rcases hop with rfl | rfl | rfl <;> cases hk
    · rfl
    · rfl
    · exact planJump_eq (o := ⟨.jal, .jump, mnemonic, _⟩) hx rfl more []

end Order

theorem Machine.mem_of_fetch {m : Machine} {line : Slot} (h : m.fetch = some line) :
    line ∈ m.program.lines := by
  obtain ⟨k, hk, -⟩ := Program.getElem?_of_at? h
  exact List.mem_of_getElem? hk

namespace Session

/-- A step of a program that was read from a source gives a report, or it meets an integer that is
too long to be written. Before the end of the program there is a line to take, and no instruction
with enough operands looks for more of them. -/
theorem step_of_source {s : Session} (hs : s.Reachable) {source : Text}
    (hp : Program.load source = .ok s.machine.program) :
    ((∃ r, s.machine.step.1 = .ok r) ∨ s.machine.step.1 = .error (.limit .writing)) ∧
      (s.machine.finished = false → ∃ line, s.machine.fetch = some line) ∧
      ∀ line i o, s.machine.fetch = some line → line.parsed = some i → i.order? = some o →
        o.needed ≤ o.operands.length → ∀ more,
          { o with operands := o.operands ++ more }.plan s.machine.registers s.machine.memory
            s.machine.pc = o.plan s.machine.registers s.machine.memory s.machine.pc := by
  have hnamed : ∀ line i o, s.machine.fetch = some line → line.parsed = some i →
      i.order? = some o → o.Named := by
    intro line i o hf hi ho
    obtain ⟨t, ht⟩ := Program.exists_lowercase hp (Machine.mem_of_fetch hf) hi
    exact Instruction.named_of_order? ht ho
  have hplan : ∀ line i, s.machine.fetch = some line → line.parsed = some i →
      Order.Planned (i.plan s.machine.registers s.machine.memory s.machine.pc) := by
    intro line i hf hi
    unfold Instruction.plan
    split
    · exact .fault _
    · next o ho => exact (hnamed line i o hf hi ho).planned
  refine ⟨?_, ?_, fun line i o hf hi ho hn more => (hnamed line i o hf hi ho).plan_append hn more⟩
  · have hcase := s.machine.stepCase_step
    generalize s.machine.step = x at hcase ⊢
    cases hcase with
    | past | blank | fault | halt | proceed => exact .inl ⟨_, rfl⟩
    | lost hf hnone =>
      cases hf.symm.trans ((Machine.fetch_eq_none_iff hs.orderly.aligned.1).1 hnone)
    | unplanned hf hi he =>
      have hc := he ▸ hplan _ _ hf hi
      cases hc with
      | limit => exact .inr rfl
    | unnamed hf hi _ ht =>
      rw [Writable.fault _ _ ht]
      exact .inr rfl
    | untold hf hi hok ht =>
      have hc := hok ▸ hplan _ _ hf hi
      cases hc with
      | ok hw =>
        rw [hw _ ht]
        exact .inr rfl
  · intro hfin
    rw [← Option.isSome_iff_exists, ← Option.ne_none_iff_isSome, Ne,
      Machine.fetch_eq_none_iff hs.orderly.aligned.1, hfin]
    exact Bool.false_ne_true

theorem step_of_source_capital :
    ∃ m, Machine.create {} = .ok m ∧
      let s := ((ofMachine m).perform (.load "ADDI x1, x0, y".toList)).2
      (∃ r, s.machine.step.1 = .ok r) ∨ s.machine.step.1 = .error (.limit .writing) := by
  obtain ⟨m, hm⟩ : ∃ m, Machine.create {} = .ok m := ⟨_, rfl⟩
  let c : Command := .load "ADDI x1, x0, y".toList
  have hs : ((ofMachine m).perform c).2.Reachable := (Reachable.start hm).perform c
  have hp : Program.load "ADDI x1, x0, y".toList
      = .ok ((ofMachine m).perform c).2.machine.program := by
    cases hm
    rfl
  exact ⟨m, hm, (step_of_source hs hp).1⟩

end Session

end Datapath
