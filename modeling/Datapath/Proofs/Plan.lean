import Datapath.Proofs.Denotation
import Datapath.Proofs.PlanCase

set_option autoImplicit false

namespace Datapath

namespace Opcode

theorem kind_of_upper {op : Opcode} (h : op.format = .upper) : op.kind = some .upper := by
  cases op <;> first | rfl | cases h

theorem eq_jal_of_jump {op : Opcode} (h : op.format = .jump) : op = .jal := by
  cases op <;> first | rfl | cases h

end Opcode

namespace Order

variable {o : Order} {r : Registers} {m n : DataMemory} {pc : Int}

theorem plan_congr (h : m.words = n.words) : o.plan r m pc = o.plan r n pc := by
  obtain ⟨words, _, _⟩ := m
  obtain ⟨_, _, _⟩ := n
  cases h
  rfl

end Order

namespace Instruction

variable {op : Opcode} {f : Fields} {i : Instruction} {r : Registers} {m n : DataMemory} {pc : Int}

/-- The instruction that the decoder gives for an opcode and its fields. -/
def canonical (op : Opcode) (f : Fields) : Instruction := ⟨op.name, f.values op.format⟩

def orderFor (op : Opcode) (kind : ExecClass) (operands : List (Option Int)) : Order :=
  ⟨op, kind, op.name, operands⟩

theorem order?_named (op : Opcode) (operands : List (Option Int)) :
    order? ⟨op.name, operands⟩ = op.kind.map (orderFor op · operands) := by
  simp only [order?, Opcode.lookup?_name, Opcode.name_ne_nopName, ↓reduceIte]
  rfl

theorem order?_idle (operands : List (Option Int)) :
    order? ⟨Opcode.nopName, operands⟩
      = some (orderFor .addi .immediate [some 0, some 0, some 0]) := by
  simp only [order?, Opcode.lookup?_nopName]
  rfl

/-- An order has the opcode and the class of its mnemonic. The one for doing nothing brings its own
operands. -/
theorem order?_cases {o : Order} (h : i.order? = some o) :
    Opcode.lookup? i.mnemonic = some o.opcode ∧ o.opcode.kind = some o.kind ∧
      (i.mnemonic = Opcode.nopName ∧
          o = orderFor o.opcode o.kind [some 0, some 0, some 0] ∨
        i.mnemonic ≠ Opcode.nopName ∧ o.mnemonic = i.mnemonic ∧ o.operands = i.operands) := by
  unfold order? at h
  split at h
  · cases h
  · next op hop =>
    obtain ⟨kind, hkind, h⟩ := Option.map_eq_some_iff.1 h
    split at h <;> cases h
    · next hn => exact ⟨hop, hkind, .inl ⟨hn, rfl⟩⟩
    · next hn => exact ⟨hop, hkind, .inr ⟨hn, rfl, rfl⟩⟩

theorem order?_eq_some {o : Order} (h : i.order? = some o) (hn : i.mnemonic ≠ Opcode.nopName) :
    o.mnemonic = i.mnemonic ∧ o.operands = i.operands :=
  ((order?_cases h).2.2.resolve_left fun hnop => hn hnop.1).2

theorem kind_of_order? {o : Order} (h : i.order? = some o) : i.kind = some o.kind := by
  obtain ⟨hop, hkind, -⟩ := order?_cases h
  rw [kind, hop, Option.bind_some, hkind]

theorem order?_of_lookup? {kind : ExecClass} (h : Opcode.lookup? i.mnemonic = some op)
    (hk : op.kind = some kind) (hn : i.mnemonic ≠ Opcode.nopName) :
    i.order? = some ⟨op, kind, i.mnemonic, i.operands⟩ := by
  simp only [order?, h, if_neg hn, hk, Option.map_some]

theorem exact_orderFor (op : Opcode) (kind : ExecClass) (operands : List (Option Int)) :
    (orderFor op kind operands).exact = true := decide_eq_true rfl

theorem needed_orderFor (op : Opcode) (kind : ExecClass) (operands : List (Option Int)) :
    (orderFor op kind operands).needed = op.format.roles.length := by
  simp [Order.needed, Order.exact, orderFor, Opcode.length_roles]

theorem plan_append (op : Opcode) (f : Fields) (more : List (Option Int)) :
    plan ⟨op.name, f.values op.format ++ more⟩ r m pc = (canonical op f).plan r m pc := by
  have hlen : ¬ (f.values op.format ++ more).length < op.format.roles.length := by
    simp [Fields.length_values]
  have hlen' : ¬ (f.values op.format).length < op.format.roles.length := by
    simp [Fields.length_values]
  unfold plan canonical
  rw [order?_named, order?_named]
  cases hk : op.kind with
  | none => rfl
  | some kind =>
    simp only [Option.map_some, Order.plan, needed_orderFor]
    refine (if_neg hlen).trans (Eq.trans ?_ (if_neg hlen').symm)
    -- The plans of the formats with two operands are given what comes after, but do not read it.
    unfold Fields.values
    cases hf : op.format with
    | upper =>
      rw [Opcode.kind_of_upper hf] at hk
      cases hk
      rfl
    | jump =>
      obtain rfl := Opcode.eq_jal_of_jump hf
      cases hk
      rfl
    | _ => cases kind <;> rfl

theorem Denotes.plan_eq (h : i.Denotes op f) : i.plan r m pc = (canonical op f).plan r m pc := by
  cases h with
  | named op f more => exact plan_append op f more
  | idle operands =>
    rw [plan, plan, order?_idle, canonical, order?_named]
    rfl

theorem Denotes.kind_eq (h : i.Denotes op f) : i.kind = op.kind := by
  cases h with
  | named op f more => rw [Instruction.kind, Opcode.lookup?_name, Option.bind_some]
  | idle operands => rw [Instruction.kind, Opcode.lookup?_nopName, Option.bind_some]

theorem plan_of_kind_none (h : i.kind = none) :
    i.plan r m pc = .error (.fault (.unsupportedOpcode i.mnemonic)) := by
  cases ho : i.order? with
  | none => rw [plan, ho]
  | some o =>
    rw [kind_of_order? ho] at h
    cases h

theorem plan_congr (h : m.words = n.words) : i.plan r m pc = i.plan r n pc := by
  unfold plan
  cases i.order? with
  | none => rfl
  | some o => exact Order.plan_congr h

end Instruction

/-- The opcode whose plan an instruction gets if its name is not written in small letters. -/
def Opcode.standIn : Opcode → Opcode
  | .lui => .auipc
  | .jal => .jalr
  | op => op

/-- A plan without the words of its text. -/
def Plan.hushed (p : Plan) : Plan := { p with message := (fun _ => "") <$> p.message }

namespace Order

variable {o o' : Order} {r : Registers} {m : DataMemory} {pc : Int} {a b c : Option Int}
  {rest : List (Option Int)}

theorem toOption_immediate (o : Order) (x : Option Int) : (o.immediate x).toOption = x := by
  cases x <;> rfl

theorem toOption_alignedTarget (o o' : Order) (target : Int) :
    (o.alignedTarget target).toOption = (o'.alignedTarget target).toOption := by
  unfold alignedTarget
  split <;> rfl

theorem exactly_of_not_exact {α : Type} (h : o.exact = false) (part : Opcode → Option α) :
    o.exactly part = .error (.escape (.noOperation o.mnemonic)) := by
  rw [exactly, h]

theorem toOption_planLoad (o o' : Order) :
    (o.planLoad r m pc a b c).toOption = (o'.planLoad r m pc a b c).toOption := by
  simp only [planLoad, Outcome.toOption_bind, toOption_immediate]

theorem toOption_planStore (o o' : Order) :
    (o.planStore r m pc a b c).toOption = (o'.planStore r m pc a b c).toOption := by
  simp only [planStore, Outcome.toOption_bind, toOption_immediate]

theorem toOption_planLink (o o' : Order) {rd : Fin 32} {offset target : Int} {text : String} :
    (o.planLink pc rd offset target text).toOption
      = (o'.planLink pc rd offset target text).toOption := by
  simp only [planLink, Outcome.toOption_bind, toOption_alignedTarget o o']

theorem toOption_planJump (h : ¬ (o.exact ∧ o.opcode = .jal))
    (h' : ¬ (o'.exact ∧ o'.opcode = .jal)) :
    (o.planJump r pc a b rest).toOption = (o'.planJump r pc a b rest).toOption := by
  simp only [planJump, if_neg h, if_neg h', Outcome.toOption_bind, toOption_immediate,
    toOption_planLink o o']

theorem toOption_planUpper (h : (o.exact && o.opcode = .lui : Bool) = false)
    (h' : (o'.exact && o'.opcode = .lui : Bool) = false) :
    (o.planUpper pc a b).toOption.map Plan.hushed
      = (o'.planUpper pc a b).toOption.map Plan.hushed := by
  unfold planUpper
  cases register a with
  | error e => rfl
  | ok rd =>
    cases b with
    | none => rfl
    | some imm =>
      have hmap (f g : String → String) : (fun _ => "") <$> f <$> Decimal.write imm
          = (fun _ => "") <$> g <$> Decimal.write imm := by
        cases Decimal.write imm <;> rfl
      simp only [h, h', Order.immediate, Outcome.ok_bind, pure, Except.pure, Except.toOption,
        Option.map_some, Plan.hushed]
      rw [hmap]

theorem needed_of_not_exact (h : o.exact = false) : o.needed = 3 := by
  simp [needed, h]

/-- The classes whose instructions look up what they do under their names as they are written. -/
def LooksUp (kind : ExecClass) : Prop := kind = .register ∨ kind = .immediate ∨ kind = .branch

theorem exact_of_plan (hk : LooksUp o.kind) {p : Plan} (h : o.plan r m pc = .ok p) :
    o.exact = true := by
  have hcase := planCase_plan h
  generalize o.operands = operands at hcase
  cases hcase with
  | register _ hx | immediate _ hx => exact exact_of_exactly hx
  | branch _ _ _ _ hx | halt _ _ _ _ _ hx => exact hx
  | load h' | store h' | upper h' | jump h' => simp [LooksUp, h'] at hk

theorem plan_of_not_exact (hk : LooksUp o.kind) {p : Plan} (h : o.plan r m pc = .ok p)
    (hx : o'.exact = false) (hkind : o'.kind = o.kind) (hops : o'.operands = o.operands) :
    o'.plan r m pc = .error (.escape (.noOperation o'.mnemonic)) := by
  have hneeded := needed_of_not_exact hx
  have hcase := planCase_plan h
  unfold plan
  simp only [hneeded, hkind, hops]
  generalize o.operands = operands at hcase
  cases hcase with
  | register h' | immediate h' | branch h' | halt h' =>
    refine (if_neg (by simp)).trans ?_
    simp only [h', planRegister, planImmediate, planBranch, register_named, immediate,
      Outcome.ok_bind, exactly_of_not_exact hx]
    rfl
  | load h' | store h' | upper h' | jump h' => simp [LooksUp, h'] at hk

theorem toOption_plan_of_not_exact (hk : ¬ LooksUp o.kind) (hx : o.exact = false)
    (hlen : 3 ≤ o.operands.length) (hkind : o'.kind = o.kind) (hops : o'.operands = o.operands)
    (hlui : o'.opcode ≠ .lui) (hjal : o'.opcode ≠ .jal) :
    (o.plan r m pc).toOption.map Plan.hushed = (o'.plan r m pc).toOption.map Plan.hushed := by
  have hneeded := needed_of_not_exact hx
  have hneeded' : o'.needed ≤ 3 := by
    unfold needed
    split <;> decide
  unfold plan
  simp only [hneeded, hkind, hops]
  rw [if_neg (by omega), if_neg (by omega)]
  match o.operands, hlen with
  | a :: b :: c :: rest, _ =>
    cases hc : o.kind with
    | register | immediate | branch => simp [LooksUp, hc] at hk
    | load => exact congrArg _ (toOption_planLoad o o')
    | store => exact congrArg _ (toOption_planStore o o')
    | upper => exact toOption_planUpper (by simp [hx]) (by simp [hlui])
    | jump => exact congrArg _ (toOption_planJump (by simp [hx]) (by simp [hjal]))

end Order

namespace Opcode

theorem kind_standIn (op : Opcode) : op.standIn.kind = op.kind := by cases op <;> rfl

theorem standIn_ne (op : Opcode) : op.standIn ≠ .lui ∧ op.standIn ≠ .jal := by
  cases op <;> decide

end Opcode

namespace Instruction

variable {i : Instruction} {op : Opcode} {r : Registers} {m : DataMemory} {pc : Int}

/-- An instruction whose name is not in small letters needs three operands. Loads and stores are
planned as ever, `lui` as `auipc` and `jal` as `jalr`, and the others have no operation. -/
theorem plan_of_capitals (h : Opcode.lookup? i.mnemonic = some op)
    (hn : i.mnemonic ≠ Opcode.nopName) (hne : i.mnemonic ≠ op.name) {kind : ExecClass}
    (hk : op.kind = some kind) :
    (i.operands.length < 3 → i.plan r m pc
        = .error (.fault (.insufficientOperands i.mnemonic 3 i.operands.length))) ∧
    (Order.LooksUp kind → (i.plan r m pc).toOption = none ∧
      ∀ p, plan ⟨op.name, i.operands⟩ r m pc = .ok p →
        i.plan r m pc = .error (.escape (.noOperation i.mnemonic))) ∧
    (¬ Order.LooksUp kind → 3 ≤ i.operands.length →
      (i.plan r m pc).toOption.map Plan.hushed
        = (plan ⟨op.standIn.name, i.operands⟩ r m pc).toOption.map Plan.hushed) := by
  have ho := order?_of_lookup? h hk hn
  have hx : Order.exact ⟨op, kind, i.mnemonic, i.operands⟩ = false := decide_eq_false hne
  have hplan : i.plan r m pc = Order.plan ⟨op, kind, i.mnemonic, i.operands⟩ r m pc := by
    rw [plan, ho]
  have hneeded := Order.needed_of_not_exact hx
  rw [hplan]
  refine ⟨fun hlen => ?_, fun hl => ⟨?_, fun p hp => ?_⟩, fun hl hlen => ?_⟩
  · unfold Order.plan
    simp only [hneeded]
    exact if_pos hlen
  · cases hp : Order.plan ⟨op, kind, i.mnemonic, i.operands⟩ r m pc with
    | error => rfl
    | ok p => exact absurd ((Order.exact_of_plan hl hp).symm.trans hx) (by decide)
  · rw [plan, order?_named, hk] at hp
    exact Order.plan_of_not_exact hl hp hx rfl rfl
  · obtain ⟨hlui, hjal⟩ := op.standIn_ne
    rw [plan, order?_named, op.kind_standIn, hk]
    exact Order.toOption_plan_of_not_exact hl hx hlen rfl rfl hlui hjal

example (r : Registers) (m : DataMemory) :
    (plan ⟨"LUI".toList, [some 1, some 2, none]⟩ r m 4).toOption.map (·.write)
        = some (.register 1 0x2004) ∧
      (plan ⟨"JAL".toList, [some 1, some 8, some 0]⟩ .zero m 4).toOption.map (·.nextPc)
        = some 8 := ⟨rfl, rfl⟩

end Instruction

/-- Instructions lie at these addresses. -/
def Aligned (pc : Int) : Prop := 0 ≤ pc ∧ pc % 4 = 0

theorem aligned_zero : Aligned 0 := ⟨by decide, by decide⟩

theorem Aligned.next {pc : Int} (h : Aligned pc) : Aligned (pc + 4) := by
  unfold Aligned at *
  omega

def Instruction.Halts (i : Instruction) : Prop :=
  ∃ rest, i = ⟨Opcode.beq.name, some 0 :: some 0 :: some 0 :: rest⟩

def Plan.Proceeds (p : Plan) (pc : Int) : Prop :=
  p.halts = false ∧ (p.nextPc = pc + 4 ∨ Aligned p.nextPc)

namespace Order

variable {o : Order} {r : Registers} {m : DataMemory} {pc : Int} {p : Plan}

theorem aligned_of_alignedTarget {target : Int} (h : o.alignedTarget target = .ok ()) :
    Aligned target := by
  unfold alignedTarget at h
  split at h
  · cases h
  · unfold Aligned; omega

/-- Whatever an instruction does, it goes on at an address of an instruction or halts. -/
theorem plan_eq_ok (h : o.plan r m pc = .ok p) :
    p.Proceeds pc ∨ p.halts = true ∧ p.write = .nothing ∧ o.mnemonic = Opcode.beq.name ∧
      ∃ rest, o.operands = some 0 :: some 0 :: some 0 :: rest := by
  have hcase := planCase_plan h
  generalize o.operands = operands at hcase ⊢
  cases hcase with
  | register _ _ _ hpc hh => exact .inl ⟨hh, .inl hpc⟩
  | immediate _ _ _ hpc hh => exact .inl ⟨hh, .inl hpc⟩
  | load _ _ _ hpc hh => exact .inl ⟨hh, .inl hpc⟩
  | store _ _ _ hpc hh => exact .inl ⟨hh, .inl hpc⟩
  | upper _ _ hpc hh => exact .inl ⟨hh, .inl hpc⟩
  | branch _ _ hh hpc => exact .inl ⟨hh, hpc.imp_right aligned_of_alignedTarget⟩
  | jump _ _ htarget hh => exact .inl ⟨hh, .inr (aligned_of_alignedTarget htarget)⟩
  | halt _ hm hw _ hh => exact .inr ⟨hh, hw, hm, _, rfl⟩

end Order

namespace Instruction

variable {i : Instruction} {r : Registers} {m : DataMemory} {pc : Int} {p : Plan}

theorem plan_eq_ok (h : i.plan r m pc = .ok p) :
    p.Proceeds pc ∨ p.halts = true ∧ p.write = .nothing ∧ i.Halts := by
  unfold plan at h
  split at h
  · cases h
  · next o ho =>
    refine (Order.plan_eq_ok h).imp id ?_
    rintro ⟨hh, hw, hm, rest, hops⟩
    refine ⟨hh, hw, rest, ?_⟩
    unfold order? at ho
    split at ho
    · cases ho
    · next op hop =>
      obtain ⟨kind, -, ho⟩ := Option.map_eq_some_iff.1 ho
      obtain ⟨mnemonic, operands⟩ := i
      split at ho
      · next hnop =>
        -- What does nothing is an addition, and no branch.
        rw [hnop, Opcode.lookup?_nopName] at hop
        cases hop
        cases ho
        have hname : Opcode.addi.name = Opcode.beq.name := hm
        cases Opcode.name_injective hname
      · cases ho
        exact congrArg₂ Instruction.mk hm hops

def haltPlan (pc : Int) : Plan where
  write := .nothing
  nextPc := pc
  signals := { kind := some .branch, branch := true, aluOp := some "SUB" }
  message := .ok "HALT detected (beq x0, x0, 0) - program stopped"
  halts := true

theorem Halts.plan_eq (h : i.Halts) : i.plan r m pc = .ok (haltPlan pc) := by
  obtain ⟨rest, rfl⟩ := h
  unfold plan
  rw [order?_named]
  rfl

end Instruction

end Datapath
