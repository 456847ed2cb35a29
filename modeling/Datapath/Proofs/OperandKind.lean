import Datapath.Proofs.FaultStep
import Datapath.Proofs.SourceAssembly
import Datapath.Proofs.SourceStep

/-! Operands and the way they are written. The machine takes an operand by its value, whether it is
written as a register or as a number. The encoder wants a register or a number where the format has
one, and this is all that keeps it from the word of an instruction that the machine can execute. -/

set_option autoImplicit false

namespace Datapath

namespace Asm

def writesRegister : Text → Bool
  | 'x' :: _ => true
  | 'X' :: _ => true
  | _ => false

def slots (line : Text) : List (Role × Text) :=
  match tokens (beforeComment line) with
  | [] => []
  | first :: operands =>
    match Opcode.lookup? first with
    | none => []
    | some op =>
      if Text.lowercase first = Opcode.nopName then [] else op.format.roles.zip operands

variable {token : Text}

theorem operand?_of_writesRegister (h : writesRegister token = true) :
    operand? token = (·.map Int.ofNat) <$> registerNumber? token := by
  unfold writesRegister at h
  split at h <;> first | rfl | cases h

theorem operand?_of_not_writesRegister (h : writesRegister token = false) :
    operand? token = Decimal.read? token := by
  unfold operand?
  split <;> first | rfl | cases h

theorem registerNumber?_of_not_writesRegister (h : writesRegister token = false) :
    registerNumber? token = .ok none := by
  unfold registerNumber?
  split <;> first | rfl | cases h

theorem read?_of_writesRegister (h : writesRegister token = true) :
    Decimal.read? token = .ok none := by
  unfold writesRegister at h
  split at h
  · exact read?_of_letter (by decide) (by decide) (by decide) (by decide) _
  · exact read?_of_letter (by decide) (by decide) (by decide) (by decide) _
  · cases h

end Asm

namespace Role

/-- The value that an operand of the role can have. -/
def Takes : Role → Option Int → Prop
  | .imm, v => ∃ n, v = some n
  | _, v => ∃ i : Nat, i < 32 ∧ v = some (i : Int)

/-- The token is written as the role asks for, as a number or as a register. -/
def Suits (role : Role) (token : Text) : Prop := role = .imm ↔ Asm.writesRegister token = false

instance (role : Role) (token : Text) : Decidable (role.Suits token) := by
  unfold Suits
  infer_instance

def rejection (mnemonic token : Text) : Role → EncodeError
  | .imm => .invalidImmediate mnemonic token
  | _ => .invalidRegister mnemonic token

variable {role : Role} {v : Option Int} {token : Text}

theorem takes_register (h : role ≠ .imm) :
    role.Takes v ↔ ∃ i : Nat, i < 32 ∧ v = some (i : Int) := by
  cases role <;> first | rfl | exact absurd rfl h

theorem rejection_register (h : role ≠ .imm) (mnemonic token : Text) :
    role.rejection mnemonic token = .invalidRegister mnemonic token := by
  cases role <;> first | rfl | exact absurd rfl h

end Role

/-- Every operand of the line is written as its role asks for. -/
def Asm.Suited (line : Text) : Prop := ∀ s ∈ slots line, s.1.Suits s.2

instance (line : Text) : Decidable (Asm.Suited line) := by
  unfold Asm.Suited
  infer_instance

namespace Encoding

/-- A result that a part of the encoder gives for tokens with valid values: it succeeds if they are
written as their roles ask for, or it rejects one that is not. -/
inductive Judged {α : Type} (mnemonic : Text) (slots : List (Role × Text)) (suited : Prop) :
    Except EncodeFailure α → Prop
  | ok (a : α) : suited → Judged mnemonic slots suited (.ok a)
  | rejected {s : Role × Text} : s ∈ slots → ¬ s.1.Suits s.2 →
    Judged mnemonic slots suited (.error (.rejected (s.1.rejection mnemonic s.2)))

theorem Judged.bind {α β : Type} {mnemonic : Text} {slots : List (Role × Text)} {p q : Prop}
    {x : Except EncodeFailure α} (hx : Judged mnemonic slots p x)
    {f : α → Except EncodeFailure β} (hf : p → ∀ a, Judged mnemonic slots q (f a)) :
    Judged mnemonic slots q (x >>= f) := by
  cases hx with
  | ok a hp => exact hf hp a
  | rejected hs hn => exact .rejected hs hn

theorem Judged.mono {α : Type} {mnemonic : Text} {slots slots' : List (Role × Text)} {p q : Prop}
    {x : Except EncodeFailure α} (hx : Judged mnemonic slots p x) (hs : slots ⊆ slots')
    (hpq : p → q) : Judged mnemonic slots' q x := by
  cases hx with
  | ok a hp => exact .ok a (hpq hp)
  | rejected hm hn => exact .rejected (hs hm) hn

theorem Judged.map {α β : Type} {mnemonic : Text} {slots : List (Role × Text)} {p : Prop}
    {x : Except EncodeFailure α} (hx : Judged mnemonic slots p x) (f : α → β) :
    Judged mnemonic slots p (f <$> x) := by
  cases hx with
  | ok a hp => exact .ok (f a) hp
  | rejected hs hn => exact .rejected hs hn

def Valid (slots : List (Role × Text)) : Prop :=
  ∀ s ∈ slots, ∃ v, Asm.operand? s.2 = .ok v ∧ s.1.Takes v

variable {mnemonic token : Text} {role : Role} {v : Option Int} {slots : List (Role × Text)}

theorem register_of_takes (hr : role ≠ .imm) (hv : Asm.operand? token = .ok v)
    (ht : role.Takes v) :
    Judged mnemonic [(role, token)] (role.Suits token) (register mnemonic token) := by
  cases hw : Asm.writesRegister token with
  | true =>
    obtain ⟨i, hi, rfl⟩ := (Role.takes_register hr).1 ht
    rw [Asm.operand?_of_writesRegister hw] at hv
    obtain ⟨found, hfound, hmap⟩ := Outcome.map_eq_ok.1 hv
    obtain ⟨j, rfl, hj⟩ := Option.map_eq_some_iff.1 hmap
    obtain rfl : j = i := Int.ofNat.inj hj
    rw [register_eq_ok.2 ⟨hfound, hi⟩]
    exact .ok j (by simp [Role.Suits, hr, hw])
  | false =>
    have hn : ¬ role.Suits token := by simp [Role.Suits, hr, hw]
    have hrejected : register mnemonic token
        = .error (.rejected (role.rejection mnemonic token)) := by
      rw [Role.rejection_register hr, register, Asm.registerNumber?_of_not_writesRegister hw]
      rfl
    rw [hrejected]
    exact .rejected (s := (role, token)) (by simp) hn

theorem immediate_of_takes (hv : Asm.operand? token = .ok v) (ht : Role.imm.Takes v) :
    Judged mnemonic [(.imm, token)] (Role.imm.Suits token) (immediate mnemonic token) := by
  cases hw : Asm.writesRegister token with
  | true =>
    have hn : ¬ Role.imm.Suits token := by simp [Role.Suits, hw]
    have hrejected : immediate mnemonic token
        = .error (.rejected (Role.imm.rejection mnemonic token)) := by
      rw [immediate, Asm.read?_of_writesRegister hw]
      rfl
    rw [hrejected]
    exact .rejected (s := (.imm, token)) (by simp) hn
  | false =>
    obtain ⟨n, rfl⟩ := ht
    rw [Asm.operand?_of_not_writesRegister hw] at hv
    rw [immediate_eq_ok.2 hv]
    exact .ok n (by simp [Role.Suits, hw])

theorem readRegisters_of_valid (h : Valid slots) (f : Fields) :
    Judged mnemonic slots (∀ s ∈ slots, s.1 ≠ .imm → s.1.Suits s.2)
      (readRegisters mnemonic f slots) := by
  fun_induction readRegisters mnemonic f slots with
  | case1 f => exact .ok f (by simp)
  | case2 f token rest ih =>
    have hrest := ih fun s hs => h s (by simp [hs])
    refine hrest.mono (List.subset_cons_self _ _) fun hsuits s hs hr => ?_
    rcases List.mem_cons.1 hs with rfl | hs
    · exact absurd rfl hr
    · exact hsuits s hs hr
  | case3 f role token rest hne ih =>
    obtain ⟨v, hv, ht⟩ := h (role, token) (by simp)
    have hfirst : Judged mnemonic [(role, token)] (role.Suits token) (register mnemonic token) :=
      register_of_takes hne hv ht
    refine (hfirst.mono (by simp) id).bind fun hsuit i => ?_
    have hrest := ih i fun s hs => h s (by simp [hs])
    refine hrest.mono (List.subset_cons_self _ _) fun hsuits s hs hr => ?_
    rcases List.mem_cons.1 hs with rfl | hs
    · exact hsuit
    · exact hsuits s hs hr

theorem readImmediate_of_valid (hn : (slots.map Prod.fst).Nodup) (h : Valid slots) (f : Fields) :
    Judged mnemonic slots (∀ s ∈ slots, s.1 = .imm → s.1.Suits s.2)
      (readImmediate mnemonic f slots) := by
  fun_induction readImmediate mnemonic f slots with
  | case1 f => exact .ok f (by simp)
  | case2 f token rest =>
    obtain ⟨v, hv, ht⟩ := h (.imm, token) (by simp)
    have hfirst : Judged mnemonic [(.imm, token)] (Role.imm.Suits token)
      (immediate mnemonic token) := immediate_of_takes hv ht
    refine (hfirst.mono (by simp) id).bind fun hsuit n => .ok _ fun s hs hr => ?_
    simp only [List.map_cons, List.nodup_cons] at hn
    rcases List.mem_cons.1 hs with rfl | hs
    · exact hsuit
    · exact absurd (hr ▸ List.mem_map_of_mem hs) hn.1
  | case3 f s rest hne ih =>
    simp only [List.map_cons, List.nodup_cons] at hn
    have hrest := ih hn.2 fun s hs => h s (by simp [hs])
    refine hrest.mono (List.subset_cons_self _ _) fun hsuits u hu hr => ?_
    rcases List.mem_cons.1 hu with rfl | hu
    · obtain ⟨role, token⟩ := u
      exact absurd (congrArg (·, token) hr) (hne token)
    · exact hsuits u hu hr

theorem fields_of_valid {format : Format} {operands : List Text}
    (hl : format.roles.length ≤ operands.length) (h : Valid (format.roles.zip operands)) :
    Judged mnemonic (format.roles.zip operands)
      (∀ s ∈ format.roles.zip operands, s.1.Suits s.2) (fields mnemonic format operands) := by
  have hn : ((format.roles.zip operands).map Prod.fst).Nodup := by
    rw [List.map_fst_zip hl]
    exact format.nodup_roles
  rw [fields, if_neg (Nat.not_lt.2 hl)]
  refine (readRegisters_of_valid h {}).bind fun hregisters f => ?_
  refine (readImmediate_of_valid hn h f).mono (List.Subset.refl _) fun himmediate s hs => ?_
  by_cases hr : s.1 = .imm
  · exact himmediate s hs hr
  · exact hregisters s hs hr

end Encoding

/-- The roles of the operands that a class reads; a jump to an offset does without the last one. -/
def ExecClass.roles : ExecClass → List Role
  | .register => [.rd, .rs1, .rs2]
  | .immediate => [.rd, .rs1, .imm]
  | .load => [.rd, .imm, .rs1]
  | .store => [.rs2, .imm, .rs1]
  | .branch => [.rs1, .rs2, .imm]
  | .upper => [.rd, .imm]
  | .jump => [.rd, .imm, .rs1]

theorem Opcode.roles_of_kind {op : Opcode} {kind : ExecClass} (h : op.kind = some kind) :
    op.format.roles = if op = .jal then [.rd, .imm] else kind.roles := by
  cases op <;> cases h <;> rfl

namespace Role

variable {role : Role}

theorem takes_named (h : role ≠ .imm) (i : Fin 32) : role.Takes (Order.named i) :=
  (takes_register h).2 ⟨i.val, i.isLt, rfl⟩

theorem takes_some (n : Int) : Role.imm.Takes (some n) := ⟨n, rfl⟩

end Role

namespace Order

variable {o : Order} {r : Registers} {m : DataMemory} {pc : Int} {p : Plan}

theorem Named.needed_eq (h : o.Named) : o.needed = o.opcode.format.roles.length := by
  simp only [needed, h.exact, true_and, Opcode.length_roles]

theorem Named.roles_eq (h : o.Named) (hk : o.kind ≠ .jump) :
    o.opcode.format.roles = o.kind.roles := by
  have hjal : o.opcode ≠ .jal := fun hop =>
    hk (Option.some.inj (h.kind.symm.trans (congrArg Opcode.kind hop)))
  rw [Opcode.roles_of_kind h.kind, if_neg hjal]

/-- An instruction has a plan only if every operand that its format has is there, with a value that
its role can take. -/
theorem Named.takes (h : o.Named) (hp : o.plan r m pc = .ok p) :
    o.opcode.format.roles.length ≤ o.operands.length ∧
      ∀ s ∈ o.opcode.format.roles.zip o.operands, s.1.Takes s.2 := by
  have hlen : o.opcode.format.roles.length ≤ o.operands.length := by
    unfold plan at hp
    dsimp only at hp
    split at hp
    · cases hp
    · next hlen => exact h.needed_eq ▸ Nat.le_of_not_lt hlen
  refine ⟨hlen, ?_⟩
  have hroles := Opcode.roles_of_kind h.kind
  have hcase := planCase_plan hp
  generalize o.operands = operands at hcase hlen ⊢
  cases hcase with
  | register hk | immediate hk | load hk | store hk | branch hk | halt hk | upper hk =>
    rw [h.roles_eq (by rw [hk]; decide), hk]
    simp [ExecClass.roles, Role.takes_named, Role.takes_some]
  | @jump rd offset rest _ hk _ _ _ hr =>
    rw [hroles] at hlen ⊢
    split at hlen
    · next hjal => simp [hjal, Role.takes_named, Role.takes_some]
    · next hjal =>
      rw [if_neg hjal]
      obtain ⟨rs1, hrs1⟩ := hr hjal
      cases rest with
      | nil => simp [hk, ExecClass.roles] at hlen
      | cons c rest =>
        obtain rfl : c = named rs1 := hrs1
        simp [hk, ExecClass.roles, Role.takes_named, Role.takes_some]

end Order

namespace Encoding

open Asm (tokens beforeComment slots)

theorem valid_zip {roles : List Role} {operands : List Text} {values : List (Option Int)}
    (hv : List.Forall₂ (fun t v => Asm.operand? t = .ok v) operands values)
    (h : ∀ s ∈ roles.zip values, s.1.Takes s.2) : Valid (roles.zip operands) := by
  induction hv generalizing roles with
  | nil => simp [Valid]
  | @cons token v operands values htoken _ ih =>
    cases roles with
    | nil => simp [Valid]
    | cons role roles =>
      have hrest : Valid (roles.zip operands) := ih fun s hs => h s (by simp [hs])
      intro s hs
      rcases List.mem_cons.1 hs with rfl | hs
      · exact ⟨v, htoken, h (role, v) (by simp)⟩
      · exact hrest s hs

theorem Judged.exists_ok_iff {α : Type} {mnemonic line : Text} {x : Except EncodeFailure α}
    (h : Judged mnemonic (slots line) (Asm.Suited line) x) :
    (∃ a, x = .ok a) ↔ Asm.Suited line := by
  cases h with
  | ok a hsuited => exact iff_of_true ⟨a, rfl⟩ hsuited
  | @rejected s hs hn => exact iff_of_false (by simp) fun hsuited => hn (hsuited s hs)

theorem Judged.exists_rejected {α : Type} {mnemonic line : Text} {x : Except EncodeFailure α}
    (h : Judged mnemonic (slots line) (Asm.Suited line) x) (hn : ¬ Asm.Suited line) :
    ∃ s ∈ slots line, ¬ s.1.Suits s.2 ∧
      x = .error (.rejected (s.1.rejection mnemonic s.2)) := by
  cases h with
  | ok a hsuited => exact absurd hsuited hn
  | @rejected s hs hs' => exact ⟨s, hs, hs', rfl⟩

theorem judged_word {line : Text} {i : Instruction} {r : Registers} {m : DataMemory} {pc : Int}
    {p : Plan} (hl : Asm.Plain line) (hi : Instruction.parse? line = .ok (some i))
    (hp : i.plan r m pc = .ok p) :
    Judged i.mnemonic (slots line) (Asm.Suited line) (word line) := by
  unfold Asm.Suited slots word
  unfold Instruction.parse? at hi
  rw [Asm.beforeComment_of_plain hl]
  cases ht : tokens line with
  | nil =>
    rw [ht] at hi
    cases hi
  | cons first operands =>
    rw [ht] at hi
    obtain ⟨values, hv, hi⟩ := Outcome.map_eq_ok.1 hi
    cases hi
    dsimp only
    unfold Instruction.plan at hp
    split at hp
    · cases hp
    · next o ho =>
      have hnamed := Instruction.named_of_order? rfl ho
      by_cases hnop : Text.lowercase first = Opcode.nopName
      · have hlookup : Opcode.lookup? first = some .addi := if_pos hnop
        rw [hlookup]
        simp only [hnop, ↓reduceIte]
        exact .ok _ (by simp)
      · obtain ⟨hmnemonic, hoperands⟩ := Instruction.order?_eq_some ho hnop
        have hname : Text.lowercase first = o.opcode.name :=
          hmnemonic.symm.trans (of_decide_eq_true hnamed.exact)
        have hlookup : Opcode.lookup? first = some o.opcode := by
          rw [Opcode.lookup?, if_neg hnop]
          exact Opcode.ofName?_eq_some_iff.2 hname.symm
        have hread := Outcome.mapM_eq_ok.1 hv
        obtain ⟨hlen, htakes⟩ := hnamed.takes hp
        rw [hoperands] at hlen htakes
        rw [hlookup]
        simp only [hnop, ↓reduceIte]
        exact (fields_of_valid (hread.length_eq ▸ hlen) (valid_zip hread htakes)).map _

end Encoding

theorem Program.parsed_of_mem {source : Text} {p : Program} (h : load source = .ok p) {line : Slot}
    (hl : line ∈ p.lines) :
    Asm.Plain line.raw ∧ Instruction.parse? line.raw = .ok line.parsed := by
  obtain ⟨lines, hlines, hread⟩ := exists_numberedLines h
  obtain ⟨numbered, hmem, hraw, hparsed⟩ := Outcome.exists_of_mem_forall₂ hread hl
  rw [hraw]
  exact ⟨Asm.plain_numberedLines hlines hmem, hparsed⟩

/-- A line that a machine executes without a fault has a word if every operand is written as its
role asks for, as a register or as a number. The encoder rejects it for an operand that is written
the other way, and for no other reason, and the assembled line has the word of zeros then. -/
theorem Machine.encode_of_executed {source : Text} {m : Machine}
    (hp : Program.load source = .ok m.program) {line : Slot} (hf : m.fetch = some line)
    {i : Instruction} (hi : line.parsed = some i) {r : StepReport} (hr : m.step.1 = .ok r)
    (hfault : r.fault = none) :
    ((∃ bits, Encoding.encode line.raw = .ok bits) ↔ Asm.Suited line.raw) ∧
      (¬ Asm.Suited line.raw → ∃ s ∈ Asm.slots line.raw, ¬ s.1.Suits s.2 ∧
        Encoding.encode line.raw = .error (.rejected (s.1.rejection i.mnemonic s.2))) ∧
      ∀ number l, AssembledLine.ofLine number line.raw = .ok l →
        (l.word ≠ zeroWord ↔ Asm.Suited line.raw) := by
  obtain ⟨hplain, hparse⟩ := Program.parsed_of_mem hp (mem_of_fetch hf)
  have hjudged : Encoding.Judged i.mnemonic (Asm.slots line.raw) (Asm.Suited line.raw)
      (Encoding.encode line.raw) := by
    rcases plan_of_answer hr hf hi with ⟨f, -, hname⟩ | ⟨p, hplan, -⟩
    · cases hname.symm.trans hfault
    · exact (Encoding.judged_word hplain (hi ▸ hparse) hplan).map _
  have hencode := hjudged.exists_ok_iff
  refine ⟨hencode, hjudged.exists_rejected, fun number l hl => Iff.trans ?_ hencode⟩
  obtain ⟨-, -, ⟨he, -⟩ | ⟨e, he, hz, -⟩⟩ := AssembledLine.ofLine_eq_ok hl
  · exact iff_of_true (Encoding.encode_ne_zeroWord he) ⟨_, he⟩
  · rw [he]
    exact iff_of_false (not_not.2 hz) (by simp)

theorem Machine.encode_of_executed_addi :
    ∃ m : Machine, create {} = .ok m ∧ ∃ line i r,
      let loaded := (m.load "addi x1, x2, x5".toList).2
      loaded.fetch = some line ∧ line.parsed = some i ∧ loaded.step.1 = .ok r ∧ r.fault = none ∧
        r.registers.get 1 = 5 ∧ ¬ Asm.Suited line.raw ∧
        ((∃ bits, Encoding.encode line.raw = .ok bits) ↔ Asm.Suited line.raw) := by
  obtain ⟨m, hm⟩ : ∃ m, create {} = .ok m := ⟨_, rfl⟩
  let loaded := (m.load "addi x1, x2, x5".toList).2
  obtain ⟨line, i, r, hp, hf, hi, hr, hfault, hvalue, hnot⟩ : ∃ line i r,
      Program.load "addi x1, x2, x5".toList = .ok loaded.program ∧ loaded.fetch = some line ∧
        line.parsed = some i ∧ loaded.step.1 = .ok r ∧ r.fault = none ∧ r.registers.get 1 = 5 ∧
        ¬ Asm.Suited line.raw := by
    cases hm
    exact ⟨_, _, _, rfl, rfl, rfl, rfl, rfl, rfl, by decide⟩
  exact ⟨m, hm, line, i, r, hf, hi, hr, hfault, hvalue, hnot,
    (encode_of_executed hp hf hi hr hfault).1⟩

/-- Registers that are written as bare numbers are added, and the line has no word. -/
theorem Session.executed_without_word :
    ∃ (m : Machine) (line : Slot) (r : StepReport), Machine.create {} = .ok m ∧
      let s := ((ofMachine m).perform (.load "add 1, 2, 3".toList)).2
      s.Reachable ∧ Program.load "add 1, 2, 3".toList = .ok s.machine.program ∧
        s.machine.fetch = some line ∧ line.parsed ≠ none ∧ s.machine.step.1 = .ok r ∧
        r.fault = none ∧ Encoding.encode line.raw
          = .error (.rejected (.invalidRegister "add".toList "1".toList)) := by
  obtain ⟨m, hm⟩ : ∃ m, Machine.create {} = .ok m := ⟨_, rfl⟩
  have hs : ((ofMachine m).perform (.load "add 1, 2, 3".toList)).2.Reachable :=
    (Reachable.start hm).perform _
  obtain ⟨line, r, hrest⟩ : ∃ (line : Slot) (r : StepReport),
      let s := ((ofMachine m).perform (.load "add 1, 2, 3".toList)).2
      Program.load "add 1, 2, 3".toList = .ok s.machine.program ∧
        s.machine.fetch = some line ∧ line.parsed ≠ none ∧ s.machine.step.1 = .ok r ∧
        r.fault = none ∧ Encoding.encode line.raw
          = .error (.rejected (.invalidRegister "add".toList "1".toList)) := by
    cases hm
    exact ⟨_, _, rfl, rfl, by decide, rfl, rfl, rfl⟩
  exact ⟨m, line, r, hm, hs, hrest⟩

end Datapath
