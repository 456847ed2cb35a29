import Datapath.Machine.Plan
import Datapath.Proofs.Outcome

set_option autoImplicit false

namespace Datapath

namespace Order

def named (i : Fin 32) : Option Int := some (i.val : Int)

/-- The plans of an order with these operands. Operands beyond those of a class are not looked at,
and a jump to an offset does without its third operand. -/
inductive PlanCase (o : Order) (r : Registers) (m : DataMemory) (pc : Int) :
    List (Option Int) → Plan → Prop
  | register {rd rs1 rs2 : Fin 32} {rest : List (Option Int)} {p : Plan} {x : Word.Operation}
      {text : String} :
      o.kind = .register → o.exactly Opcode.operation? = .ok x →
      p.write = .register rd (x.eval (r.get rs1) (r.get rs2)) → p.nextPc = pc + 4 →
      p.halts = false → p.message = .ok text →
      PlanCase o r m pc (named rd :: named rs1 :: named rs2 :: rest) p
  | immediate {rd rs1 : Fin 32} {imm : Int} {rest : List (Option Int)} {p : Plan}
      {x : Word.Operation} :
      o.kind = .immediate → o.exactly Opcode.operation? = .ok x →
      p.write = .register rd (x.eval (r.get rs1) imm) → p.nextPc = pc + 4 → p.halts = false →
      PlanCase o r m pc (named rd :: named rs1 :: some imm :: rest) p
  | load {rd rs1 : Fin 32} {offset : Int} {rest : List (Option Int)} {p : Plan} {index : Nat}
      {text : String → String} :
      o.kind = .load → m.index (r.get rs1 + offset) = .ok index →
      p.write = .register rd (m.get index) → p.nextPc = pc + 4 → p.halts = false →
      p.message = text <$> Decimal.write offset →
      PlanCase o r m pc (named rd :: some offset :: named rs1 :: rest) p
  | store {rs2 rs1 : Fin 32} {offset : Int} {rest : List (Option Int)} {p : Plan} {index : Nat}
      {text : String → String} :
      o.kind = .store → m.index (r.get rs1 + offset) = .ok index →
      p.write = .memory index (r.get rs2) → p.nextPc = pc + 4 → p.halts = false →
      p.message = text <$> Decimal.write offset →
      PlanCase o r m pc (named rs2 :: some offset :: named rs1 :: rest) p
  | branch {rs1 rs2 : Fin 32} {offset : Int} {rest : List (Option Int)} {p : Plan} :
      o.kind = .branch → p.write = .nothing → p.halts = false →
      p.nextPc = pc + 4 ∨ o.alignedTarget p.nextPc = .ok () → o.exact = true →
      PlanCase o r m pc (named rs1 :: named rs2 :: some offset :: rest) p
  | halt {rest : List (Option Int)} {p : Plan} :
      o.kind = .branch → o.mnemonic = Opcode.beq.name → p.write = .nothing → p.nextPc = pc →
      p.halts = true → o.exact = true →
      PlanCase o r m pc (named 0 :: named 0 :: some 0 :: rest) p
  | upper {rd : Fin 32} {imm : Int} {rest : List (Option Int)} {p : Plan} {v : Int} :
      o.kind = .upper → p.write = .register rd v → p.nextPc = pc + 4 → p.halts = false →
      PlanCase o r m pc (named rd :: some imm :: rest) p
  | jump {rd : Fin 32} {offset : Int} {rest : List (Option Int)} {p : Plan} :
      o.kind = .jump → p.write = .register rd (pc + 4) → o.alignedTarget p.nextPc = .ok () →
      p.halts = false → (o.opcode ≠ .jal → ∃ rs1, rest.head?.getD none = named rs1) →
      PlanCase o r m pc (named rd :: some offset :: rest) p

open Outcome (bind_eq_ok)

theorem register_named (i : Fin 32) : register (named i) = .ok i := by
  have hb : 0 ≤ (i.val : Int) ∧ (i.val : Int) < 32 := by omega
  simp only [register, named, Registers.check, hb, and_self, ↓reduceDIte]
  rfl

variable {o : Order} {r : Registers} {m : DataMemory} {pc : Int} {a b c : Option Int}
  {rest : List (Option Int)} {p : Plan}

theorem register_eq_ok {rd : Fin 32} (h : register a = .ok rd) : a = named rd := by
  obtain h := Outcome.mapError_eq_ok.1 h
  unfold Registers.check at h
  split at h
  · cases h
  · split at h
    · cases h
      simp [named]; omega
    · cases h

theorem immediate_eq_ok {v : Int} (h : o.immediate a = .ok v) : a = some v := by
  cases a with
  | none => cases h
  | some u =>
    cases h
    rfl

theorem exact_of_exactly {α : Type} {part : Opcode → Option α} {x : α}
    (h : o.exactly part = .ok x) : o.exact = true := by
  unfold exactly at h
  split at h
  · assumption
  · cases h

theorem part_of_exactly {α : Type} {part : Opcode → Option α} {x : α}
    (h : o.exactly part = .ok x) : part o.opcode = some x := by
  unfold exactly at h
  split at h
  · next hx =>
    cases h
    exact hx
  · cases h

theorem planCase_register (hk : o.kind = .register) (h : o.planRegister r pc a b c = .ok p) :
    o.PlanCase r m pc (a :: b :: c :: rest) p := by
  obtain ⟨rd, ha, h⟩ := bind_eq_ok.1 h
  obtain ⟨rs1, hb, h⟩ := bind_eq_ok.1 h
  obtain ⟨rs2, hc, h⟩ := bind_eq_ok.1 h
  obtain ⟨x, hx, h⟩ := bind_eq_ok.1 h
  cases h
  rw [register_eq_ok ha, register_eq_ok hb, register_eq_ok hc]
  exact .register hk hx rfl rfl rfl rfl

theorem planCase_immediate (hk : o.kind = .immediate) (h : o.planImmediate r pc a b c = .ok p) :
    o.PlanCase r m pc (a :: b :: c :: rest) p := by
  obtain ⟨rd, ha, h⟩ := bind_eq_ok.1 h
  obtain ⟨rs1, hb, h⟩ := bind_eq_ok.1 h
  obtain ⟨imm, hc, h⟩ := bind_eq_ok.1 h
  obtain ⟨x, hx, h⟩ := bind_eq_ok.1 h
  cases h
  rw [register_eq_ok ha, register_eq_ok hb, immediate_eq_ok hc]
  exact .immediate hk hx rfl rfl rfl

theorem planCase_load (hk : o.kind = .load) (h : o.planLoad r m pc a b c = .ok p) :
    o.PlanCase r m pc (a :: b :: c :: rest) p := by
  obtain ⟨rd, ha, h⟩ := bind_eq_ok.1 h
  obtain ⟨offset, hb, h⟩ := bind_eq_ok.1 h
  obtain ⟨rs1, hc, h⟩ := bind_eq_ok.1 h
  obtain ⟨index, hi, h⟩ := bind_eq_ok.1 h
  cases h
  rw [register_eq_ok ha, immediate_eq_ok hb, register_eq_ok hc]
  exact .load hk (Outcome.mapError_eq_ok.1 hi) rfl rfl rfl rfl

theorem planCase_store (hk : o.kind = .store) (h : o.planStore r m pc a b c = .ok p) :
    o.PlanCase r m pc (a :: b :: c :: rest) p := by
  obtain ⟨rs2, ha, h⟩ := bind_eq_ok.1 h
  obtain ⟨offset, hb, h⟩ := bind_eq_ok.1 h
  obtain ⟨rs1, hc, h⟩ := bind_eq_ok.1 h
  obtain ⟨index, hi, h⟩ := bind_eq_ok.1 h
  cases h
  rw [register_eq_ok ha, immediate_eq_ok hb, register_eq_ok hc]
  exact .store hk (Outcome.mapError_eq_ok.1 hi) rfl rfl rfl rfl

theorem planCase_branch (hk : o.kind = .branch) (h : o.planBranch r pc a b c = .ok p) :
    o.PlanCase r m pc (a :: b :: c :: rest) p := by
  obtain ⟨rs1, ha, h⟩ := bind_eq_ok.1 h
  obtain ⟨rs2, hb, h⟩ := bind_eq_ok.1 h
  obtain ⟨offset, hc, h⟩ := bind_eq_ok.1 h
  obtain ⟨comparison, hx, h⟩ := bind_eq_ok.1 h
  obtain ⟨shown, -, h⟩ := bind_eq_ok.1 h
  have hexact := exact_of_exactly hx
  rw [register_eq_ok ha, register_eq_ok hb, immediate_eq_ok hc]
  split at h
  · next hhalt =>
    obtain ⟨hop, h1, h2, h3⟩ := hhalt
    cases h
    obtain rfl : rs1 = 0 := Fin.ext h1
    obtain rfl : rs2 = 0 := Fin.ext h2
    rw [h3]
    have hname : o.mnemonic = Opcode.beq.name := by
      rw [← hop]
      simpa [exact] using hexact
    exact .halt hk hname rfl rfl rfl hexact
  · split at h
    · obtain ⟨_, htarget, h⟩ := bind_eq_ok.1 h
      cases h
      exact .branch hk rfl rfl (.inr htarget) hexact
    · cases h
      exact .branch hk rfl rfl (.inl rfl) hexact

theorem planCase_upper (hk : o.kind = .upper) (h : o.planUpper pc a b = .ok p) :
    o.PlanCase r m pc (a :: b :: rest) p := by
  obtain ⟨rd, ha, h⟩ := bind_eq_ok.1 h
  obtain ⟨imm, hb, h⟩ := bind_eq_ok.1 h
  cases h
  rw [register_eq_ok ha, immediate_eq_ok hb]
  exact .upper hk rfl rfl rfl

theorem planCase_link {rd : Fin 32} {offset target : Int} {text : String} (hk : o.kind = .jump)
    (hr : o.opcode ≠ .jal → ∃ rs1, rest.head?.getD none = named rs1)
    (h : o.planLink pc rd offset target text = .ok p) :
    o.PlanCase r m pc (named rd :: some offset :: rest) p := by
  obtain ⟨_, htarget, h⟩ := bind_eq_ok.1 h
  cases h
  exact .jump hk rfl htarget rfl hr

theorem planCase_jump (hk : o.kind = .jump) (h : o.planJump r pc a b rest = .ok p) :
    o.PlanCase r m pc (a :: b :: rest) p := by
  obtain ⟨rd, ha, h⟩ := bind_eq_ok.1 h
  obtain ⟨offset, hb, h⟩ := bind_eq_ok.1 h
  rw [register_eq_ok ha, immediate_eq_ok hb]
  split at h
  · next hjal =>
    obtain ⟨i, -, h⟩ := bind_eq_ok.1 h
    exact planCase_link hk (fun hne => absurd hjal.2 hne) h
  · obtain ⟨rs1, hc, h⟩ := bind_eq_ok.1 h
    obtain ⟨i, -, h⟩ := bind_eq_ok.1 h
    exact planCase_link hk (fun _ => ⟨rs1, register_eq_ok hc⟩) h

theorem planCase_plan (h : o.plan r m pc = .ok p) : o.PlanCase r m pc o.operands p := by
  unfold plan at h
  dsimp only at h
  split at h
  · cases h
  · split at h
    · next hk ho => exact ho ▸ planCase_register hk h
    · next hk ho => exact ho ▸ planCase_immediate hk h
    · next hk ho => exact ho ▸ planCase_load hk h
    · next hk ho => exact ho ▸ planCase_store hk h
    · next hk ho => exact ho ▸ planCase_branch hk h
    · next hk ho => exact ho ▸ planCase_upper hk h
    · next hk ho => exact ho ▸ planCase_jump hk h
    · cases h

end Order

theorem Registers.read_val (r : Registers) (i : Fin 32) : r.read (i.val : Int) = .ok (r.get i) := by
  have hb : 0 ≤ (i.val : Int) ∧ (i.val : Int) < 32 := by omega
  simp only [read, check, hb, and_self, ↓reduceDIte]
  rfl

/-- The lines that tell what an instruction does: to a register, from the memory, to the memory and
to the program counter. -/
def ControlLines.effects (c : ControlLines) : Bool × Bool × Bool × Bool :=
  (c.regWrite, c.memRead, c.memWrite, c.branchTaken)

def ExecClass.effects (target : Bool) : ExecClass → Bool × Bool × Bool × Bool
  | .register | .immediate | .upper => (true, false, false, false)
  | .load => (true, true, false, false)
  | .store => (false, false, true, false)
  | .branch => (false, false, false, target)
  | .jump => (true, false, false, target)

namespace Order

/-- The target of a branch with these operands, if its condition holds. The branch that halts stays
where it is and has none. -/
def branchTarget? (o : Order) (r : Registers) (pc : Int) : List (Option Int) → Option Int
  | some a :: some b :: some offset :: _ => do
    let comparison ← o.opcode.comparison?
    let u ← (r.read a).toOption
    let v ← (r.read b).toOption
    if o.opcode = .beq ∧ a = 0 ∧ b = 0 ∧ offset = 0 then none
    else if comparison.holds u v then some (pc + offset) else none
  | _ => none

/-- The target of a jump with these operands. Only `jal` under its own name counts from where it
stands; any other jump counts from a register, without the lowest bit. -/
def jumpTarget? (o : Order) (r : Registers) (pc : Int) : List (Option Int) → Option Int
  | _ :: some offset :: rest =>
    if o.exact ∧ o.opcode = .jal then some (pc + offset)
    else do
      let base ← rest.head?.getD none
      let u ← (r.read base).toOption
      let sum := Word.signed (u + offset)
      some (sum - sum % 2)
  | _ => none

def redirect? (o : Order) (r : Registers) (pc : Int) : Option Int :=
  match o.kind with
  | .branch => o.branchTarget? r pc o.operands
  | .jump => o.jumpTarget? r pc o.operands
  | _ => none

/-- The plan raises the lines of its class, and it goes to its target or on with the next line. A
plan that halts has no target. -/
structure Shows (o : Order) (r : Registers) (pc : Int) (p : Plan) : Prop where
  effects : p.signals.effects = o.kind.effects (o.redirect? r pc).isSome
  nextPc : p.halts = false → p.nextPc = (o.redirect? r pc).getD (pc + 4)
  halts : p.halts = true → o.redirect? r pc = none

open Outcome (bind_eq_ok)

variable {o : Order} {r : Registers} {m : DataMemory} {pc : Int} {a b c : Option Int}
  {rest : List (Option Int)} {p : Plan}

theorem redirect?_of_kind (h : o.kind ≠ .branch) (h' : o.kind ≠ .jump) :
    o.redirect? r pc = none := by
  unfold redirect?
  split
  · next hk => exact absurd hk h
  · next hk => exact absurd hk h'
  · rfl

theorem redirect?_branch {rs1 rs2 : Fin 32} {offset : Int} {x : Word.Comparison}
    (hk : o.kind = .branch) (ho : o.operands = named rs1 :: named rs2 :: some offset :: rest)
    (hx : o.opcode.comparison? = some x) : o.redirect? r pc
      = if o.opcode = .beq ∧ rs1.val = 0 ∧ rs2.val = 0 ∧ offset = 0 then none
        else if x.holds (r.get rs1) (r.get rs2) then some (pc + offset) else none := by
  simp only [redirect?, hk, ho, branchTarget?, named, hx, Registers.read_val, Except.toOption,
    Option.bind_eq_bind, Option.bind_some, Int.natCast_eq_zero]

theorem redirect?_jal {rd : Fin 32} {offset : Int} (hk : o.kind = .jump)
    (hj : o.exact = true ∧ o.opcode = .jal) (ho : o.operands = named rd :: some offset :: rest) :
    o.redirect? r pc = some (pc + offset) := by
  simp only [redirect?, hk, ho, jumpTarget?, named, hj, and_self, ↓reduceIte]

theorem redirect?_jalr {rd rs1 : Fin 32} {offset : Int} (hk : o.kind = .jump)
    (hj : ¬ (o.exact = true ∧ o.opcode = .jal))
    (ho : o.operands = named rd :: some offset :: rest)
    (hr : rest.head?.getD none = named rs1) : o.redirect? r pc
      = some (Word.signed (r.get rs1 + offset) - Word.signed (r.get rs1 + offset) % 2) := by
  rw [redirect?, hk]
  simp only [ho, named, jumpTarget?, if_neg hj, hr, Registers.read_val, Except.toOption,
    Option.bind_eq_bind, Option.bind_some]

/-- Plans of a class that go on with the next line, whatever the operands are. -/
def Steady (kind : ExecClass) (pc : Int) (x : Except Abort Plan) : Prop :=
  ∀ p, x = .ok p → p.signals.effects = kind.effects false ∧ p.nextPc = pc + 4 ∧ p.halts = false

theorem Steady.ok {kind : ExecClass} (hl : p.signals.effects = kind.effects false)
    (hpc : p.nextPc = pc + 4) (hh : p.halts = false) : Steady kind pc (.ok p) := by
  intro q hq
  cases hq
  exact ⟨hl, hpc, hh⟩

theorem Steady.bind {α : Type} {kind : ExecClass} {x : Except Abort α}
    {f : α → Except Abort Plan} (h : ∀ u, Steady kind pc (f u)) : Steady kind pc (x >>= f) := by
  intro p hp
  obtain ⟨u, -, hu⟩ := bind_eq_ok.1 hp
  exact h u p hu

theorem steady_register : Steady .register pc (o.planRegister r pc a b c) :=
  .bind fun _ => .bind fun _ => .bind fun _ => .bind fun _ => .ok rfl rfl rfl

theorem steady_immediate : Steady .immediate pc (o.planImmediate r pc a b c) :=
  .bind fun _ => .bind fun _ => .bind fun _ => .bind fun _ => .ok rfl rfl rfl

theorem steady_load : Steady .load pc (o.planLoad r m pc a b c) :=
  .bind fun _ => .bind fun _ => .bind fun _ => .bind fun _ => .ok rfl rfl rfl

theorem steady_store : Steady .store pc (o.planStore r m pc a b c) :=
  .bind fun _ => .bind fun _ => .bind fun _ => .bind fun _ => .ok rfl rfl rfl

theorem steady_upper : Steady .upper pc (o.planUpper pc a b) :=
  .bind fun _ => .bind fun _ => .ok rfl rfl rfl

theorem Steady.shows {kind : ExecClass} {x : Except Abort Plan} (hs : Steady kind pc x)
    (hk : o.kind = kind) (hb : kind ≠ .branch) (hj : kind ≠ .jump) (h : x = .ok p) :
    o.Shows r pc p := by
  subst hk
  obtain ⟨hl, hpc, hh⟩ := hs p h
  have hnone : o.redirect? r pc = none := redirect?_of_kind hb hj
  refine ⟨?_, fun _ => ?_, fun _ => hnone⟩
  · rw [hnone]
    exact hl
  · rw [hnone]
    exact hpc

theorem shows_branch (hk : o.kind = .branch) (ho : o.operands = a :: b :: c :: rest)
    (h : o.planBranch r pc a b c = .ok p) : o.Shows r pc p := by
  obtain ⟨rs1, ha, h⟩ := bind_eq_ok.1 h
  obtain ⟨rs2, hb, h⟩ := bind_eq_ok.1 h
  obtain ⟨offset, hc, h⟩ := bind_eq_ok.1 h
  obtain ⟨x, hx, h⟩ := bind_eq_ok.1 h
  obtain ⟨shown, -, h⟩ := bind_eq_ok.1 h
  rw [register_eq_ok ha, register_eq_ok hb, immediate_eq_ok hc] at ho
  have htarget : o.redirect? r pc = _ := redirect?_branch hk ho (part_of_exactly hx)
  split at h
  · next hhalt =>
    rw [if_pos hhalt] at htarget
    cases h
    refine ⟨by rw [hk, htarget]; rfl, fun hgo => ?_, fun _ => htarget⟩
    cases hgo
  · next hgo =>
    rw [if_neg hgo] at htarget
    split at h
    · next htaken =>
      obtain ⟨_, -, h⟩ := bind_eq_ok.1 h
      rw [if_pos htaken] at htarget
      cases h
      refine ⟨?_, fun _ => by rw [htarget]; rfl, fun hh => ?_⟩
      · rw [hk, htarget]
        exact congrArg (false, false, false, ·) htaken
      · cases hh
    · next hpass =>
      rw [if_neg hpass] at htarget
      cases h
      refine ⟨?_, fun _ => by rw [htarget]; rfl, fun hh => ?_⟩
      · rw [hk, htarget]
        exact congrArg (false, false, false, ·) (Bool.eq_false_iff.2 hpass)
      · cases hh

theorem shows_link {rd : Fin 32} {offset target : Int} {text : String} (hk : o.kind = .jump)
    (ht : o.redirect? r pc = some target) (h : o.planLink pc rd offset target text = .ok p) :
    o.Shows r pc p := by
  obtain ⟨_, -, h⟩ := bind_eq_ok.1 h
  cases h
  refine ⟨?_, fun _ => ?_, fun hh => ?_⟩
  · rw [hk, ht]
    rfl
  · rw [ht]
    rfl
  · cases hh

theorem shows_jump (hk : o.kind = .jump) (ho : o.operands = a :: b :: rest)
    (h : o.planJump r pc a b rest = .ok p) : o.Shows r pc p := by
  obtain ⟨rd, ha, h⟩ := bind_eq_ok.1 h
  obtain ⟨offset, hb, h⟩ := bind_eq_ok.1 h
  rw [register_eq_ok ha, immediate_eq_ok hb] at ho
  split at h
  · next hj =>
    obtain ⟨_, -, h⟩ := bind_eq_ok.1 h
    exact shows_link hk (redirect?_jal hk hj ho) h
  · next hj =>
    obtain ⟨rs1, hc, h⟩ := bind_eq_ok.1 h
    obtain ⟨_, -, h⟩ := bind_eq_ok.1 h
    exact shows_link hk (redirect?_jalr hk hj ho (register_eq_ok hc)) h

theorem shows_plan (h : o.plan r m pc = .ok p) : o.Shows r pc p := by
  unfold plan at h
  dsimp only at h
  split at h
  · cases h
  · split at h
    · next hk _ => exact steady_register.shows hk (by decide) (by decide) h
    · next hk _ => exact steady_immediate.shows hk (by decide) (by decide) h
    · next hk _ => exact steady_load.shows hk (by decide) (by decide) h
    · next hk _ => exact steady_store.shows hk (by decide) (by decide) h
    · next hk ho => exact shows_branch hk ho h
    · next hk _ => exact steady_upper.shows hk (by decide) (by decide) h
    · next hk ho => exact shows_jump hk ho h
    · cases h

end Order

end Datapath
