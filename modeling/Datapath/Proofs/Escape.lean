import Datapath.Proofs.Reachable

/-! Steps that escape. An instruction stores before its trace text is written, so an escape that
comes from the text finds the store done. Only a register can be stored to in that way, for the
texts of loads and stores can always be written. -/

set_option autoImplicit false

namespace Datapath

namespace Order

variable {o : Order} {r : Registers} {m : DataMemory} {pc : Int} {p : Plan}

theorem write_offset {i : Fin 32} {offset : Int} {index : Nat} (hw : HoldsWords r m.words)
    (hs : (m.size : Int) < DataMemory.indexLimit) (h : m.index (r.get i + offset) = .ok index) :
    Decimal.write offset = .ok (Decimal.shown offset) := by
  have hl := Word.signed_lower (r.get i)
  have hu := Word.signed_upper (r.get i)
  rw [hw.registers] at hl hu
  unfold DataMemory.index at h
  unfold DataMemory.indexLimit at hs
  dsimp only at h
  split at h
  · exact Decimal.write_of_lt (by omega)
  · cases h

/-- The classes of the instructions that store into a register and write an integer of any size
into their trace text. -/
def unboundedKinds : List ExecClass := [.immediate, .upper, .jump]

theorem write_of_message_error (hw : HoldsWords r m.words)
    (hs : (m.size : Int) < DataMemory.indexLimit) (h : o.plan r m pc = .ok p)
    {e : Decimal.LimitError} (he : p.message = .error e) :
    p.write = .nothing ∨ o.kind ∈ unboundedKinds ∧ ∃ rd v, p.write = .register rd v := by
  have hcase := planCase_plan h
  generalize o.operands = operands at hcase
  cases hcase with
  | register _ _ _ _ _ ht => cases ht.symm.trans he
  | load _ hi _ _ _ ht | store _ hi _ _ _ ht =>
    rw [write_offset hw hs hi] at ht
    cases ht.symm.trans he
  | branch _ hwrite | halt _ _ hwrite => exact .inl hwrite
  | immediate hk _ hwrite => exact .inr ⟨by simp [hk, unboundedKinds], _, _, hwrite⟩
  | upper hk hwrite | jump hk hwrite => exact .inr ⟨by simp [hk, unboundedKinds], _, _, hwrite⟩

end Order

theorem Instruction.write_of_message_error {i : Instruction} {r : Registers} {m : DataMemory}
    {pc : Int} {p : Plan} (hw : HoldsWords r m.words) (hs : (m.size : Int) < DataMemory.indexLimit)
    (h : i.plan r m pc = .ok p) {e : Decimal.LimitError} (he : p.message = .error e) :
    p.write = .nothing ∨
      (∃ kind ∈ Order.unboundedKinds, i.kind = some kind) ∧ ∃ rd v, p.write = .register rd v := by
  unfold plan at h
  split at h
  · cases h
  · next o ho =>
    exact (Order.write_of_message_error hw hs h he).imp_right fun hk =>
      ⟨⟨o.kind, hk.1, kind_of_order? ho⟩, hk.2⟩

namespace Machine

open Outcome (bind_eq_ok)

variable {m m' : Machine} {e : Escape}

/-- The machines are the same but for what a step does to them before it stores anything. -/
def Begins (m m' : Machine) : Prop :=
  m' = { m with lastRegister := none, lastMemory := none, phase := .executing,
                current := m'.current, steps := m'.steps }

theorem step_eq_error (h : m.step = (.error e, m')) :
    m.Begins m' ∧ (∀ line i p, m.fetch = some line → line.parsed = some i →
        i.plan m.registers m.memory m.pc ≠ .ok p) ∨
      ∃ line i p e', m.fetch = some line ∧ line.parsed = some i ∧
        i.plan m.registers m.memory m.pc = .ok p ∧ p.message = .error e' ∧
        m' = (m.take line).apply p.write := by
  have hsame : ∀ {line line' : Slot} {i i' : Instruction}, m.fetch = some line →
      line.parsed = some i → m.fetch = some line' → line'.parsed = some i' → i' = i := by
    intro line line' i i' hf hi hf' hi'
    cases hf.symm.trans hf'
    cases hi.symm.trans hi'
    rfl
  have hcase := m.stepCase_step
  rw [h] at hcase
  cases hcase with
  | lost _ hf => exact .inl ⟨rfl, fun _ _ _ hf' => nomatch hf.symm.trans hf'⟩
  | unplanned hf hi hp | unnamed hf hi hp =>
    refine .inl ⟨rfl, fun _ _ _ hf' hi' hp' => ?_⟩
    cases hsame hf hi hf' hi'
    cases hp.symm.trans hp'
  | untold hf hi hp ht => exact .inr ⟨_, _, _, _, hf, hi, hp, ht, rfl⟩

/-- The step of the machine stores a word in a register other than zero, and then it cannot write
its trace text. -/
def Torn (m : Machine) (rd : Fin 32) (v : Int) : Prop :=
  ∃ line i p e, m.fetch = some line ∧ line.parsed = some i ∧
    i.plan m.registers m.memory m.pc = .ok p ∧ p.write = .register rd v ∧ rd.val ≠ 0 ∧
    p.message = .error e

variable {rd : Fin 32} {v : Int}

theorem Torn.step_eq (h : m.Torn rd v) :
    ∃ line e, m.step = (.error (.limit e), (m.take line).apply (.register rd v)) := by
  obtain ⟨line, i, p, e, hf, hi, hp, hw, -, he⟩ := h
  have hp' : i.plan (m.take line).registers (m.take line).memory (m.take line).pc = .ok p := hp
  have hx : (m.take line).execute line i = (.error (.limit e), (m.take line).apply p.write) := by
    simp only [execute, hp', he]
  exact ⟨line, e, by rw [step_of_parsed hf hi, hx, hw]⟩

theorem escape_step (hm : m.Sound) (hs : m.Fitted) (h : m.step = (.error e, m')) :
    m.Begins m' ∧ (∀ rd v, ¬ m.Torn rd v) ∨
      ∃ line rd v, m.Torn rd v ∧ m' = (m.take line).apply (.register rd v) := by
  obtain ⟨hbegins, hp⟩ | ⟨line, i, p, e', hf, hi, hp, he, rfl⟩ := step_eq_error h
  · refine .inl ⟨hbegins, ?_⟩
    rintro rd v ⟨_, _, p, _, hf, hi, hp', -⟩
    exact hp _ _ p hf hi hp'
  · have hsame : ∀ rd v, m.Torn rd v → p.write = .register rd v ∧ rd.val ≠ 0 := by
      rintro rd v ⟨_, _, _, _, hf', hi', hp', hw, h0, -⟩
      cases hf.symm.trans hf'
      cases hi.symm.trans hi'
      cases hp.symm.trans hp'
      exact ⟨hw, h0⟩
    rcases Instruction.write_of_message_error hm hs.counted hp he with hw | ⟨-, rd, v, hw⟩
    · rw [hw]
      refine .inl ⟨rfl, fun rd v ht => ?_⟩
      cases hw.symm.trans (hsame rd v ht).1
    · by_cases h0 : rd.val = 0
      · -- Register zero keeps its value.
        have hset : m.registers.set rd v = m.registers := if_pos (Fin.ext h0)
        refine .inl ⟨?_, fun rd' v' ht => ?_⟩
        · simp only [Begins, hw, apply, h0, take, enter, hset, ↓reduceIte]
        · obtain ⟨hw', h0'⟩ := hsame rd' v' ht
          cases hw.symm.trans hw'
          exact h0' h0
      · exact .inr ⟨line, rd, v, ⟨line, i, p, e', hf, hi, hp, hw, h0, he⟩, hw ▸ rfl⟩

theorem Torn.of_jump {line : Slot} {l t : String} (hf : m.fetch = some line)
    (hi : line.parsed = some ⟨Opcode.jal.name, [some rd, some v]⟩) (h0 : rd.val ≠ 0)
    (hv : Decimal.write v = .ok t) (hl : Decimal.write (m.pc + 4) = .ok l)
    (hpos : 0 ≤ m.pc + v) (hdvd : (m.pc + v) % 4 = 0) {e : Decimal.LimitError}
    (he : Decimal.write (m.pc + v) = .error e) : m.Torn rd (m.pc + 4) := by
  have hrd : Order.register (some rd) = .ok rd := by
    have hlt : (rd.val : Int) < 32 := by omega
    simp [Order.register, Registers.check, Except.mapError, hlt]
  have hlimited : Order.limited (Decimal.write v) = .ok t := by
    rw [hv]
    rfl
  have htarget : ∀ o : Order, o.alignedTarget (m.pc + v) = .ok () := fun o => if_neg (by omega)
  let o : Order := ⟨.jal, .jump, Opcode.jal.name, [some rd, some v]⟩
  obtain ⟨p, hp, hw, hm⟩ : ∃ p, o.planJump m.registers m.pc (some rd) (some v) [] = .ok p ∧
      p.write = .register rd (m.pc + 4) ∧ p.message = .error e := by
    refine ⟨_, bind_eq_ok.2 ⟨rd, hrd, bind_eq_ok.2 ⟨v, rfl, bind_eq_ok.2 ⟨t, hlimited,
      bind_eq_ok.2 ⟨(), htarget o, rfl⟩⟩⟩⟩, rfl, ?_⟩
    rw [hl, he]
    rfl
  exact ⟨line, _, p, e, hf, hi, hp, hw, h0, hm⟩

theorem Torn.unique {rd' : Fin 32} {v' : Int} (h : m.Torn rd v) (h' : m.Torn rd' v') :
    rd = rd' ∧ v = v' := by
  obtain ⟨_, _, _, _, hf, hi, hp, hw, -⟩ := h
  obtain ⟨_, _, _, _, hf', hi', hp', hw', -⟩ := h'
  cases hf.symm.trans hf'
  cases hi.symm.trans hi'
  cases hp.symm.trans hp'
  cases hw.symm.trans hw'
  exact ⟨rfl, rfl⟩

theorem Torn.kind (hm : m.Sound) (hs : m.Fitted) (h : m.Torn rd v) :
    ∃ line i kind, m.fetch = some line ∧ line.parsed = some i ∧ i.kind = some kind ∧
      kind ∈ Order.unboundedKinds := by
  obtain ⟨line, i, p, e, hf, hi, hp, hw, -, he⟩ := h
  rcases Instruction.write_of_message_error hm hs.counted hp he with hw' | ⟨⟨kind, hk, hki⟩, -⟩
  · cases hw.symm.trans hw'
  · exact ⟨line, i, kind, hf, hi, hki, hk⟩

end Machine

namespace Session

/-- A step that escapes leaves the program counter, the memory with its events and the control lines
as they were. It leaves the registers as they were as well, unless it is torn: then its instruction
has an immediate operand of any size or jumps, and its one store has been made. -/
theorem step_escape {s : Session} (hs : s.Reachable) {e : Escape} {m : Machine}
    (h : s.machine.step = (.error e, m)) :
    m.pc = s.machine.pc ∧ m.memory = s.machine.memory ∧ m.lastMemory = none ∧
      m.signals = s.machine.signals ∧
      ((∀ rd v, ¬ s.machine.Torn rd v) →
        m.registers = s.machine.registers ∧ m.lastRegister = none) ∧
      ∀ rd v, s.machine.Torn rd v →
        m.registers = s.machine.registers.set rd v ∧ m.lastRegister = some rd ∧
        ∃ line i kind, s.machine.fetch = some line ∧ line.parsed = some i ∧ i.kind = some kind ∧
          kind ∈ [.immediate, .upper, .jump] := by
  obtain ⟨hbegins, hno⟩ | ⟨line, rd, v, ht, rfl⟩ := Machine.escape_step hs.sound hs.fitted h
  · rw [hbegins]
    exact ⟨rfl, rfl, rfl, rfl, fun _ => ⟨rfl, rfl⟩, fun rd v ht => absurd ht (hno rd v)⟩
  · refine ⟨rfl, rfl, rfl, rfl, fun hno => absurd ht (hno rd v), ?_⟩
    intro rd' v' ht'
    obtain ⟨rfl, rfl⟩ := ht.unique ht'
    have h0 : rd.val ≠ 0 := by
      obtain ⟨_, _, _, _, -, -, -, -, h0, -⟩ := ht
      exact h0
    exact ⟨rfl, if_neg h0, ht.kind hs.sound hs.fitted⟩

theorem step_escape_capital :
    ∃ m e m', Machine.create {} = .ok m ∧
      let s := ((ofMachine m).perform (.install (Program.place
        [("ADD x1, x2, x3".toList, some ⟨"ADD".toList, [some 1, some 2, some 3]⟩)]))).2
      s.machine.step = (.error e, m') ∧ m'.pc = s.machine.pc ∧
        m'.memory = s.machine.memory ∧ m'.registers = s.machine.registers ∧
        m'.lastRegister = none := by
  obtain ⟨m, hm⟩ : ∃ m, Machine.create {} = .ok m := ⟨_, rfl⟩
  let c : Command := .install (Program.place
    [("ADD x1, x2, x3".toList, some ⟨"ADD".toList, [some 1, some 2, some 3]⟩)])
  let s := ((ofMachine m).perform c).2
  have hs : s.Reachable := (Reachable.start hm).perform c
  obtain ⟨e, m', hstep⟩ : ∃ e m', s.machine.step = (.error e, m') := by
    cases hm
    exact ⟨_, _, rfl⟩
  have hno : ∀ rd v, ¬ s.machine.Torn rd v := by
    rintro rd v ⟨line, i, p, e', hf, hi, hp, -⟩
    cases hm
    cases hf
    cases hi
    cases hp
  obtain ⟨hpc, hmem, -, -, hkeep, -⟩ := step_escape hs hstep
  exact ⟨m, e, m', hm, hstep, hpc, hmem, hkeep hno⟩

/-- A jump to the least address that is too long to be written. The offset can still be written, so
it is read from a source as well. -/
theorem step_escape_link :
    ∃ m e, Machine.create {} = .ok m ∧
      let offset : Int := Nat.pow 10 Decimal.maxDigits - 4
      let loaded := ((ofMachine m).perform (.install (Program.place
        [("nop".toList, some ⟨"nop".toList, []⟩),
          ("jal x1".toList, some ⟨"jal".toList, [some 1, some offset]⟩)]))).2
      let s := (loaded.perform .step).2
      s.machine.step.1 = .error e ∧ s.machine.registers.get 1 = 0 ∧
        s.machine.step.2.registers.get 1 = 8 ∧ s.machine.step.2.lastRegister = some 1 := by
  obtain ⟨m, hm⟩ : ∃ m, Machine.create {} = .ok m := ⟨_, rfl⟩
  have hdvd : ∀ k, 2 ≤ k → 100 ∣ Nat.pow 10 k := fun _ => Nat.pow_dvd_pow 10
  have hhundred := hdvd Decimal.maxDigits (by decide)
  have hpow : ∀ k, 0 < Nat.pow 10 k := fun k => Nat.pow_pos (by decide)
  have hpos := hpow Decimal.maxDigits
  have hlt := @Decimal.write_of_lt_pow
  have hle := @Decimal.write_of_pow_le
  -- From here on the power is known only by its numeral and as a multiple of a hundred.
  generalize Nat.pow 10 Decimal.maxDigits = n at *
  obtain ⟨s, hs⟩ : ∃ s : Session, s = (((ofMachine m).perform (.install (Program.place
      [("nop".toList, some ⟨"nop".toList, []⟩),
        ("jal x1".toList, some ⟨"jal".toList, [some 1, some ((n : Int) - 4)]⟩)]))).2.perform
          .step).2 := ⟨_, rfl⟩
  obtain ⟨hf, hpc, h1⟩ : s.machine.fetch = some ⟨"jal x1".toList, 4,
      some ⟨Opcode.jal.name, [some ((1 : Fin 32).val : Int), some ((n : Int) - 4)]⟩⟩ ∧
      s.machine.pc = 4 ∧ s.machine.registers.get 1 = 0 := by
    cases hm
    cases hs
    exact ⟨rfl, rfl, rfl⟩
  have ht : s.machine.Torn 1 (s.machine.pc + 4) :=
    .of_jump hf rfl (by decide) (hlt (by omega)) (hlt (by omega)) (by omega) (by omega)
      (hle (by omega))
  obtain ⟨line, e, hstep⟩ := ht.step_eq
  refine ⟨m, .limit e, hm, ?_⟩
  intro offset loaded s'
  obtain rfl : s' = s := hs.symm
  rw [hstep]
  have h8 : (s'.machine.registers.set 1 (s'.machine.pc + 4)).get 1 = 8 := by
    rw [Registers.get_set, hpc]
    rfl
  exact ⟨rfl, h1, h8, rfl⟩

end Session

end Datapath
