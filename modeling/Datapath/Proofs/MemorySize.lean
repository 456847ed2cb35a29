import Datapath.Proofs.FaultStep
import Datapath.Proofs.Isolation
import Datapath.Proofs.Range
import Datapath.Proofs.Store

set_option autoImplicit false

namespace Datapath

namespace DataMemory

variable {m : DataMemory} {address v : Int} {i k : Nat}

/-- The memory with more words behind its own. -/
def extend (m : DataMemory) (k : Nat) : DataMemory :=
  { m with words := m.words ++ Array.replicate k 0 }

theorem size_extend (m : DataMemory) (k : Nat) : (m.extend k).size = m.size + k := by
  simp [size, extend]

theorem index_extend (h : m.index address = .ok i) : (m.extend k).index address = .ok i := by
  unfold index at h ⊢
  dsimp only at h ⊢
  split at h
  · next hi =>
    cases h
    refine if_pos ⟨hi.1, ?_⟩
    rw [size_extend]
    omega
  · cases h

theorem get_extend (h : i < m.size) : (m.extend k).get i = m.get i := by
  have hi : i < m.words.size := h
  simp [get, extend, Array.getElem?_append_left hi]

theorem store_extend (h : i < m.size) : (m.extend k).store i v = (m.store i v).extend k := by
  have hget : (m.extend k).get i = m.get i := get_extend h
  simp only [store, eventsOf, hget]
  simp [extend, Array.setIfInBounds_append_left h]

end DataMemory

/-- The second result is the first one, unless that one is an address outside the memory. -/
def SameInside {α : Type} (x y : Except Abort α) : Prop :=
  (∃ e, x = .error (.fault (.memoryOutOfBounds e))) ∨ y = x

namespace SameInside

variable {α β : Type}

theorem refl (x : Except Abort α) : SameInside x x := .inr rfl

theorem bind (x : Except Abort α) {f g : α → Except Abort β} (h : ∀ a, SameInside (f a) (g a)) :
    SameInside (x >>= f) (x >>= g) := by
  cases x with
  | error e => exact refl _
  | ok a => exact h a

end SameInside

namespace Order

variable {o : Order} {r : Registers} {m : DataMemory} {pc : Int} {a b c : Option Int} {k : Nat}

theorem planLoad_extend :
    SameInside (o.planLoad r m pc a b c) (o.planLoad r (m.extend k) pc a b c) := by
  refine .bind _ fun rd => .bind _ fun offset => .bind _ fun rs1 => ?_
  dsimp only
  cases hi : m.index (r.get rs1 + offset) with
  | error e => exact .inl ⟨e, rfl⟩
  | ok i =>
    rw [DataMemory.index_extend hi]
    simp only [Except.mapError, Outcome.ok_bind,
      DataMemory.get_extend (DataMemory.lt_size_of_index hi)]
    exact .refl _

theorem planStore_extend :
    SameInside (o.planStore r m pc a b c) (o.planStore r (m.extend k) pc a b c) := by
  refine .bind _ fun rs2 => .bind _ fun offset => .bind _ fun rs1 => ?_
  dsimp only
  cases hi : m.index (r.get rs1 + offset) with
  | error e => exact .inl ⟨e, rfl⟩
  | ok i =>
    rw [DataMemory.index_extend hi]
    exact .refl _

theorem plan_extend : SameInside (o.plan r m pc) (o.plan r (m.extend k) pc) := by
  unfold plan
  dsimp only
  split
  · exact .refl _
  · split <;> first | exact .refl _ | exact planLoad_extend | exact planStore_extend

end Order

theorem Instruction.plan_extend {i : Instruction} {r : Registers} {m : DataMemory} {pc : Int}
    {k : Nat} : SameInside (i.plan r m pc) (i.plan r (m.extend k) pc) := by
  unfold plan
  cases i.order? with
  | none => exact .refl _
  | some o => exact Order.plan_extend

def StepReport.extend (r : StepReport) (k : Nat) : StepReport :=
  { r with memory := r.memory ++ Array.replicate k 0 }

namespace Machine

variable {m : Machine} {k : Nat}

def extend (m : Machine) (k : Nat) : Machine := { m with memory := m.memory.extend k }

theorem apply_extend {w : Write} (h : ∀ i, w.word? = some i → i < m.memory.size) :
    (m.extend k).apply w = (m.apply w).extend k := by
  cases w with
  | nothing | register => rfl
  | memory i v =>
    have hstore := DataMemory.store_extend (k := k) (v := v) (h i rfl)
    simp only [apply, extend, hstore]

theorem execute_extend {line : Slot} {i : Instruction}
    (hi : i.plan m.registers (m.memory.extend k) m.pc = i.plan m.registers m.memory m.pc) :
    (m.extend k).execute line i =
      ((·.extend k) <$> (m.execute line i).1, (m.execute line i).2.extend k) := by
  have hplan : i.plan (m.extend k).registers (m.extend k).memory (m.extend k).pc
      = i.plan m.registers m.memory m.pc := hi
  unfold execute
  rw [hplan]
  cases hp : i.plan m.registers m.memory m.pc with
  | error a =>
    cases a with
    | escape e => rfl
    | fault f =>
      dsimp only
      cases f.message <;> rfl
  | ok p =>
    have happly : (m.extend k).apply p.write = (m.apply p.write).extend k :=
      apply_extend fun j hj => Instruction.lt_size_of_word? hp hj
    dsimp only
    rw [happly]
    cases p.message with
    | error e => rfl
    | ok text =>
      dsimp only
      cases p.halts <;> rfl

theorem step_extend (h : ∀ line i, m.fetch = some line → line.parsed = some i →
      i.plan m.registers (m.memory.extend k) m.pc = i.plan m.registers m.memory m.pc) :
    (m.extend k).step = ((·.extend k) <$> m.step.1, m.step.2.extend k) := by
  cases hf : m.fetch with
  | some line =>
    have hf' : (m.extend k).fetch = some line := hf
    cases hi : line.parsed with
    | none =>
      rw [step_of_blank hf hi, step_of_blank hf' hi]
      rfl
    | some i =>
      rw [step_of_parsed hf hi, step_of_parsed hf' hi]
      exact execute_extend (m := m.take line) (h line i hf hi)
  | none =>
    have hnone : { m with lastRegister := none, lastMemory := none }.fetch = none := hf
    have hnone' : { m.extend k with lastRegister := none, lastMemory := none }.fetch = none := hf
    have hover : { m.extend k with lastRegister := none, lastMemory := none }.finished
        = { m with lastRegister := none, lastMemory := none }.finished := rfl
    simp only [step, hnone, hnone', hover]
    split <;> rfl

/-- A step that answers without an address outside the memory is the step of a larger memory. -/
theorem step_eq_extend {r : StepReport} (h : m.step.1 = .ok r)
    (hfault : r.fault ≠ some "MemoryOutOfBounds") :
    (m.extend k).step = (.ok (r.extend k), m.step.2.extend k) := by
  have hstep : (m.extend k).step = ((·.extend k) <$> m.step.1, m.step.2.extend k) := by
    refine step_extend fun line i hf hi => ?_
    have hgrow : SameInside (i.plan m.registers m.memory m.pc)
        (i.plan m.registers (m.memory.extend k) m.pc) := Instruction.plan_extend
    rcases hgrow with ⟨e, he⟩ | hsame
    · rcases plan_of_answer h hf hi with ⟨f, hp, hname⟩ | ⟨p, hp, -⟩
      · cases he.symm.trans hp
        exact absurd hname hfault
      · cases he.symm.trans hp
    · exact hsame
  rw [hstep, h]
  rfl

theorem stepMany_extend {n : Nat} {rs : List StepReport} (h : (m.stepMany n).1 = .ok rs)
    (hfault : ∀ r ∈ rs, r.fault ≠ some "MemoryOutOfBounds") :
    (m.extend k).stepMany n = (.ok (rs.map (·.extend k)), (m.stepMany n).2.extend k) := by
  induction n generalizing m rs with
  | zero =>
    cases h
    rfl
  | succ n ih =>
    unfold stepMany at h ⊢
    rcases hs : m.step with ⟨_ | first, m'⟩ <;> rw [hs] at h
    · cases h
    · obtain ⟨rest, hrest, rfl⟩ := Outcome.map_eq_ok.1 h
      have hfirst : m.step.1 = .ok first := by rw [hs]
      rw [step_eq_extend hfirst (hfault first (by simp)), hs]
      dsimp only
      rw [ih hrest fun r hr => hfault r (by simp [hr])]
      rfl

theorem words_install_extend {m m' : Machine} (h : m.memory.size ≤ m'.memory.size) (p : Program) :
    ((m.install p).extend (m'.memory.size - m.memory.size)).memory.words
      = (m'.install p).memory.words := by
  have hsum : m.memory.size + (m'.memory.size - m.memory.size) = m'.memory.size := by omega
  exact (Array.replicate_append_replicate.trans (congrArg (Array.replicate · 0) hsum))

theorem alike_install_extend {m m' : Machine} (h : m.memory.size ≤ m'.memory.size) (p : Program) :
    Alike (m'.install p) ((m.install p).extend (m'.memory.size - m.memory.size)) :=
  ⟨rfl, rfl, rfl, (words_install_extend h p).symm, rfl, rfl, rfl, rfl, rfl⟩

end Machine

namespace Session

open Machine

variable {s s' : Session}

/-- A program whose steps answer, and never with an address outside the memory, steps the same with
more memory: every report is the same, with words of zero behind the words of the smaller memory. -/
theorem steps_with_more_memory (hs : s.Reachable) (hs' : s'.Reachable)
    (hwords : s.machine.settings.memoryWords ≤ s'.machine.settings.memoryWords) {p : Program}
    {c c' : Command} (hc : c.Loads p) (hc' : c'.Loads p) {n : Nat} {rs : List StepReport}
    (h : ((s.perform c).2.machine.stepMany n).1 = .ok rs)
    (hfault : ∀ r ∈ rs, r.fault ≠ some "MemoryOutOfBounds") :
    let more := s'.machine.settings.memoryWords - s.machine.settings.memoryWords
    ((s'.perform c').2.machine.stepMany n).1 = .ok (rs.map (·.extend more.toNat)) ∧
      ∀ r ∈ rs, (r.memory.size : Int) = s.machine.settings.memoryWords := by
  have hsize := hs.fitted.size
  have hsize' := hs'.fitted.size
  have hmore : (s'.machine.settings.memoryWords - s.machine.settings.memoryWords).toNat
      = s'.machine.memory.size - s.machine.memory.size := by omega
  have hranged : (s.perform c).2.machine.Ranged s.machine.settings :=
    ranged_perform ⟨hs.sound, hs.fitted, rfl⟩ c
  refine ⟨?_, fun r hr => ?_⟩
  · rw [machine_load hc] at h
    rw [machine_load hc', hmore]
    have hle : s.machine.memory.size ≤ s'.machine.memory.size := by omega
    have halike := alike_install_extend hle p
    rw [(stepCongruence_alike.stepMany halike n).1, stepMany_extend h hfault]
  · exact (hranged.reports h r hr).size

theorem steps_with_more_memory_five :
    ∃ m m' : Machine, ∃ rs, create { memoryWords := 2 } = .ok m ∧
      create { memoryWords := 5, logCapacity := 1 } = .ok m' ∧
      let loaded : Command :=
        .load "addi x1, x0, 7\nsw x1, 6(x0)\nlw x2, 4(x0)\naddi x40, x0, 1".toList
      let s := (ofMachine m).perform loaded
      let s' := (((ofMachine m').perform (.memory (.write 16 9))).2.perform loaded)
      (s.2.machine.stepMany 5).1 = .ok rs ∧ (∀ r ∈ rs, r.fault ≠ some "MemoryOutOfBounds") ∧
        rs.map (·.memory) = [#[0, 0], #[0, 7], #[0, 7], #[0, 7], #[0, 7]] ∧
        (s'.2.machine.stepMany 5).1 = .ok (rs.map (·.extend 3)) := by
  obtain ⟨m, hm⟩ : ∃ m, create { memoryWords := 2 } = .ok m := ⟨_, rfl⟩
  obtain ⟨m', hm'⟩ : ∃ m', create { memoryWords := 5, logCapacity := 1 } = .ok m' := ⟨_, rfl⟩
  let source := "addi x1, x0, 7\nsw x1, 6(x0)\nlw x2, 4(x0)\naddi x40, x0, 1".toList
  obtain ⟨p, hp⟩ : ∃ p, Program.load source = .ok p := ⟨_, rfl⟩
  obtain ⟨rs, hrs, hfault, hmemory⟩ : ∃ rs,
      (((ofMachine m).perform (.load source)).2.machine.stepMany 5).1 = .ok rs ∧
        (∀ r ∈ rs, r.fault ≠ some "MemoryOutOfBounds") ∧
        rs.map (·.memory) = [#[0, 0], #[0, 7], #[0, 7], #[0, 7], #[0, 7]] := by
    cases hm
    exact ⟨_, rfl, by decide, rfl⟩
  have hs : (ofMachine m).Reachable := .start hm
  have hs' : (ofMachine m').Reachable := .start hm'
  have hmore := steps_with_more_memory hs (hs'.perform (.memory (.write 16 9)))
    (by cases hm; cases hm'; decide) (.source hp) (.source hp) hrs hfault
  refine ⟨m, m', rs, hm, hm', hrs, hfault, hmemory, ?_⟩
  cases hm
  cases hm'
  exact hmore.1

end Session

end Datapath
