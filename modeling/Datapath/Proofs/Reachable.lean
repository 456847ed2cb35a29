import Datapath.Proofs.Path
import Datapath.Proofs.StepCase

set_option autoImplicit false

namespace Datapath

/-- The states that commands lead to, from that of a new machine. -/
inductive Session.Reachable : Session → Prop
  | start {c : Settings} {host : Host} {m : Machine} : Machine.create c host = .ok m →
      Reachable (.ofMachine m)
  | perform {s : Session} (c : Command) : Reachable s → Reachable (s.perform c).2

structure HoldsWords (r : Registers) (words : Array Int) : Prop where
  zero : r.get 0 = 0
  registers : ∀ i, Word.signed (r.get i) = r.get i
  memory : ∀ v ∈ words, Word.signed v = v

namespace HoldsWords

variable {r : Registers} {words : Array Int}

theorem signed_zero : Word.signed 0 = 0 := Word.signed_of_bounds (by decide) (by decide)

theorem signed_of_mem_replicate {n : Nat} {v : Int} (h : v ∈ Array.replicate n 0) :
    Word.signed v = v := by
  rw [(Array.mem_replicate.1 h).2, signed_zero]

theorem signed_get_zero (i : Fin 32) :
    Word.signed (Registers.zero.get i) = Registers.zero.get i := by
  rw [Registers.get_zero, signed_zero]

theorem clearMemory (h : HoldsWords r words) (n : Nat) : HoldsWords r (Array.replicate n 0) :=
  ⟨h.zero, h.registers, fun _ => signed_of_mem_replicate⟩

theorem clearRegisters (h : HoldsWords r words) : HoldsWords .zero words :=
  ⟨Registers.get_zero 0, signed_get_zero, h.memory⟩

theorem clear (n : Nat) : HoldsWords .zero (Array.replicate n 0) :=
  ⟨Registers.get_zero 0, signed_get_zero, fun _ => signed_of_mem_replicate⟩

theorem set (h : HoldsWords r words) (rd : Fin 32) (v : Int) : HoldsWords (r.set rd v) words := by
  refine ⟨?_, ?_, h.memory⟩
  · have hz : ¬ (rd = 0 ∧ rd ≠ 0) := fun hr => hr.2 hr.1
    rw [Registers.get_set, if_neg hz, h.zero]
  · intro i
    rw [Registers.get_set]
    split
    · rw [Word.signed_signed]
    · exact h.registers i

theorem store (h : HoldsWords r words) (i : Nat) (v : Int) :
    HoldsWords r (words.setIfInBounds i (Word.signed v)) := by
  refine ⟨h.zero, h.registers, ?_⟩
  intro w hw
  cases Array.mem_or_eq_of_mem_setIfInBounds hw with
  | inl hw => exact h.memory w hw
  | inr hw => rw [hw, Word.signed_signed]

theorem preload {m : DataMemory} (h : HoldsWords r m.words) (index : Int) (vs : List Int) :
    HoldsWords r (m.preload index vs).2.words := by
  induction vs generalizing m index with
  | nil => exact h
  | cons v vs ih =>
    unfold DataMemory.preload
    split
    · exact ih (h.store index.toNat v) (index + 1)
    · exact h

end HoldsWords

theorem DataMemory.create_eq_ok {size space : Int} {m : DataMemory}
    (h : create size space = .ok m) :
    m = ⟨Array.replicate size.toNat 0, [], []⟩ ∧ 0 < size ∧ size < indexLimit := by
  unfold create at h
  split at h
  · cases h
  · split at h
    · cases h
    · split at h
      · cases h
      · cases h
        exact ⟨rfl, by omega, by omega⟩

namespace Machine

/-- The registers and the memory of the machine hold words. -/
def Sound (m : Machine) : Prop := HoldsWords m.registers m.memory.words

variable {m : Machine}

theorem sound_create {c : Settings} {host : Host} (h : create c host = .ok m) : m.Sound := by
  obtain ⟨memory, hm, h⟩ := Outcome.bind_eq_ok.1 h
  obtain ⟨trace, -, h⟩ := Outcome.bind_eq_ok.1 h
  cases h
  obtain ⟨rfl, -⟩ := DataMemory.create_eq_ok (Outcome.mapError_eq_ok.1 hm)
  exact HoldsWords.clear _

theorem Sound.apply (h : m.Sound) (w : Write) : (m.apply w).Sound := by
  cases w with
  | nothing => exact h
  | register rd v => exact HoldsWords.set h rd v
  | memory i v => exact HoldsWords.store h i v

theorem Sound.step (h : m.Sound) : m.step.2.Sound := by
  obtain ⟨w, hw⟩ := m.storage_step
  have hr : m.step.2.registers = (m.apply w).registers := congrArg (·.1) hw
  have hm : m.step.2.memory = (m.apply w).memory := congrArg (·.2.1) hw
  unfold Sound
  rw [hr, hm]
  exact h.apply w

theorem Sound.finish (h : m.Sound) (r : Run) (reason : RunEnd) : (m.finish r reason).Sound := by
  unfold Machine.finish
  split
  · dsimp only
    split <;> exact h
  · exact h

theorem Sound.stop (h : m.Sound) : m.stop.Sound := by
  unfold Machine.stop
  split <;> exact h

end Machine

theorem DataMemory.perform_words {r : Registers} {m : DataMemory} (h : HoldsWords r m.words)
    (c : MemoryCommand) : HoldsWords r (m.perform c).2.words := by
  cases c with
  | write a v =>
    simp only [DataMemory.perform, DataMemory.write]
    cases m.index a with
    | error e => exact h
    | ok i => exact h.store i v
  | «at» i =>
    simp only [DataMemory.perform]
    cases m.at? i <;> exact h
  | preload words i => exact h.preload i words
  | reset => exact h.clearMemory m.size
  | _ => exact h

theorem Registers.perform_words {r : Registers} {words : Array Int} (h : HoldsWords r words)
    (c : RegisterCommand) : HoldsWords (r.perform c).2 words := by
  cases c with
  | write i v =>
    simp only [Registers.perform, Registers.write]
    cases Registers.check (some i) with
    | error e => exact h
    | ok rd => exact h.set rd v
  | reset => exact h.clearRegisters
  | _ => exact h

theorem Machine.Sound.move {m m' : Machine} (hm : Move m m') (h : m.Sound) : m'.Sound := by
  cases hm with
  | edit he =>
    cases he with
    | registers c => exact Registers.perform_words h c
    | memory c => exact DataMemory.perform_words h c
    | note => exact h
    | close => exact h
  | stop => exact h.stop
  | reset => exact HoldsWords.clear m.memory.size
  | install p => exact HoldsWords.clear m.memory.size
  | announce => exact h
  | finish r => exact h.finish r _

theorem Session.perform_sound {s : Session} (h : s.machine.Sound) (c : Command) :
    (s.perform c).2.machine.Sound :=
  (s.path_perform c).keeps (fun _ => Machine.Sound.step) (fun _ _ => Machine.Sound.move) h

theorem Session.Reachable.sound {s : Session} (h : s.Reachable) : s.machine.Sound := by
  induction h with
  | start hc => exact Machine.sound_create hc
  | perform c _ ih => exact Session.perform_sound ih c

namespace DataMemory

theorem size_store (m : DataMemory) (i : Nat) (v : Int) : (m.store i v).size = m.size :=
  Array.size_setIfInBounds

theorem size_preload (m : DataMemory) (index : Int) (vs : List Int) :
    (m.preload index vs).2.size = m.size := by
  induction vs generalizing m index with
  | nil => rfl
  | cons v vs ih =>
    unfold preload
    split
    · rw [ih]
      exact Array.size_setIfInBounds
    · rfl

theorem size_reset (m : DataMemory) : m.reset.size = m.size := Array.size_replicate

theorem size_perform (m : DataMemory) (c : MemoryCommand) : (m.perform c).2.size = m.size := by
  cases c with
  | write a v =>
    simp only [perform, write]
    cases m.index a with
    | error e => rfl
    | ok i => exact m.size_store i v
  | «at» i =>
    simp only [perform]
    cases m.at? i <;> rfl
  | preload words i => exact m.size_preload i words
  | reset => exact m.size_reset
  | _ => rfl

end DataMemory

namespace Machine

def extent (m : Machine) : Settings × Nat := (m.settings, m.memory.size)

theorem extent_apply (m : Machine) (w : Write) : (m.apply w).extent = m.extent := by
  cases w with
  | memory i v => exact congrArg (Prod.mk m.settings) (m.memory.size_store i v)
  | _ => rfl

theorem extent_step (m : Machine) : m.step.2.extent = m.extent := by
  have h := m.stepEnd_step
  generalize m.step = x at h ⊢
  cases h with
  | past | lost => rfl
  | @escape line _ w => exact extent_apply (m.take line) w
  | @proceed line _ _ _ _ _ w => exact extent_apply (m.take line) w
  | halt => rfl

theorem extent_finish (m : Machine) (r : Run) (reason : RunEnd) :
    (m.finish r reason).extent = m.extent := by
  unfold finish
  split
  · dsimp only
    split <;> rfl
  · rfl

theorem Move.extent_eq {m m' : Machine} (h : Move m m') : m'.extent = m.extent := by
  cases h with
  | edit he =>
    cases he with
    | memory c => exact congrArg (Prod.mk m.settings) (m.memory.size_perform c)
    | _ => rfl
  | stop => unfold Machine.stop; split <;> rfl
  | reset => exact congrArg (Prod.mk m.settings) m.memory.size_reset
  | install p => exact congrArg (Prod.mk m.settings) m.memory.size_reset
  | announce => rfl
  | finish r => exact extent_finish m r _

/-- The memory has the size of the settings, and its words can be counted. -/
structure Fitted (m : Machine) : Prop where
  size : (m.memory.size : Int) = m.settings.memoryWords
  counted : (m.memory.size : Int) < DataMemory.indexLimit

theorem fitted_create {c : Settings} {host : Host} {m : Machine} (h : create c host = .ok m) :
    m.Fitted := by
  obtain ⟨memory, hm, h⟩ := Outcome.bind_eq_ok.1 h
  obtain ⟨trace, -, h⟩ := Outcome.bind_eq_ok.1 h
  cases h
  obtain ⟨rfl, hpos, hcounted⟩ := DataMemory.create_eq_ok (Outcome.mapError_eq_ok.1 hm)
  have hsize : ((Array.replicate c.memoryWords.toNat (0 : Int)).size : Int) = c.memoryWords := by
    rw [Array.size_replicate]
    omega
  exact ⟨hsize, lt_of_eq_of_lt hsize hcounted⟩

theorem Fitted.congr {m m' : Machine} (h : m.Fitted) (he : m'.extent = m.extent) : m'.Fitted := by
  have hs : m'.settings = m.settings := congrArg Prod.fst he
  have hn : m'.memory.size = m.memory.size := congrArg Prod.snd he
  exact ⟨by rw [hn, hs, h.size], by rw [hn]; exact h.counted⟩

end Machine

theorem Session.extent_perform (s : Session) (c : Command) :
    (s.perform c).2.machine.extent = s.machine.extent :=
  (s.path_perform c).keeps (P := fun m => m.extent = s.machine.extent)
    (fun m hm => m.extent_step.trans hm) (fun _ _ hmove hm => hmove.extent_eq.trans hm) rfl

theorem Session.Reachable.fitted {s : Session} (h : s.Reachable) : s.machine.Fitted := by
  induction h with
  | start hc => exact Machine.fitted_create hc
  | @perform s c _ ih => exact ih.congr (s.extent_perform c)

end Datapath
