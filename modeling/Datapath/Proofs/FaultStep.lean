import Mathlib.Data.List.DropRight
import Datapath.Proofs.Reachable

set_option autoImplicit false

namespace Datapath

namespace Trace

variable {l : Trace}

theorem rtake_of_length_le {α : Type} {n : Nat} {xs : List α} (h : xs.length ≤ n) :
    xs.rtake n = xs := by
  rw [List.rtake, Nat.sub_eq_zero_of_le h, List.drop_zero]

/-- The log is the tail of the earlier entries and the new one, as long as there is room. -/
theorem toList_add (l : Trace) (e : Remark) :
    (l.add e).entries.toList = (l.entries.toList ++ [l.stamp e]).rtake l.capacity := by
  have hb := l.bounded
  unfold add
  dsimp only
  split
  · next hroom =>
    have hlen : (l.entries.toList ++ [l.stamp e]).length ≤ l.capacity := by simp; omega
    rw [rtake_of_length_le hlen, Array.toList_push]
  · next hfull =>
    have hone : (l.entries.toList ++ [l.stamp e]).length - l.capacity = 1 := by
      simp only [List.length_append, Array.length_toList, List.length_singleton]
      omega
    have hdrop : ((l.entries.push (l.stamp e)).extract 1).toList
        = (l.entries.toList ++ [l.stamp e]).drop 1 := by
      rw [Array.toList_extract, List.extract_eq_take_drop, Array.toList_push,
        List.take_of_length_le (by simp)]
    rw [List.rtake, hone, hdrop]

@[simp] theorem capacity_add (l : Trace) (e : Remark) : (l.add e).capacity = l.capacity := by
  unfold add
  dsimp only
  split <;> rfl

@[simp] theorem clock_add (l : Trace) (e : Remark) : (l.add e).clock = l.clock := by
  unfold add
  dsimp only
  split <;> rfl

@[simp] theorem made_add (l : Trace) (e : Remark) : (l.add e).made = l.made + 1 := by
  unfold add
  dsimp only
  split <;> rfl

end Trace

namespace Machine

variable {m m' : Machine} {r : StepReport}

theorem plan_of_answer {line : Slot} {i : Instruction} (h : m.step.1 = .ok r)
    (hf : m.fetch = some line) (hi : line.parsed = some i) :
    (∃ f, i.plan m.registers m.memory m.pc = .error (.fault f) ∧ r.fault = some f.name) ∨
      ∃ p, i.plan m.registers m.memory m.pc = .ok p ∧ r.fault = none := by
  have hsame : ∀ {line' i'}, m.fetch = some line' → line'.parsed = some i' → i' = i := by
    intro line' i' hf' hi'
    cases hf.symm.trans hf'
    cases hi.symm.trans hi'
    rfl
  have hcase := m.stepCase_step
  generalize m.step = x at hcase h
  cases hcase with
  | past hover => cases hover.symm.trans (not_finished_of_fetch hf)
  | blank hf' hi' =>
    cases hf.symm.trans hf'
    cases hi.symm.trans hi'
  | fault hf' hi' hp =>
    cases hsame hf' hi'
    cases h
    exact .inl ⟨_, hp, rfl⟩
  | halt hf' hi' hp | proceed hf' hi' hp =>
    cases hsame hf' hi'
    cases h
    exact .inr ⟨_, hp, rfl⟩
  | lost | unplanned | unnamed | untold => cases h

/-- A step that reports a fault leaves the registers and the memory with its events alone. It moves
on to the next line, shows no store and no control line, and logs its text as one error. -/
theorem step_fault {name : String} (h : m.step = (.ok r, m')) (hf : r.fault = some name) :
    (∃ f : Fault, name = f.name) ∧ m'.registers = m.registers ∧ m'.memory = m.memory ∧
      m'.program = m.program ∧ m'.pc = m.pc + 4 ∧ m'.lastRegister = none ∧ m'.lastMemory = none ∧
      m'.signals = .idle ∧ m'.steps = m.steps + 1 ∧ m'.running = m.running ∧
      m'.breakpoints = m.breakpoints ∧
      m'.phase = (if (m.program.length : Int) ≤ m'.pc / 4 then .finished else .ready) ∧
      m'.trace.entries.toList = (m.trace.entries.toList
        ++ [m.trace.stamp ⟨r.message, TraceEntry.error⟩]).rtake m.trace.capacity ∧
      m'.trace.capacity = m.trace.capacity ∧ m'.trace.clock = m.trace.clock ∧
      m'.trace.made = m.trace.made + 1 ∧ r = m'.report r.message (some name) := by
  have hcase := m.stepCase_step
  rw [h] at hcase
  cases hcase with
  | past | blank | halt | proceed => cases hf
  | @fault line _ f =>
    cases hf
    refine ⟨⟨f, rfl⟩, rfl, rfl, rfl, rfl, rfl, rfl, rfl, rfl, rfl, rfl, ?_,
      m.trace.toList_add _, m.trace.capacity_add _, m.trace.clock_add _, m.trace.made_add _, rfl⟩
    have hphase : ∀ m : Machine, m.settle.phase
        = if (m.program.length : Int) ≤ m.pc / 4 then .finished else .ready := fun m => by
      simp [settle, finished]
    exact hphase _

theorem step_fault_target :
    ∃ m m' r, create {} = .ok m ∧
      let loaded := (m.load "jal x1, 6".toList).2
      loaded.step = (.ok r, m') ∧ r.fault = some "InvalidBranchTarget" ∧
        m'.registers = loaded.registers ∧ m'.pc = loaded.pc + 4 ∧
        m'.trace.entries.toList = (loaded.trace.entries.toList
          ++ [loaded.trace.stamp ⟨r.message, TraceEntry.error⟩]).rtake 50 := by
  obtain ⟨m, hm⟩ : ∃ m, create {} = .ok m := ⟨_, rfl⟩
  obtain ⟨r, m', hstep, hfault⟩ : ∃ r m', (m.load "jal x1, 6".toList).2.step = (.ok r, m') ∧
      r.fault = some "InvalidBranchTarget" := by
    cases hm
    exact ⟨_, _, rfl, rfl⟩
  obtain ⟨-, hregisters, -, -, hpc, -, -, -, -, -, -, -, htrace, -, -, -, -⟩ :=
    step_fault hstep hfault
  have hcapacity : (m.load "jal x1, 6".toList).2.trace.capacity = 50 := by
    cases hm
    rfl
  rw [hcapacity] at htrace
  exact ⟨m, m', r, hm, hstep, hfault, hregisters, hpc, htrace⟩

end Machine

theorem Trace.rtake_append_rtake {α : Type} (n : Nat) (xs ys : List α) :
    (xs.rtake n ++ ys).rtake n = (xs ++ ys).rtake n := by
  have hdrop : xs.rtake n ++ ys = (xs ++ ys).drop (xs.length - n) := by
    rw [List.rtake, List.drop_append_of_le_length (by omega)]
  rw [hdrop, List.rtake, List.rtake, List.drop_drop, List.length_drop, List.length_append]
  congr 1
  omega

namespace Machine

variable {m m' : Machine} {r : StepReport} {rs : List StepReport} {n : Nat}

/-- The entry that belongs to a step: it has the text of the report and the time of the step, and it
is an error when the step faults or finds that the program is over. -/
structure Logs (m : Machine) (r : StepReport) (e : TraceEntry) : Prop where
  message : e.message = r.message
  kind : e.kind = TraceEntry.error ↔ r.fault ≠ none ∨ m.finished = true
  time : e.time = m.trace.clock m.trace.made

theorem trace_apply (m : Machine) (w : Write) : (m.apply w).trace = m.trace := by cases w <;> rfl

theorem trace_step (h : m.step = (.ok r, m')) :
    ∃ e, m.Logs r (m.trace.stamp e) ∧ m'.trace = m.trace.add e := by
  have hquiet : ∀ {line}, m.fetch = some line →
      ¬ ((none : Option String) ≠ none ∨ m.finished = true) := fun hf => by
    simp [not_finished_of_fetch hf]
  have hinfo : TraceEntry.info ≠ TraceEntry.error := by decide
  have hsuccess : TraceEntry.success ≠ TraceEntry.error := by decide
  have hcase := m.stepCase_step
  rw [h] at hcase
  cases hcase with
  | past hf => exact ⟨_, ⟨rfl, iff_of_true rfl (.inr hf), rfl⟩, rfl⟩
  | blank hf =>
    exact ⟨⟨_, TraceEntry.info⟩, ⟨rfl, iff_of_false hinfo (hquiet hf), rfl⟩, rfl⟩
  | fault => exact ⟨_, ⟨rfl, iff_of_true rfl (.inl (Option.some_ne_none _)), rfl⟩, rfl⟩
  | @halt line _ p text hf | @proceed line _ p text hf =>
    exact ⟨⟨text, TraceEntry.success⟩, ⟨rfl, iff_of_false hsuccess (hquiet hf), rfl⟩,
      congrArg (fun l : Trace => l.add ⟨text, _⟩) (trace_apply (m.take line) p.write)⟩

/-- Several steps add one entry each, in their order, to what is left of the earlier ones. -/
theorem trace_stepMany (h : m.stepMany n = (.ok rs, m')) :
    ∃ es, List.Forall₂ (fun x e => x.1.Logs x.2 e) ((m.trail n).zip rs) es ∧
      rs.length = n ∧ (m.trail n).length = n ∧ m'.trace.capacity = m.trace.capacity ∧
      m'.trace.entries.toList = (m.trace.entries.toList ++ es).rtake m.trace.capacity := by
  induction n generalizing m rs with
  | zero =>
    cases h
    have hall : m'.trace.entries.toList.rtake m'.trace.capacity = m'.trace.entries.toList :=
      Trace.rtake_of_length_le m'.trace.bounded
    exact ⟨[], .nil, rfl, rfl, rfl, by rw [List.append_nil, hall]⟩
  | succ n ih =>
    unfold stepMany at h
    rcases hs : m.step with ⟨_ | first, m₁⟩ <;> rw [hs] at h
    · cases h
    · dsimp only at h
      rcases hrest : m₁.stepMany n with ⟨_ | rest, m₂⟩ <;> rw [hrest] at h <;> cases h
      obtain ⟨e, he, htrace⟩ := trace_step hs
      obtain ⟨es, hes, hlen, htrail, hcapacity, hentries⟩ := ih hrest
      have hm : m.trail (n + 1) = m :: m₁.trail n := by rw [trail, hs]
      rw [htrace, Trace.capacity_add] at hcapacity
      rw [htrace, Trace.capacity_add, Trace.toList_add, Trace.rtake_append_rtake, List.append_assoc,
        List.singleton_append] at hentries
      rw [hm]
      exact ⟨m.trace.stamp e :: es, .cons he hes, by simp [hlen], by simp [htrail], hcapacity,
        hentries⟩

/-- After steps that answer, the log is the tail of the earlier entries and of one entry for each
step, as long as there is room. The entry of a step has the text of its report, and it is an error
exactly when the step faults or finds that the program is over. -/
theorem keeps_last_entries (h : m.stepMany n = (.ok rs, m')) :
    ∃ es : List TraceEntry, es.length = n ∧ rs.length = n ∧
      List.Forall₂ (fun x e => x.1.Logs x.2 e) ((m.trail n).zip rs) es ∧
      m'.trace.capacity = m.trace.capacity ∧
      m'.trace.entries.toList = (m.trace.entries.toList ++ es).rtake m.trace.capacity ∧
      m'.trace.errors = ((m.trace.entries.toList ++ es).rtake m.trace.capacity).filter
        (·.kind = TraceEntry.error) := by
  obtain ⟨es, hes, hreports, htrail, hcapacity, hentries⟩ := trace_stepMany h
  have hlen : es.length = n := by
    rw [← hes.length_eq, List.length_zip, htrail, hreports, Nat.min_self]
  exact ⟨es, hlen, hreports, hes, hcapacity, hentries, by rw [Trace.errors, hentries]⟩

theorem keeps_last_entries_three :
    ∃ m rs m', create { logCapacity := 3 } = .ok m ∧
      let loaded := (m.load "nop\nlw x1, -4(x0)\naddi x2, x0, 3".toList).2
      loaded.stepMany 4 = (.ok rs, m') ∧
        (∃ es, es.length = 4 ∧
          m'.trace.entries.toList = (loaded.trace.entries.toList ++ es).rtake 3) ∧
        m'.trace.entries.toList.map (·.toRemark) =
          [⟨"Error at PC=4 (lw x1, -4(x0)): Memory address out of range: -4 "
              ++ "(word index -1, size 64)", TraceEntry.error⟩,
            ⟨"ADDI x2, x0, 3 -> x2 = 3", TraceEntry.success⟩,
            ⟨"Program finished", TraceEntry.error⟩] := by
  obtain ⟨m, hm⟩ : ∃ m, create { logCapacity := 3 } = .ok m := ⟨_, rfl⟩
  let loaded := (m.load "nop\nlw x1, -4(x0)\naddi x2, x0, 3".toList).2
  obtain ⟨hok, hroom, hlast⟩ : (loaded.stepMany 4).1.isOk = true ∧ loaded.trace.capacity = 3 ∧
      (loaded.stepMany 4).2.trace.entries.toList.map (·.toRemark) =
        [⟨"Error at PC=4 (lw x1, -4(x0)): Memory address out of range: -4 "
            ++ "(word index -1, size 64)", TraceEntry.error⟩,
          ⟨"ADDI x2, x0, 3 -> x2 = 3", TraceEntry.success⟩,
          ⟨"Program finished", TraceEntry.error⟩] := by
    cases hm
    decide +kernel
  rcases hsteps : loaded.stepMany 4 with ⟨_ | rs, m'⟩ <;> rw [hsteps] at hok hlast
  · cases hok
  obtain ⟨es, hlen, -, -, -, hentries, -⟩ := keeps_last_entries hsteps
  rw [hroom] at hentries
  exact ⟨m, rs, m', hm, hsteps, ⟨es, hlen, hentries⟩, hlast⟩

end Machine

end Datapath
