import Datapath.Proofs.StepCase

/-! The view of a machine is what its program can change. A step of the machine is a step of its
view under the code of the program: the texts, the log, the settings and the breakpoints have no
part in it. -/

set_option autoImplicit false

namespace Datapath

structure View where
  pc : Int
  registers : Registers
  memory : Array Int
  lastRegister : Option (Fin 32)
  lastMemory : Option Nat
  signals : ControlLines
  phase : Phase
  steps : Nat

abbrev Code := List (Option Instruction)

def Program.code (p : Program) : Code := p.lines.map (·.parsed)

/-- A report without its texts. -/
def StepReport.bare (r : StepReport) : StepReport := { r with message := "", source := none }

namespace View

def start (size : Nat) : View where
  pc := 0
  registers := .zero
  memory := Array.replicate size 0
  lastRegister := none
  lastMemory := none
  signals := .idle
  phase := .ready
  steps := 0

def report (v : View) (fault : Option String) : StepReport where
  pc := v.pc
  registers := v.registers
  memory := v.memory
  lastRegister := v.lastRegister
  lastMemory := v.lastMemory
  signals := v.signals
  message := ""
  phase := v.phase
  source := none
  fault := fault

def apply (v : View) : Write → View
  | .nothing => v
  | .register rd x =>
    { v with
      registers := v.registers.set rd x
      lastRegister := if rd.val = 0 then none else some rd }
  | .memory i x =>
    { v with memory := v.memory.setIfInBounds i (Word.signed x), lastMemory := some i }

def advance (v : View) (length : Nat) (pc : Int) (fault : Option String) : StepReport × View :=
  let v := { v with pc, phase := if pc / 4 ≥ length then .finished else .ready }
  (v.report fault, v)

def follow (v : View) (length : Nat) : Except Abort Plan → Except Escape StepReport × View
  | .error (.escape e) => (.error e, v)
  | .error (.fault f) =>
    match f.message with
    | .error e => (.error (.limit e), v)
    | .ok _ => ({ v with signals := .idle }.advance length (v.pc + 4) f.name).map .ok id
  | .ok p =>
    let v := v.apply p.write
    match p.message with
    | .error e => (.error (.limit e), v)
    | .ok _ =>
      let v := { v with signals := p.signals }
      if p.halts then
        let v := { v with phase := .halted }
        (.ok (v.report none), v)
      else (v.advance length p.nextPc none).map .ok id

theorem exists_follow_ok (v : View) (length : Nat) {p : Plan} {text : String}
    (hm : p.message = .ok text) : ∃ r v', v.follow length (.ok p) = (.ok r, v') := by
  unfold follow
  simp only [hm]
  cases p.halts <;> exact ⟨_, _, rfl⟩

def fetch (v : View) (code : Code) : Option (Option Instruction) :=
  let i := if v.pc / 4 < 0 then v.pc / 4 + code.length else v.pc / 4
  if i < 0 then none else code[i.toNat]?

def plan (v : View) (i : Instruction) : Except Abort Plan :=
  i.plan v.registers ⟨v.memory, [], []⟩ v.pc

def enter (v : View) : View :=
  { v with lastRegister := none, lastMemory := none, phase := .executing, steps := v.steps + 1 }

def step (v : View) (code : Code) : Except Escape StepReport × View :=
  let after := { v with lastRegister := none, lastMemory := none }
  if v.pc / 4 ≥ code.length then
    (.ok ({ after with phase := .finished }.report none), { after with phase := .finished })
  else match v.fetch code with
    | none => (.error .noLine, { after with phase := .executing })
    | some none =>
      ({ v.enter with signals := .idle }.advance code.length (v.pc + 4) none).map .ok id
    | some (some i) => v.enter.follow code.length (v.enter.plan i)

def stepMany (v : View) (code : Code) : Nat → Except Escape (List StepReport) × View
  | 0 => (.ok [], v)
  | n + 1 =>
    match v.step code with
    | (.error e, v) => (.error e, v)
    | (.ok r, v) => ((v.stepMany code n).1.map (r :: ·), (v.stepMany code n).2)

/-- Two instructions with the same plan in every state. -/
def SamePlan (x y : Option Instruction) : Prop :=
  ∃ i j, x = some i ∧ y = some j ∧ ∀ r m pc, i.plan r m pc = j.plan r m pc

variable {code code' : Code}

theorem getElem?_samePlan (h : List.Forall₂ SamePlan code code') (k : Nat) :
    code[k]? = none ∧ code'[k]? = none ∨
      ∃ x y, code[k]? = some x ∧ code'[k]? = some y ∧ SamePlan x y := by
  induction h generalizing k with
  | nil => simp
  | @cons x y _ _ hxy _ ih =>
    cases k with
    | zero => exact .inr ⟨x, y, rfl, rfl, hxy⟩
    | succ k => simpa using ih k

theorem fetch_samePlan (h : List.Forall₂ SamePlan code code') (v : View) :
    v.fetch code = none ∧ v.fetch code' = none ∨
      ∃ x y, v.fetch code = some x ∧ v.fetch code' = some y ∧ SamePlan x y := by
  unfold fetch
  rw [h.length_eq]
  dsimp only
  generalize (if v.pc / 4 < 0 then v.pc / 4 + code'.length else v.pc / 4) = i
  split
  · simp
  · exact getElem?_samePlan h _

theorem step_congr (h : List.Forall₂ SamePlan code code') (v : View) :
    v.step code = v.step code' := by
  unfold step
  rw [h.length_eq]
  rcases fetch_samePlan h v with ⟨hc, hd⟩ | ⟨_, _, hc, hd, i, j, rfl, rfl, hij⟩
  · rw [hc, hd]
  · rw [hc, hd]
    simp only [plan, hij]

theorem stepMany_congr (h : List.Forall₂ SamePlan code code') (v : View) (n : Nat) :
    v.stepMany code n = v.stepMany code' n := by
  induction n generalizing v with
  | zero => rfl
  | succ n ih =>
    simp only [stepMany, step_congr h, ih]

end View

namespace Machine

def view (m : Machine) : View where
  pc := m.pc
  registers := m.registers
  memory := m.memory.words
  lastRegister := m.lastRegister
  lastMemory := m.lastMemory
  signals := m.signals
  phase := m.phase
  steps := m.steps

/-- What can be seen of an operation: its result without texts, and the view. -/
def seen (x : Except Escape StepReport × Machine) : Except Escape StepReport × View :=
  (x.1.map StepReport.bare, x.2.view)

variable {m : Machine}

theorem view_install (m : Machine) (p : Program) :
    (m.install p).view = View.start m.memory.size := rfl

theorem program_install (m : Machine) (p : Program) : (m.install p).program = p := rfl

theorem seen_advance (m : Machine) (pc : Int) (s kind : String) (fault : Option String) :
    seen ((m.advance pc s kind fault).map .ok id)
      = (m.view.advance m.program.length pc fault).map .ok id := by
  have hp : (m.advance pc s kind fault).2.phase
      = if pc / 4 ≥ m.program.length then .finished else .ready := by
    by_cases h : pc / 4 ≥ m.program.length <;>
      simp [advance, settle, finished, record, notice, h]
  simp only [seen, View.advance, ← hp]
  rfl

theorem view_apply (m : Machine) (w : Write) : (m.apply w).view = m.view.apply w := by
  cases w <;> rfl

theorem seen_execute (m : Machine) (line : Slot) (i : Instruction) :
    seen (m.execute line i) = m.view.follow m.program.length (m.view.plan i) := by
  -- A view has the words of the memory only, and no plan needs more.
  have hplan : m.view.plan i = i.plan m.registers m.memory m.pc := Instruction.plan_congr rfl
  rw [hplan, execute]
  cases i.plan m.registers m.memory m.pc with
  | error e =>
    cases e with
    | escape e => rfl
    | fault f =>
      cases hf : f.message with
      | error e => simp only [View.follow, hf]; rfl
      | ok text =>
        simp only [View.follow, hf]
        exact seen_advance { m with signals := .idle } (m.pc + 4) _ _ _
  | ok p =>
    simp only [View.follow, ← view_apply]
    rw [← program_apply m p.write]
    cases p.message with
    | error e => rfl
    | ok text =>
      cases hh : p.halts with
      | true => simp only [↓reduceIte]; rfl
      | false =>
        simp only [Bool.false_eq_true, ↓reduceIte]
        exact seen_advance { m.apply p.write with signals := p.signals } p.nextPc _ _ _

theorem fetch_view (m : Machine) : m.view.fetch m.program.code = m.fetch.map (·.parsed) := by
  have hlen : m.program.code.length = m.program.length := List.length_map _
  have hpc : m.view.pc = m.pc := rfl
  unfold View.fetch fetch Program.at? Program.line?
  rw [hlen, hpc]
  dsimp only
  generalize (if m.pc / 4 < 0 then m.pc / 4 + m.program.length else m.pc / 4) = i
  split <;> simp [Program.code]

/-- A step of the machine is a step of its view. -/
theorem seen_step (m : Machine) : seen m.step = m.view.step m.program.code := by
  have hlen : m.program.code.length = m.program.length := List.length_map _
  have hf : { m with lastRegister := none, lastMemory := none }.fetch = m.fetch := rfl
  have hover : { m with lastRegister := none, lastMemory := none }.finished
      = decide (m.view.pc / 4 ≥ m.program.length) := rfl
  unfold step View.step
  rw [fetch_view, hlen]
  dsimp only
  rw [hf, hover]
  simp only [decide_eq_true_eq]
  split
  · rfl
  · cases m.fetch with
    | none => rfl
    | some line =>
      let m' := { m with lastRegister := none, lastMemory := none }.enter line
      cases hp : line.parsed with
      | none =>
        simp only [hp, Option.map_some]
        exact seen_advance { m' with signals := .idle } (m.pc + 4) _ _ _
      | some i =>
        simp only [hp, Option.map_some]
        exact seen_execute m' line i

theorem seen_stepMany (m : Machine) (n : Nat) :
    ((m.stepMany n).1.map (List.map StepReport.bare), (m.stepMany n).2.view)
      = m.view.stepMany m.program.code n := by
  induction n generalizing m with
  | zero => rfl
  | succ n ih =>
    have hs := seen_step m
    have hp := program_step m
    unfold stepMany View.stepMany
    rw [← hs]
    cases hstep : m.step with
    | mk x m' =>
      rw [hstep] at hp
      cases x with
      | error e => rfl
      | ok r =>
        have h := ih m'
        rw [hp] at h
        simp only [seen, Except.map, ← h]
        cases (m'.stepMany n).1 <;> rfl

end Machine

end Datapath
