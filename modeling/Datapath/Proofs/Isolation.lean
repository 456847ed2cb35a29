import Datapath.Proofs.Alike
import Datapath.Proofs.Suspension

set_option autoImplicit false

namespace Datapath

inductive Command.Loads (p : Program) : Command → Prop
  | source {t : Text} : Program.load t = .ok p → Loads p (.load t)
  | install : Loads p (.install p)

inductive Command.Operates : Command → Prop
  | step : Operates .step
  | registers (c : RegisterCommand) : Operates (.registers c)
  | memory (c : MemoryCommand) : Operates (.memory c)

/-- Operations in their order, with wake-ups of runs in between. -/
inductive Weaves : List Command → List Command → Prop
  | nil : Weaves [] []
  | operation {c : Command} {ops cs : List Command} :
    c.Operates → Weaves ops cs → Weaves (c :: ops) (c :: cs)
  | resume (name : Text) {ops cs : List Command} : Weaves ops cs → Weaves ops (.resume name :: cs)

namespace DataMemory

variable {m n : DataMemory}

theorem preload_congr (h : m.words = n.words) (i : Int) (vs : List Int) :
    (m.preload i vs).1 = (n.preload i vs).1 ∧
      (m.preload i vs).2.words = (n.preload i vs).2.words := by
  induction vs generalizing m n i with
  | nil => exact ⟨rfl, h⟩
  | cons v vs ih =>
    have hsize : m.size = n.size := congrArg Array.size h
    unfold preload
    rw [hsize]
    split
    · exact ih (congrArg (·.setIfInBounds i.toNat (Word.signed v)) h) (i + 1)
    · exact ⟨rfl, h⟩

/-- What is watched has no part in what a command answers. -/
theorem perform_congr (h : m.words = n.words) (c : MemoryCommand) :
    (m.perform c).1 = (n.perform c).1 ∧ (m.perform c).2.words = (n.perform c).2.words := by
  cases c with
  | preload vs i =>
    obtain ⟨hresult, hwords⟩ := preload_congr h i vs
    simp only [perform]
    exact ⟨by rw [hresult], hwords⟩
  | write a v =>
    have hindex : m.index a = n.index a := by
      obtain ⟨_, _, _⟩ := m
      cases h
      rfl
    simp only [perform, write, hindex]
    cases n.index a with
    | error e => exact ⟨rfl, h⟩
    | ok i => exact ⟨rfl, congrArg (·.setIfInBounds i (Word.signed v)) h⟩
  | «at» i =>
    have hat : m.at? i = n.at? i := by
      obtain ⟨_, _, _⟩ := m
      cases h
      rfl
    simp only [perform, hat]
    cases n.at? i <;> exact ⟨rfl, h⟩
  | _ =>
    obtain ⟨_, _, _⟩ := m
    cases h
    exact ⟨rfl, rfl⟩

end DataMemory

namespace Session

open Machine

variable {s s' : Session}

def answers (s : Session) : List Command → List (Except Failure Answer)
  | [] => []
  | .resume name :: cs => (s.perform (.resume name)).2.answers cs
  | c :: cs => (s.perform c).1 :: (s.perform c).2.answers cs

theorem machine_resume_of_idle (h : s.machine.running = false) (name : Text) :
    (s.perform (.resume name)).2.machine = s.machine := by
  by_cases hr : ∃ r, s.Suspended name r
  · obtain ⟨r, hr⟩ := hr
    rw [resume_stale hr (not_current h)]
    rfl
  · rw [(perform_resume_of_not_suspended (not_exists.1 hr)).1]

theorem alike_perform {c : Command} (hc : c.Operates) (h : Alike s.machine s'.machine) :
    (s.perform c).1 = (s'.perform c).1 ∧
      Alike (s.perform c).2.machine (s'.perform c).2.machine := by
  cases hc with
  | step =>
    obtain ⟨hreport, halike⟩ := stepCongruence_alike.step h
    have hanswer := congrArg (fun x => (Answer.report <$> x).mapError Failure.escape) hreport
    exact ⟨hanswer, halike⟩
  | registers c =>
    have hregisters : s.machine.registers.perform c = s'.machine.registers.perform c := by
      rw [h.registers]
    have hanswer := congrArg Prod.fst hregisters
    exact ⟨hanswer, { h with registers := congrArg Prod.snd hregisters }⟩
  | memory c =>
    obtain ⟨hanswer, hwords⟩ := DataMemory.perform_congr h.words c
    exact ⟨hanswer, { h with words := hwords }⟩

theorem running_perform {c : Command} (hc : c.Operates) (h : s.machine.running = false) :
    (s.perform c).2.machine.running = false := by
  cases hc with
  | step => exact running_step_of_idle h
  | registers c => exact h
  | memory c => exact h

/-- Wake-ups of runs do not show while no run goes on. -/
theorem answers_weaves {ops cs : List Command} (hw : Weaves ops cs)
    (h : Alike s.machine s'.machine) (hs : s.machine.running = false)
    (hs' : s'.machine.running = false) : s.answers cs = s'.answers ops := by
  induction hw generalizing s s' with
  | nil => rfl
  | @operation c ops cs hc _ ih =>
    obtain ⟨hanswer, halike⟩ := alike_perform hc h
    have hrest := ih halike (running_perform hc hs) (running_perform hc hs')
    -- No operation is a wake-up, so both sides list its answer.
    cases hc <;> exact congrArg₂ List.cons hanswer hrest
  | resume name _ ih =>
    have hm := machine_resume_of_idle hs name
    exact ih (hm ▸ h) (hm ▸ hs) hs'

theorem machine_load {p : Program} {c : Command} (hc : c.Loads p) :
    (s.perform c).2.machine = s.machine.install p := by
  cases hc with
  | source ht => simp only [perform, Machine.load, ht]
  | install => rfl

theorem alike_install {m m' : Machine} (h : m.memory.size = m'.memory.size) (p : Program) :
    Alike (m.install p) (m'.install p) :=
  ⟨rfl, rfl, rfl, congrArg (Array.replicate · 0) h, rfl, rfl, rfl, rfl, rfl⟩

/-- A load that fails changes nothing. After one that succeeds, operations answer the same as in any
other session with as much memory that has loaded the same program, whatever happened in the two
sessions before. -/
theorem load_isolates {s : Session} (hs : s.Reachable) :
    (∀ t e, (s.perform (.load t)).1 = .error e → (s.perform (.load t)).2 = s) ∧
    ∀ s' : Session, s'.Reachable →
      s.machine.settings.memoryWords = s'.machine.settings.memoryWords →
      ∀ (p : Program) (c c' : Command), c.Loads p → c'.Loads p →
        ∀ ops cs cs' : List Command, Weaves ops cs → Weaves ops cs' →
          (s.perform c).2.answers cs = (s'.perform c').2.answers cs' := by
  refine ⟨?_, ?_⟩
  · intro t e h
    simp only [perform, Machine.load] at h ⊢
    cases hp : Program.load t with
    | ok p =>
      rw [hp] at h
      cases h
    | error e' => rfl
  · intro s' hs' hwords p c c' hc hc' ops cs cs' hw hw'
    have hsize : s.machine.memory.size = s'.machine.memory.size := by
      have h := hs.fitted.size
      have h' := hs'.fitted.size
      omega
    have halike : Alike (s.perform c).2.machine (s'.perform c').2.machine := by
      rw [machine_load hc, machine_load hc']
      exact alike_install hsize p
    have hidle : ∀ {s : Session} {c}, c.Loads p → (s.perform c).2.machine.running = false := by
      intro s c hc
      rw [machine_load hc]
      rfl
    have hself : Alike (s'.perform c').2.machine (s'.perform c').2.machine := by
      rw [machine_load hc']
      exact alike_install rfl p
    -- Both sides answer as the second session does without any wake-up.
    rw [answers_weaves hw halike (hidle hc) (hidle hc'),
      answers_weaves hw' hself (hidle hc') (hidle hc')]

theorem load_isolates_asleep :
    ∃ m m' : Machine, create {} = .ok m ∧
      create { executionDelay := 0, logCapacity := 1 } = .ok m' ∧
      let source := "addi x1, x2, 7\nsw x1, 4(x0)".toList
      let s := (((ofMachine m).perform (.setBreakpoint 4)).2.perform (.install
        (Program.place [("nop".toList, some ⟨"nop".toList, []⟩)]))).2
      let s := (s.perform (.start ['a'] (some 0) none)).2
      (∃ r, s.Suspended ['a'] r) ∧ (s.perform (.load "addi ſp, x0, 1".toList)).2 = s ∧
        (s.perform (.load source)).2.answers
            [.registers (.write 2 5), .resume ['a'], .step, .resume ['a'], .step]
          = ((ofMachine m').perform (.load source)).2.answers
            [.registers (.write 2 5), .step, .step] := by
  obtain ⟨m, hm⟩ : ∃ m, create {} = .ok m := ⟨_, rfl⟩
  obtain ⟨m', hm'⟩ : ∃ m', create { executionDelay := 0, logCapacity := 1 } = .ok m' := ⟨_, rfl⟩
  let source := "addi x1, x2, 7\nsw x1, 4(x0)".toList
  let s := ((((ofMachine m).perform (.setBreakpoint 4)).2.perform (.install
    (Program.place [("nop".toList, some ⟨"nop".toList, []⟩)]))).2.perform
      (.start ['a'] (some 0) none)).2
  have hs : s.Reachable := (((Reachable.start hm).perform _).perform _).perform _
  have hasleep : ∃ r, s.Suspended ['a'] r := by
    cases hm
    exact ⟨_, rfl⟩
  have hwords : s.machine.settings.memoryWords = (ofMachine m').machine.settings.memoryWords := by
    cases hm
    cases hm'
    rfl
  obtain ⟨p, hp⟩ : ∃ p, Program.load source = .ok p := ⟨_, rfl⟩
  have hweave : Weaves [.registers (.write 2 5), .step, .step]
      [.registers (.write 2 5), .step, .step] :=
    .operation (.registers _) (.operation .step (.operation .step .nil))
  have hweave' : Weaves [.registers (.write 2 5), .step, .step]
      [.registers (.write 2 5), .resume ['a'], .step, .resume ['a'], .step] :=
    .operation (.registers _) (.resume _ (.operation .step (.resume _ (.operation .step .nil))))
  obtain ⟨hfail, hsame⟩ := load_isolates hs
  exact ⟨m, m', hm, hm', hasleep, hfail _ _ rfl,
    hsame _ (.start hm') hwords p _ _ (.source hp) (.source hp) _ _ _ hweave' hweave⟩

end Session

end Datapath
