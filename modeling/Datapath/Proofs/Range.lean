import Datapath.Proofs.Cancellation

set_option autoImplicit false

namespace Datapath

/-- Thirty-two registers and a memory of some size that hold words, with zero in register zero. -/
structure InRange (size : Int) (r : Registers) (memory : Array Int) : Prop where
  count : r.words.toList.length = 32
  zero : r.get 0 = 0
  registers : ∀ i, -0x80000000 ≤ r.get i ∧ r.get i < 0x80000000
  size : (memory.size : Int) = size
  memory : ∀ v ∈ memory, -0x80000000 ≤ v ∧ v < 0x80000000

theorem Word.bounds_of_signed {v : Int} (h : signed v = v) : -0x80000000 ≤ v ∧ v < 0x80000000 :=
  h ▸ ⟨signed_lower v, signed_upper v⟩

theorem HoldsWords.inRange {r : Registers} {words : Array Int} (h : HoldsWords r words) :
    InRange words.size r words where
  count := Vector.length_toList
  zero := h.zero
  registers i := Word.bounds_of_signed (h.registers i)
  size := rfl
  memory v hv := Word.bounds_of_signed (h.memory v hv)

namespace Machine

variable {m : Machine} {r : StepReport}

theorem storage_report (h : m.step.1 = .ok r) :
    r.registers = m.step.2.registers ∧ r.memory = m.step.2.memory.words := by
  rw [report_step h]
  exact ⟨rfl, rfl⟩

theorem mem_stepMany {n : Nat} {rs : List StepReport} (h : (m.stepMany n).1 = .ok rs)
    (hr : r ∈ rs) : ∃ p ∈ m.trail n, p.step.1 = .ok r := by
  induction n generalizing m rs with
  | zero =>
    cases h
    cases hr
  | succ n ih =>
    unfold stepMany at h
    unfold trail
    rcases hs : m.step with ⟨_ | first, m'⟩ <;> rw [hs] at h
    · cases h
    · obtain ⟨rest, hrest, rfl⟩ := Outcome.map_eq_ok.1 h
      rcases List.mem_cons.1 hr with rfl | hr
      · exact ⟨m, by simp, by rw [hs]⟩
      · obtain ⟨p, hp, hpr⟩ := ih hrest hr
        exact ⟨p, by simp [hp], hpr⟩

/-- The storage of the machine is in range, with as much memory as the settings ask for. -/
structure Ranged (c : Settings) (m : Machine) : Prop where
  sound : m.Sound
  fitted : m.Fitted
  settings : m.settings = c

variable {c : Settings}

theorem ranged_create {host : Host} (h : create c host = .ok m) : m.Ranged c := by
  refine ⟨sound_create h, fitted_create h, ?_⟩
  obtain ⟨memory, -, h⟩ := Outcome.bind_eq_ok.1 h
  obtain ⟨trace, -, h⟩ := Outcome.bind_eq_ok.1 h
  cases h
  rfl

theorem Ranged.step (h : m.Ranged c) : m.step.2.Ranged c :=
  ⟨h.sound.step, h.fitted.congr m.extent_step, (congrArg Prod.fst m.extent_step).trans h.settings⟩

theorem Ranged.move {m' : Machine} (hm : Move m m') (h : m.Ranged c) : m'.Ranged c :=
  ⟨h.sound.move hm, h.fitted.congr hm.extent_eq, (congrArg Prod.fst hm.extent_eq).trans h.settings⟩

theorem Ranged.inRange (h : m.Ranged c) : InRange c.memoryWords m.registers m.memory.words := by
  obtain ⟨hsound, hfitted, rfl⟩ := h
  rw [← hfitted.size]
  exact hsound.inRange

theorem Ranged.report (h : m.Ranged c) (hr : m.step.1 = .ok r) :
    InRange c.memoryWords r.registers r.memory := by
  obtain ⟨hregisters, hmemory⟩ := storage_report hr
  rw [hregisters, hmemory]
  exact h.step.inRange

theorem Ranged.reports (h : m.Ranged c) {n : Nat} {rs : List StepReport}
    (hrs : (m.stepMany n).1 = .ok rs) :
    ∀ r ∈ rs, InRange c.memoryWords r.registers r.memory := by
  intro r hr
  obtain ⟨p, hp, hstep⟩ := mem_stepMany hrs hr
  have hpath : Path Move m (m.trail n) (m.stepMany n).2 := path_stepMany m n
  have hstepped : ∀ p ∈ m.trail n, p.Ranged c :=
    hpath.keeps_stepped (fun _ => Ranged.step) (fun _ _ => Ranged.move) h
  exact (hstepped p hp).report hstep

end Machine

def Answer.shown : Answer → List StepReport
  | .report r => [r]
  | .reports rs => rs
  | _ => []

theorem Answer.shown_of_map {α : Type} {ε : Type} {x : Except ε α} {f : α → Answer} {a : Answer}
    (hf : ∀ v, (f v).shown = []) (h : (f <$> x) = .ok a) : a.shown = [] := by
  obtain ⟨v, -, rfl⟩ := Outcome.map_eq_ok.1 h
  exact hf v

open Answer (shown_of_map)

theorem Registers.shown_perform {r : Registers} {c : RegisterCommand} {a : Answer}
    (h : (r.perform c).1 = .ok a) : a.shown = [] := by
  cases c with
  | read i => exact shown_of_map (fun _ => rfl) (Outcome.mapError_eq_ok.1 h)
  | write i v =>
    simp only [perform] at h
    split at h <;> cases h
    rfl
  | display columns => exact shown_of_map (fun _ => rfl) (Outcome.mapError_eq_ok.1 h)
  | count | words | reset =>
    cases h
    rfl

theorem DataMemory.shown_perform {m : DataMemory} {c : MemoryCommand} {a : Answer}
    (h : (m.perform c).1 = .ok a) : a.shown = [] := by
  cases c with
  | index i => exact shown_of_map (fun _ => rfl) (Outcome.mapError_eq_ok.1 h)
  | read i => exact shown_of_map (fun _ => rfl) (Outcome.mapError_eq_ok.1 h)
  | write i v =>
    simp only [perform] at h
    split at h <;> cases h
    rfl
  | «at» i =>
    simp only [perform] at h
    split at h <;> cases h
    rfl
  | preload vs i => exact shown_of_map (fun _ => rfl) h
  | size | watch | unwatch | words | dump | reset =>
    cases h
    rfl

theorem Trace.shown_perform (l : Trace) (c : TraceCommand) : (l.perform c).1.shown = [] := by
  cases c <;> rfl

namespace Session

open Machine

variable {s : Session} {c : Settings}

theorem ranged_perform (h : s.machine.Ranged c) (d : Command) : (s.perform d).2.machine.Ranged c :=
  (s.path_perform d).keeps (fun _ => Ranged.step) (fun _ _ => Ranged.move) h

theorem ranged_stepped (h : s.machine.Ranged c) (d : Command) :
    ∀ p ∈ s.stepped d, p.Ranged c :=
  (s.path_perform d).keeps_stepped (fun _ => Ranged.step) (fun _ _ => Ranged.move) h

theorem ranged_after (h : s.machine.Ranged c) (cs : List Command) :
    (s.after cs).machine.Ranged c := by
  induction cs generalizing s with
  | nil => exact h
  | cons d cs ih => exact ih (ranged_perform h d)

theorem shown_progressed {name : Text} {result : Except Escape Progress × Machine} {a : Answer}
    (h : (s.progressed name result).1 = .ok a) : a.shown = [] := by
  obtain ⟨_ | _ | _, m⟩ := result <;> cases h <;> rfl

theorem shown_perform {d : Command} {a : Answer} (hstep : d ≠ .step) (hsteps : ∀ n, d ≠ .steps n)
    (hreport : ∀ text, d ≠ .report text) (ha : (s.perform d).1 = .ok a) : a.shown = [] := by
  cases d with
  | step => exact absurd rfl hstep
  | steps n => exact absurd rfl (hsteps n)
  | report text => exact absurd rfl (hreport text)
  | load source =>
    simp only [perform] at ha
    split at ha <;> cases ha
    rfl
  | run limit => exact shown_of_map (fun _ => rfl) (Outcome.mapError_eq_ok.1 ha)
  | start name delay limit => exact shown_progressed ha
  | resume name =>
    simp only [perform] at ha
    split at ha
    · cases ha
    · cases ha
      rfl
    · exact shown_progressed ha
  | setDelay ms => exact shown_of_map (fun _ => rfl) ha
  | registers c => exact Registers.shown_perform ha
  | memory c => exact DataMemory.shown_perform ha
  | trace c =>
    cases ha
    exact Trace.shown_perform _ c
  | _ =>
    cases ha
    rfl

theorem mem_shown {d : Command} {a : Answer} (ha : (s.perform d).1 = .ok a) {r : StepReport}
    (hr : r ∈ a.shown) : (∃ p ∈ s.stepped d, p.step.1 = .ok r) ∨
      ∃ text, r = s.machine.report text none := by
  cases d with
  | step =>
    obtain ⟨x, hx, rfl⟩ := Outcome.map_eq_ok.1 (Outcome.mapError_eq_ok.1 ha)
    obtain rfl := List.mem_singleton.1 hr
    exact .inl ⟨s.machine, by simp [stepped], hx⟩
  | steps n =>
    obtain ⟨rs, hrs, rfl⟩ := Outcome.map_eq_ok.1 (Outcome.mapError_eq_ok.1 ha)
    exact .inl (mem_stepMany hrs hr)
  | report text =>
    cases ha
    exact .inr ⟨text, List.mem_singleton.1 hr⟩
  | _ =>
    rw [shown_perform (by simp) (by simp) (by simp) ha] at hr
    cases hr

/-- Whatever a new machine is told to do, its storage stays in range, and so does the storage that
any report shows: that of a step which the next command takes, and that of an answer. -/
theorem stays_in_range {host : Host} {m : Machine} (hm : create c host = .ok m)
    (cs : List Command) :
    let s := (ofMachine m).after cs
    InRange c.memoryWords s.machine.registers s.machine.memory.words ∧
      ∀ d : Command,
        (∀ p ∈ s.stepped d, ∀ r, p.step.1 = .ok r →
          InRange c.memoryWords r.registers r.memory) ∧
        ∀ a, (s.perform d).1 = .ok a → ∀ r ∈ a.shown,
          InRange c.memoryWords r.registers r.memory := by
  have hs : ((ofMachine m).after cs).machine.Ranged c :=
    ranged_after (s := ofMachine m) (ranged_create hm) cs
  have hsteps : ∀ d, ∀ p ∈ ((ofMachine m).after cs).stepped d, ∀ r, p.step.1 = .ok r →
      InRange c.memoryWords r.registers r.memory :=
    fun d p hp r hr => (ranged_stepped hs d p hp).report hr
  refine ⟨hs.inRange, fun d => ⟨hsteps d, fun a ha r hr => ?_⟩⟩
  rcases mem_shown ha hr with ⟨p, hp, hstep⟩ | ⟨text, rfl⟩
  · exact hsteps d p hp r hstep
  · exact hs.inRange

theorem stays_in_range_preload :
    ∃ m, create { memoryWords := 2 } = .ok m ∧
      let s := (ofMachine m).after [.load "lui x1, 524287\nsw x3, 0(x0)".toList,
        .registers (.write 3 0x1ffffffff), .registers (.write 0 7),
        .memory (.preload [0x80000000, -0x80000001, 5] 0), .start ['a'] (some 0) none,
        .registers (.write 32 1), .resume ['a']]
      s.machine.memory.words = #[-1, 0x7fffffff] ∧
        InRange 2 s.machine.registers s.machine.memory.words ∧
        ∀ a, (s.perform .step).1 = .ok a → ∀ r ∈ a.shown, InRange 2 r.registers r.memory := by
  obtain ⟨m, hm⟩ : ∃ m, create { memoryWords := 2 } = .ok m := ⟨_, rfl⟩
  obtain ⟨hs, hd⟩ := stays_in_range hm [.load "lui x1, 524287\nsw x3, 0(x0)".toList,
    .registers (.write 3 0x1ffffffff), .registers (.write 0 7),
    .memory (.preload [0x80000000, -0x80000001, 5] 0), .start ['a'] (some 0) none,
    .registers (.write 32 1), .resume ['a']]
  refine ⟨m, hm, ?_, hs, (hd .step).2⟩
  cases hm
  rfl

end Session

end Datapath
