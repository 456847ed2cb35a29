import Datapath.Proofs.Control

set_option autoImplicit false

namespace Datapath

def Command.Starts (c : Command) (name : Text) : Prop := ∃ delay limit, c = .start name delay limit

namespace Session

open Machine

variable {s : Session} {c : Command} {name n : Text} {r : Run}

def Suspended (s : Session) (name : Text) (r : Run) : Prop := s.runs.lookup name = some (some r)

/-- The run under a name is asleep and will not answer that it was stopped. -/
def Continues (s : Session) (name : Text) : Prop :=
  (∃ r, s.Suspended name r) ∧ (s.perform (.resume name)).1 ≠ .ok (.progress (.ended .stopped))

theorem lookup_setRun_self (s : Session) (name : Text) (x : RunState) :
    (s.setRun name x).runs.lookup name = some x := by
  simp [setRun]

theorem lookup_filter_ne (runs : List (Text × RunState)) (h : n ≠ name) :
    (runs.filter (·.1 ≠ name)).lookup n = runs.lookup n := by
  induction runs with
  | nil => rfl
  | cons x xs ih =>
    obtain ⟨k, v⟩ := x
    rw [List.filter_cons]
    split
    · rw [List.lookup_cons, List.lookup_cons, ih]
    · next hk =>
      have hkn : (n == k) = false := by
        obtain rfl : k = name := by simpa using hk
        exact beq_eq_false_iff_ne.2 h
      rw [List.lookup_cons, hkn, ih]

theorem lookup_setRun_of_ne (s : Session) (x : RunState) (h : n ≠ name) :
    (s.setRun name x).runs.lookup n = s.runs.lookup n := by
  have hn : (n == name) = false := beq_eq_false_iff_ne.2 h
  rw [setRun, List.lookup_cons, hn]
  exact lookup_filter_ne s.runs h

theorem lookup_progressed_of_ne (s : Session) (result : Except Escape Progress × Machine)
    (h : n ≠ name) : (s.progressed name result).2.runs.lookup n = s.runs.lookup n := by
  obtain ⟨_ | _ | _, m⟩ := result <;> exact lookup_setRun_of_ne _ _ h

theorem suspended_progressed {result : Except Escape Progress × Machine} :
    (s.progressed name result).2.Suspended name r ↔ result.1 = .ok (.asleep r) := by
  obtain ⟨_ | _ | _, m⟩ := result <;>
    simp [progressed, Suspended, lookup_setRun_self]

theorem runs_perform (hc : ¬ c.DrivesRun) : (s.perform c).2.runs = s.runs := by
  cases c with
  | load source =>
    simp only [perform, Machine.load]
    cases Program.load source <;> rfl
  | start | resume => exact absurd trivial hc
  | _ => rfl

theorem perform_resume (h : s.Suspended name r) :
    s.perform (.resume name) = s.progressed name (s.machine.resume r) := by
  simp only [perform, show s.runs.lookup name = some (some r) from h]

theorem perform_resume_of_not_suspended (h : ∀ r, ¬ s.Suspended name r) :
    (s.perform (.resume name)).2 = s ∧ s.stepped (.resume name) = [] ∧
      ∀ e, (s.perform (.resume name)).1 ≠ .error (.escape e) := by
  rcases hl : s.runs.lookup name with _ | _ | r
  · simp [perform, stepped, hl]
  · simp [perform, stepped, hl]
  · exact absurd hl (h r)

theorem perform_start_of_running (h : s.machine.running = true) (delay limit : Option Int) :
    s.perform (.start name delay limit)
      = s.progressed name (.ok (.ended .stopped), s.machine.stop) := by
  simp only [perform, Machine.start, h, ↓reduceIte]

theorem perform_start_of_idle (h : s.machine.running = false) (delay limit : Option Int) :
    s.perform (.start name delay limit)
      = s.progressed name (s.machine.announce.resume (s.machine.newRun delay limit)) := by
  simp only [perform, Machine.start, h, Bool.false_eq_true, ↓reduceIte]
  rfl

theorem suspended_start {delay limit : Option Int}
    (h : (s.perform (.start name delay limit)).2.Suspended n r) :
    n ≠ name ∧ s.Suspended n r ∨
      n = name ∧ r.generation = s.machine.generation + 1 ∧
        r.generation = (s.perform (.start name delay limit)).2.machine.generation := by
  by_cases hn : n = name
  · subst hn
    cases hr : s.machine.running with
    | true =>
      rw [perform_start_of_running hr, suspended_progressed] at h
      cases h
    | false =>
      rw [perform_start_of_idle hr, suspended_progressed] at h
      rw [perform_start_of_idle hr, machine_progressed, generation_resume]
      have he := s.machine.announce.resumeEnd_resume (s.machine.newRun delay limit)
      generalize s.machine.announce.resume (s.machine.newRun delay limit) = x at h he
      cases he with
      | asleep =>
        cases h
        exact .inr ⟨rfl, rfl, rfl⟩
      | _ => cases h
  · rw [Suspended, perform, lookup_progressed_of_ne _ _ hn] at h
    exact .inl ⟨hn, h⟩

theorem suspended_resume (h : (s.perform (.resume name)).2.Suspended n r) :
    ∃ q, s.Suspended n q ∧ q.generation = r.generation := by
  by_cases hname : ∃ q, s.Suspended name q
  · obtain ⟨q, hl⟩ := hname
    rw [perform_resume hl] at h
    by_cases hn : n = name
    · subst hn
      rw [suspended_progressed] at h
      have he := s.machine.resumeEnd_resume q
      generalize s.machine.resume q = x at h he
      cases he with
      | asleep =>
        cases h
        exact ⟨q, hl, rfl⟩
      | _ => cases h
    · rw [Suspended, lookup_progressed_of_ne _ _ hn] at h
      exact ⟨r, h, rfl⟩
  · rw [(perform_resume_of_not_suspended (not_exists.1 hname)).1] at h
    exact ⟨r, h, rfl⟩

/-- A run that is suspended after a command was suspended before it, or it is the one that the
command has started. -/
theorem suspended_perform (h : (s.perform c).2.Suspended n r) :
    (¬ c.Starts n ∧ ∃ q, s.Suspended n q ∧ q.generation = r.generation) ∨
      (c.Starts n ∧ r.generation = s.machine.generation + 1 ∧
        r.generation = (s.perform c).2.machine.generation) := by
  by_cases hc : c.DrivesRun
  · cases c with
    | start name delay limit =>
      rcases suspended_start h with ⟨hn, hr⟩ | ⟨rfl, hg⟩
      · refine .inl ⟨?_, r, hr, rfl⟩
        rintro ⟨_, _, hs⟩
        cases hs
        exact hn rfl
      · exact .inr ⟨⟨delay, limit, rfl⟩, hg⟩
    | resume name =>
      refine .inl ⟨?_, suspended_resume h⟩
      rintro ⟨_, _, hs⟩
      cases hs
    | _ => exact absurd hc id
  · rw [Suspended, runs_perform hc] at h
    refine .inl ⟨?_, r, h, rfl⟩
    rintro ⟨_, _, rfl⟩
    exact hc trivial

theorem generation_le_perform (s : Session) (c : Command) :
    s.machine.generation ≤ (s.perform c).2.machine.generation := by
  refine (s.path_perform c).keeps (P := fun m => s.machine.generation ≤ m.generation) ?_ ?_
    (Nat.le_refl _)
  · intro m hm
    rwa [generation_step]
  · intro m m' hmove hm
    cases hmove with
    | edit he => cases he <;> exact hm
    | stop => unfold stop; split <;> exact hm
    | reset => exact Nat.le_succ_of_le hm
    | install => exact Nat.le_succ_of_le hm
    | announce => exact Nat.le_succ_of_le hm
    | finish => rwa [generation_finish]

/-- No suspended run is younger than the machine's generation, and no two have the same one. -/
structure RunsApart (s : Session) : Prop where
  le : ∀ {name r}, s.Suspended name r → r.generation ≤ s.machine.generation
  inj : ∀ {n n' r r'}, s.Suspended n r → s.Suspended n' r' → r.generation = r'.generation → n = n'

theorem RunsApart.perform (h : s.RunsApart) (c : Command) : (s.perform c).2.RunsApart := by
  have hle := s.generation_le_perform c
  constructor
  · intro name r hr
    rcases suspended_perform hr with ⟨-, q, hq, hg⟩ | ⟨-, -, hg⟩
    · exact hg ▸ (h.le hq).trans hle
    · exact Nat.le_of_eq hg
  · intro n n' r r' hr hr' he
    rcases suspended_perform hr with ⟨-, q, hq, hg⟩ | ⟨⟨_, _, hs⟩, hg, -⟩ <;>
      rcases suspended_perform hr' with ⟨-, q', hq', hg'⟩ | ⟨⟨_, _, hs'⟩, hg', -⟩
    · exact h.inj hq hq' (hg.trans (he.trans hg'.symm))
    · have := h.le hq
      omega
    · have := h.le hq'
      omega
    · cases hs.symm.trans hs'
      rfl

theorem Reachable.runsApart (h : s.Reachable) : s.RunsApart := by
  induction h with
  | start => exact ⟨nofun, nofun⟩
  | perform c _ ih => exact ih.perform c

theorem answer_resume_iff (h : s.Suspended name r) :
    (s.perform (.resume name)).1 = .ok (.progress (.ended .stopped)) ↔
      ¬ s.machine.Current r.generation := by
  rw [perform_resume h]
  have he := s.machine.resumeEnd_resume r
  generalize s.machine.resume r = x at he
  cases he with
  | stale hc => simp [progressed, hc]
  | ended hc hr => simp [progressed, hc, hr]
  | asleep hc => simp [progressed, hc]
  | escape hc => simp [progressed, hc]

theorem continues_iff :
    s.Continues name ↔ ∃ r, s.Suspended name r ∧ s.machine.Current r.generation := by
  constructor
  · rintro ⟨⟨r, hr⟩, ha⟩
    exact ⟨r, hr, not_not.1 (mt (answer_resume_iff hr).2 ha)⟩
  · rintro ⟨r, hr, hc⟩
    exact ⟨⟨r, hr⟩, fun ha => (answer_resume_iff hr).1 ha hc⟩

/-- A stale run changes nothing when it wakes up. -/
theorem resume_stale (h : s.Suspended name r) (hc : ¬ s.machine.Current r.generation) :
    (s.perform (.resume name)).2 = s.setRun name none := by
  rw [perform_resume h]
  have he := s.machine.resumeEnd_resume r
  generalize s.machine.resume r = x at he
  cases he with
  | stale => rfl
  | ended hc' => exact absurd hc' hc
  | asleep hc' => exact absurd hc' hc
  | escape hc' => exact absurd hc' hc

end Session

end Datapath
