import Datapath.Proofs.Cancellation

set_option autoImplicit false

namespace Datapath.Session

open Machine

variable {s : Session} {c : Command} {cs : List Command} {name n : Text} {q r : Run}

/-- The flag is up though no suspended run goes on. -/
def Stuck (s : Session) : Prop :=
  s.machine.running = true ∧ ∀ n r, s.Suspended n r → ¬ s.machine.Current r.generation

/-- A run has escaped, and nothing has cancelled runs since. -/
def Escaped (s : Session) (cs : List Command) : Prop :=
  ∃ before c later e, cs = before ++ c :: later ∧ c.DrivesRun ∧
    ((s.after before).perform c).1 = .error (.escape e) ∧
    ¬ (s.after (before ++ [c])).Cancelled later

theorem not_stuck_of_idle (h : s.machine.running = false) : ¬ s.Stuck := by
  simp [Stuck, h]

theorem not_stuck_of_current (hr : s.Suspended n r) (hc : s.machine.Current r.generation) :
    ¬ s.Stuck := fun h => h.2 n r hr hc

theorem stuck_of_escape {m : Machine} {e : Escape}
    (hm : m.Current q.generation)
    (hother : ∀ n r, n ≠ name → s.Suspended n r → r.generation ≠ q.generation) :
    (s.progressed name (.error e, m)).2.Stuck := by
  refine ⟨hm.1, ?_⟩
  rintro n r hr hc
  by_cases hn : n = name
  · subst hn
    cases suspended_progressed.1 hr
  · rw [Suspended, lookup_progressed_of_ne _ _ hn] at hr
    exact hother n r hn hr (hc.2.trans hm.2.symm)

theorem idle_create {c : Settings} {host : Host} {m : Machine}
    (h : Machine.create c host = .ok m) : m.running = false := by
  obtain ⟨memory, -, h⟩ := Outcome.bind_eq_ok.1 h
  obtain ⟨trace, -, h⟩ := Outcome.bind_eq_ok.1 h
  cases h
  rfl

theorem stuck_start_iff (ha : s.RunsApart) (delay limit : Option Int) :
    (s.perform (.start name delay limit)).2.Stuck ↔
      ∃ e, (s.perform (.start name delay limit)).1 = .error (.escape e) := by
  cases hr : s.machine.running with
  | true =>
    rw [perform_start_of_running hr]
    refine iff_of_false (not_stuck_of_idle (running_stop _)) ?_
    rintro ⟨e, he⟩
    cases he
  | false =>
    rw [perform_start_of_idle hr]
    have hnew : s.machine.announce.Current (s.machine.newRun delay limit).generation := ⟨rfl, rfl⟩
    have hend := s.machine.announce.resumeEnd_resume (s.machine.newRun delay limit)
    generalize s.machine.announce.resume (s.machine.newRun delay limit) = x at hend
    cases hend with
    | stale hc => exact absurd hnew hc
    | ended _ _ hrun => exact iff_of_false (not_stuck_of_idle hrun) (by simp [progressed])
    | asleep hc _ he =>
      refine iff_of_false (not_stuck_of_current (suspended_progressed.2 rfl) ?_)
        (by simp [progressed])
      exact current_step hc he
    | escape hc _ he =>
      refine iff_of_true (stuck_of_escape (current_step hc he) ?_) ⟨_, rfl⟩
      intro n r _ hs
      have := ha.le hs
      exact Nat.ne_of_lt (Nat.lt_succ_of_le this)

theorem stuck_setRun_iff (hq : s.Suspended name q) (hc : ¬ s.machine.Current q.generation) :
    (s.setRun name none).Stuck ↔ s.Stuck := by
  refine and_congr_right fun _ => ⟨fun h n r hr hcr => ?_, fun h n r hr => ?_⟩ <;>
    by_cases hn : n = name
  · subst hn
    cases hq.symm.trans hr
    exact hc hcr
  · refine h n r ?_ hcr
    rwa [Suspended, lookup_setRun_of_ne _ _ hn]
  · subst hn
    cases (lookup_setRun_self s n none).symm.trans hr
  · rw [Suspended, lookup_setRun_of_ne _ _ hn] at hr
    exact h n r hr

theorem stuck_resume_iff (ha : s.RunsApart) (name : Text) :
    (s.perform (.resume name)).2.Stuck ↔
      (∃ e, (s.perform (.resume name)).1 = .error (.escape e)) ∨
        s.Stuck ∧ ¬ s.Cancels (.resume name) := by
  by_cases hname : ∃ q, s.Suspended name q
  · obtain ⟨q, hl⟩ := hname
    have ht := stepped_resume hl
    have hstale := resume_stale hl
    rw [perform_resume hl] at hstale ⊢
    have hend := s.machine.resumeEnd_resume q
    generalize s.machine.resume q = x at hend hstale
    cases hend with
    | stale hc =>
      have hn : ¬ s.Cancels (.resume name) :=
        not_cancels_resume (by simp [ht, resumeTrail_stale hc])
      rw [hstale hc, stuck_setRun_iff hl hc]
      simp [progressed, hn]
    | ended hc _ hrun =>
      refine iff_of_false (not_stuck_of_idle hrun) ?_
      simp [progressed, not_stuck_of_current hl hc]
    | asleep hc _ he =>
      refine iff_of_false (not_stuck_of_current (suspended_progressed.2 rfl) ?_) ?_
      · exact current_step hc he
      · simp [progressed, not_stuck_of_current hl hc]
    | escape hc _ he =>
      refine iff_of_true (stuck_of_escape (current_step hc he) ?_) (.inl ⟨_, rfl⟩)
      intro n r hn hr hg
      exact hn (ha.inj hr hl hg)
  · have hname := not_exists.1 hname
    obtain ⟨hsame, -, hanswer⟩ := perform_resume_of_not_suspended hname
    simp [hsame, hanswer, not_cancels_resume_of_not_suspended hname]

theorem stuck_perform_iff (ha : s.RunsApart) (c : Command) :
    (s.perform c).2.Stuck ↔
      (c.DrivesRun ∧ ∃ e, (s.perform c).1 = .error (.escape e)) ∨ s.Stuck ∧ ¬ s.Cancels c := by
  by_cases hd : c.DrivesRun
  · cases c with
    | start name delay limit =>
      have hc : s.Cancels (.start name delay limit) := .start name delay limit
      simp [stuck_start_iff ha, hd, hc]
    | resume name => simp [stuck_resume_iff ha, hd]
    | _ => exact absurd hd id
  · obtain ⟨hcancel, hkeep⟩ := control_perform (s := s) hd
    by_cases hc : s.Cancels c
    · simp [not_stuck_of_idle (hcancel hc), hd, hc]
    · simp only [hd, hc, false_and, false_or, not_false_eq_true, and_true]
      simp only [Stuck, Suspended, runs_perform hd, (hkeep hc).2,
        current_congr (hkeep hc).2 (hkeep hc).1]

theorem escaped_concat : s.Escaped (cs ++ [c]) ↔
    (c.DrivesRun ∧ ∃ e, ((s.after cs).perform c).1 = .error (.escape e)) ∨
      s.Escaped cs ∧ ¬ (s.after cs).Cancels c := by
  constructor
  · rintro ⟨before, d, later, e, hcs, hd, he, hl⟩
    rcases List.eq_nil_or_concat' later with rfl | ⟨later, x, rfl⟩
    · obtain ⟨rfl, hx⟩ := List.append_inj' hcs rfl
      cases hx
      exact .inl ⟨hd, e, he⟩
    · rw [← List.cons_append, ← List.append_assoc] at hcs
      obtain ⟨rfl, hx⟩ := List.append_inj' hcs rfl
      cases hx
      rw [cancelled_concat, after_split, not_or] at hl
      exact .inr ⟨⟨before, d, later, e, rfl, hd, he, hl.1⟩, hl.2⟩
  · rintro (⟨hd, e, he⟩ | ⟨⟨before, d, later, e, rfl, hd, he, hl⟩, hc⟩)
    · exact ⟨cs, c, [], e, rfl, hd, he, id⟩
    · refine ⟨before, d, later ++ [c], e, by simp, hd, he, ?_⟩
      rw [cancelled_concat, after_split, not_or]
      exact ⟨hl, hc⟩

theorem stuck_after_iff (hs : s.Reachable) (hidle : s.machine.running = false) (cs : List Command) :
    (s.after cs).Stuck ↔ s.Escaped cs := by
  induction cs using List.reverseRecOn with
  | nil =>
    refine iff_of_false (not_stuck_of_idle hidle) ?_
    rintro ⟨before, c, later, -, h, -⟩
    simp at h
  | append_singleton cs c ih =>
    have hreach := hs.after cs
    rw [after_concat, stuck_perform_iff hreach.runsApart, escaped_concat, ih]

theorem generation_start_iff (name : Text) (delay limit : Option Int) :
    (s.perform (.start name delay limit)).2.machine.generation = s.machine.generation + 1 ↔
      s.machine.running = false := by
  cases hr : s.machine.running with
  | true =>
    have hg : s.machine.stop.generation = s.machine.generation := by
      unfold stop
      split <;> rfl
    rw [perform_start_of_running hr, machine_progressed, hg]
    simp
  | false =>
    rw [perform_start_of_idle hr, machine_progressed, generation_resume]
    exact iff_of_true rfl rfl

/-- The flag is up exactly if a suspended run goes on or a run has escaped, never both, and a start
starts a run exactly if the flag is down. -/
theorem running_iff {c : Settings} {host : Host} {m : Machine}
    (hm : Machine.create c host = .ok m) (cs : List Command) :
    let s := (ofMachine m).after cs
    (s.machine.running = true ↔ (∃ name, s.Continues name) ∨ (ofMachine m).Escaped cs) ∧
      ((ofMachine m).Escaped cs → ∀ name, ¬ s.Continues name) ∧
      ∀ name delay limit,
        (s.perform (.start name delay limit)).2.machine.generation = s.machine.generation + 1 ↔
          s.machine.running = false := by
  intro s
  have hstuck : s.Stuck ↔ (ofMachine m).Escaped cs :=
    stuck_after_iff (.start hm) (idle_create hm) cs
  refine ⟨⟨fun hr => ?_, ?_⟩, fun he name hc => ?_, generation_start_iff⟩
  · by_cases hc : ∃ name, s.Continues name
    · exact .inl hc
    · refine .inr (hstuck.1 ⟨hr, fun n r hn hcur => hc ⟨n, ?_⟩⟩)
      exact continues_iff.2 ⟨r, hn, hcur⟩
  · rintro (⟨name, hc⟩ | he)
    · obtain ⟨r, -, hcur⟩ := continues_iff.1 hc
      exact hcur.1
    · exact (hstuck.2 he).1
  · obtain ⟨r, hr, hcur⟩ := continues_iff.1 hc
    exact (hstuck.2 he).2 name r hr hcur

theorem running_iff_delay :
    ∃ m, Machine.create {} = .ok m ∧
      let cs : List Command := [.load "nop\nnop".toList, .start ['a'] (some (1 <<< 1034)) none]
      let s := (ofMachine m).after cs
      (ofMachine m).Escaped cs ∧ s.machine.running = true ∧ ∀ name, ¬ s.Continues name := by
  obtain ⟨m, hm⟩ : ∃ m, Machine.create {} = .ok m := ⟨_, rfl⟩
  let cs : List Command := [.load "nop\nnop".toList, .start ['a'] (some (1 <<< 1034)) none]
  have he : (ofMachine m).Escaped cs := by
    refine ⟨[.load "nop\nnop".toList], _, [], .delay, rfl, trivial, ?_, id⟩
    cases hm
    rfl
  obtain ⟨hrun, hnone, -⟩ := running_iff hm cs
  exact ⟨m, hm, he, hrun.2 (.inr he), hnone he⟩

/-- The flag is up and no run goes on, and the next start is taken for a stop. -/
theorem running_without_run :
    ∃ m, Machine.create {} = .ok m ∧
      let s := (ofMachine m).after
        [.load "nop\nnop".toList, .start ['a'] (some (1 <<< 1034)) none]
      s.machine.running = true ∧ (∀ name, ¬ s.Continues name) ∧
        (s.perform (.start ['b'] (some 3) none)).1 = .ok (.progress (.ended .stopped)) := by
  obtain ⟨m, hm⟩ : ∃ m, Machine.create {} = .ok m := ⟨_, rfl⟩
  refine ⟨m, hm, ?_, ?_, ?_⟩
  · cases hm
    rfl
  · rintro name ⟨⟨r, hr⟩, -⟩
    have hruns : ((ofMachine m).after [.load "nop\nnop".toList,
        .start ['a'] (some (1 <<< 1034)) none]).runs = [(['a'], none)] := by
      cases hm
      rfl
    rw [Suspended, hruns, List.lookup_cons] at hr
    split at hr <;> cases hr
  · cases hm
    rfl

end Datapath.Session
