import Mathlib.Data.List.Induction
import Datapath.Proofs.Suspension

set_option autoImplicit false

namespace Datapath.Session

open Machine

variable {s : Session} {c : Command} {cs : List Command} {name n : Text} {q r : Run}

def after (s : Session) (cs : List Command) : Session := cs.foldl (fun s c => (s.perform c).2) s

/-- One of the commands cancels the runs that were started before it. -/
def Cancelled (s : Session) : List Command → Prop
  | [] => False
  | c :: cs => s.Cancels c ∨ (s.perform c).2.Cancelled cs

theorem after_concat (s : Session) (cs : List Command) (c : Command) :
    s.after (cs ++ [c]) = ((s.after cs).perform c).2 := by
  rw [after, List.foldl_concat, after]

theorem after_split (s : Session) (before : List Command) (c : Command) (later : List Command) :
    (s.after (before ++ [c])).after later = s.after (before ++ c :: later) := by
  simp [after, List.foldl_append]

theorem cancelled_concat : s.Cancelled (cs ++ [c]) ↔ s.Cancelled cs ∨ (s.after cs).Cancels c := by
  induction cs generalizing s with
  | nil => simp [Cancelled, after]
  | cons d cs ih =>
    rw [List.cons_append, Cancelled, Cancelled, ih, or_assoc]
    rfl

theorem Reachable.after (h : s.Reachable) (cs : List Command) : (s.after cs).Reachable := by
  induction cs generalizing s with
  | nil => exact h
  | cons c cs ih => exact ih (h.perform c)

theorem RunsApart.eq_of_current (h : s.RunsApart) (hq : s.Suspended name q) (hr : s.Suspended n r)
    (hcq : s.machine.Current q.generation) (hcr : s.machine.Current r.generation) : name = n :=
  h.inj hq hr (hcq.2.trans hcr.2.symm)

theorem not_current_start {g : Nat} (hg : g ≤ s.machine.generation) (delay limit : Option Int) :
    ¬ (s.perform (.start name delay limit)).2.machine.Current g := by
  cases hr : s.machine.running with
  | true =>
    rw [perform_start_of_running hr, machine_progressed]
    exact not_current (running_stop _)
  | false =>
    rw [perform_start_of_idle hr, machine_progressed]
    rintro ⟨-, hc⟩
    rw [generation_resume] at hc
    have hm : s.machine.announce.generation = s.machine.generation + 1 := rfl
    omega

theorem current_start {delay limit : Option Int}
    (h : (s.perform (.start name delay limit)).2.Suspended name r) :
    (s.perform (.start name delay limit)).2.machine.Current r.generation := by
  cases hr : s.machine.running with
  | true =>
    rw [perform_start_of_running hr] at h
    cases suspended_progressed.1 h
  | false =>
    rw [perform_start_of_idle hr] at h ⊢
    rw [machine_progressed]
    have he := s.machine.announce.resumeEnd_resume (s.machine.newRun delay limit)
    generalize s.machine.announce.resume (s.machine.newRun delay limit) = x at h he
    have hx := suspended_progressed.1 h
    cases he with
    | asleep hc _ hend =>
      cases hx
      exact current_step hc hend
    | _ => cases hx

theorem stepped_resume (h : s.Suspended name q) :
    s.stepped (.resume name) = s.machine.resumeTrail q := by
  simp only [stepped, show s.runs.lookup name = some (some q) from h]

theorem not_cancels_resume (h : ∀ m ∈ s.stepped (.resume name), m.endsRuns = false) :
    ¬ s.Cancels (.resume name) := by
  intro hc
  cases hc with
  | halt hm hh => simpa [endsRuns, hh] using h _ hm
  | past hm hf => simpa [endsRuns, hf] using h _ hm

theorem not_cancels_resume_of_not_suspended (h : ∀ r, ¬ s.Suspended name r) :
    ¬ s.Cancels (.resume name) :=
  not_cancels_resume (by simp [(perform_resume_of_not_suspended h).2.1])

theorem current_resume (ha : s.RunsApart) (hq : s.Suspended name q)
    (hr : (s.perform (.resume n)).2.Suspended name r) (hg : q.generation = r.generation) :
    (s.perform (.resume n)).2.machine.Current r.generation ↔
      s.machine.Current r.generation ∧ ¬ s.Cancels (.resume n) := by
  by_cases hname : ∃ p, s.Suspended n p
  · obtain ⟨p, hl⟩ := hname
    have ht := stepped_resume hl
    -- Another run than the current one was stale before and is stale afterwards.
    have hother : s.machine.Current p.generation → name ≠ n →
        ∀ m : Machine, m.generation = s.machine.generation → ¬ m.Current r.generation := by
      rintro hc hn m hm ⟨-, hr⟩
      exact hn (ha.inj hq hl (hg.trans (hr.trans (hm.trans hc.2.symm))))
    rw [perform_resume hl] at hr ⊢
    rw [machine_progressed]
    have he := s.machine.resumeEnd_resume p
    generalize s.machine.resume p = x at hr he
    cases he with
    | stale hc =>
      have hn : ¬ s.Cancels (.resume n) := not_cancels_resume (by simp [ht, resumeTrail_stale hc])
      simp [hn]
    | ended hc _ _ hgen =>
      have hn : name ≠ n := by
        rintro rfl
        cases suspended_progressed.1 hr
      simp [hother hc hn _ hgen, hother hc hn _ rfl]
    | asleep hc htrail hend =>
      by_cases hn : name = n
      · subst hn
        cases suspended_progressed.1 hr
        have hcancel : ¬ s.Cancels (.resume name) :=
          not_cancels_resume (by simp [ht, htrail, hend])
        exact iff_of_true (current_step hc hend) ⟨hc, hcancel⟩
      · simp [hother hc hn _ s.machine.generation_step, hother hc hn _ rfl]
    | escape hc =>
      have hn : name ≠ n := by
        rintro rfl
        cases suspended_progressed.1 hr
      simp [hother hc hn _ s.machine.generation_step, hother hc hn _ rfl]
  · have hname := not_exists.1 hname
    simp [(perform_resume_of_not_suspended hname).1, not_cancels_resume_of_not_suspended hname]

/-- A suspended run stays current through a command exactly if the command does not cancel runs. -/
theorem current_perform (ha : s.RunsApart) (hq : s.Suspended name q)
    (hr : (s.perform c).2.Suspended name r) (hg : q.generation = r.generation) :
    (s.perform c).2.machine.Current r.generation ↔
      s.machine.Current r.generation ∧ ¬ s.Cancels c := by
  by_cases hd : c.DrivesRun
  · cases c with
    | start n delay limit =>
      refine iff_of_false ?_ fun h => h.2 (.start n delay limit)
      rw [← hg]
      exact not_current_start (ha.le hq) delay limit
    | resume n => exact current_resume ha hq hr hg
    | _ => exact absurd hd id
  · obtain ⟨hcancel, hkeep⟩ := control_perform (s := s) hd
    by_cases hc : s.Cancels c
    · exact iff_of_false (not_current (hcancel hc)) fun h => h.2 hc
    · rw [current_congr (hkeep hc).2 (hkeep hc).1]
      simp [hc]

/-- Every suspended run was started by some command, and it is current exactly if nothing has
cancelled it since. -/
theorem exists_start_of_suspended (hs : s.Reachable) (hempty : s.runs = []) (cs : List Command)
    (hr : (s.after cs).Suspended name r) :
    ∃ before delay limit later, cs = before ++ .start name delay limit :: later ∧
      (∀ c ∈ later, ¬ c.Starts name) ∧
      ((s.after cs).machine.Current r.generation ↔
        ¬ (s.after (before ++ [.start name delay limit])).Cancelled later) := by
  induction cs using List.reverseRecOn generalizing r with
  | nil =>
    have hr : s.runs.lookup name = some (some r) := hr
    simp [hempty] at hr
  | append_singleton cs c ih =>
    have hreach := hs.after cs
    rw [after_concat] at hr ⊢
    rcases suspended_perform hr with ⟨hc, q, hq, hg⟩ | ⟨⟨delay, limit, rfl⟩, -⟩
    · obtain ⟨before, delay, limit, later, rfl, hlater, hiff⟩ := ih hq
      refine ⟨before, delay, limit, later ++ [c], by simp, ?_, ?_⟩
      · intro d hd
        rcases List.mem_append.1 hd with hd | hd
        · exact hlater d hd
        · rwa [List.mem_singleton.1 hd]
      · rw [current_perform hreach.runsApart hq hr hg, cancelled_concat, after_split,
          ← hg, hiff, not_or]
    · exact ⟨cs, delay, limit, [], rfl, by simp, iff_of_true (current_start hr) id⟩

/-- A suspended run answers that it was stopped exactly if something has cancelled it since its
start, and then it changes nothing. At most one suspended run goes on. -/
theorem resume_cancelled {c : Settings} {host : Host} {m : Machine}
    (hm : Machine.create c host = .ok m)
    (cs : List Command) :
    let s := (ofMachine m).after cs
    (∀ name r, s.Suspended name r →
      ∃ before delay limit later, cs = before ++ .start name delay limit :: later ∧
        (∀ c ∈ later, ¬ c.Starts name) ∧
        let started := (ofMachine m).after (before ++ [.start name delay limit])
        let woken := s.perform (.resume name)
        (woken.1 = .ok (.progress (.ended .stopped)) ↔ started.Cancelled later) ∧
          (started.Cancelled later → woken.2.machine = s.machine ∧
            ∀ n, n ≠ name → woken.2.runs.lookup n = s.runs.lookup n)) ∧
      ∀ n n', s.Continues n → s.Continues n' → n = n' := by
  intro s
  have hstart : (ofMachine m).Reachable := .start hm
  refine ⟨?_, ?_⟩
  · intro name r hr
    obtain ⟨before, delay, limit, later, hcs, hlater, hiff⟩ :=
      exists_start_of_suspended hstart rfl cs hr
    refine ⟨before, delay, limit, later, hcs, hlater, ?_, ?_⟩
    · rw [answer_resume_iff hr, hiff, not_not]
    · intro hc
      rw [resume_stale hr (mt hiff.1 (not_not.2 hc))]
      exact ⟨rfl, fun n hn => lookup_setRun_of_ne s none hn⟩
  · intro n n' hn hn'
    obtain ⟨r, hr, hc⟩ := continues_iff.1 hn
    obtain ⟨r', hr', hc'⟩ := continues_iff.1 hn'
    exact (hstart.after cs).runsApart.eq_of_current hr hr' hc hc'

theorem resume_cancelled_restart :
    ∃ m r, Machine.create {} = .ok m ∧
      let s := (ofMachine m).after [.load "nop\nnop\nnop".toList, .start ['a'] (some 0) none, .stop,
        .start ['b'] (some 0) none]
      s.Suspended ['a'] r ∧ s.Continues ['b'] ∧
        (s.perform (.resume ['a'])).1 = .ok (.progress (.ended .stopped)) ∧
        (s.perform (.resume ['a'])).2.machine = s.machine := by
  obtain ⟨m, hm⟩ : ∃ m, Machine.create {} = .ok m := ⟨_, rfl⟩
  let cs : List Command := [.load "nop\nnop\nnop".toList, .start ['a'] (some 0) none, .stop,
    .start ['b'] (some 0) none]
  have ha : ((ofMachine m).after cs).Suspended ['a'] ⟨2, 0, 100000, 1⟩ := by
    cases hm
    rfl
  have hb : ((ofMachine m).after cs).Suspended ['b'] ⟨3, 0, 100000, 1⟩ := by
    cases hm
    rfl
  have hcurrent : ((ofMachine m).after cs).machine.Current 3 := by
    cases hm
    exact ⟨rfl, rfl⟩
  have hgo : ((ofMachine m).after cs).Continues ['b'] := continues_iff.2 ⟨_, hb, hcurrent⟩
  obtain ⟨hcancel, hone⟩ := resume_cancelled hm cs
  obtain ⟨_, _, _, _, -, -, hiff, hsame⟩ := hcancel _ _ ha
  have hstop : (((ofMachine m).after cs).perform (.resume ['a'])).1
      = .ok (.progress (.ended .stopped)) := by
    by_contra h
    exact absurd (hone _ _ ⟨⟨_, ha⟩, h⟩ hgo) (by decide)
  exact ⟨m, _, hm, ha, hgo, hstop, (hsame (hiff.1 hstop)).1⟩

end Datapath.Session
