import Datapath.Proofs.Cancellation
import Datapath.Proofs.PacedRun

/-! What runs keep to. A run takes no more steps than its limit allows, only its first step is taken
at a breakpoint, and the reason that it ends for is true of the machine that it leaves. A paced run
keeps to this whatever happens while it sleeps. -/

set_option autoImplicit false

namespace Datapath

/-- What the reason tells about the machine that a run with a limit leaves after so many steps. -/
def RunEnd.Tells (limit : Int) (steps : Nat) (m : Machine) : RunEnd → Prop
  | .finished => (m.program.length : Int) ≤ m.pc / 4 ∧ m.phase = .finished
  | .halt => m.phase = .halted
  | .breakpoint => 0 < steps ∧ m.pc ∈ m.breakpoints
  | .timeout => steps = limit.toNat ∧ m.pc / 4 < m.program.length
  | .stopped => True

namespace Machine

/-- The machines that a run steps from are no more than its limit, and none but the first stands at
a breakpoint. -/
structure Kept (limit : Int) (strides : List Machine) : Prop where
  le : strides.length ≤ limit.toNat
  free : ∀ m ∈ strides.tail, m.pc ∉ m.breakpoints

variable {m : Machine} {r : Run} {limit : Int} {past : List Machine}

theorem kept_nil (limit : Int) : Kept limit [] := ⟨Nat.zero_le _, by simp⟩

theorem Kept.concat (h : Kept limit past) (hlt : past.length < limit.toNat)
    (hm : past = [] ∨ m.pc ∉ m.breakpoints) : Kept limit (past ++ [m]) := by
  refine ⟨by rwa [List.length_append], fun p hp => ?_⟩
  rcases past with _ | ⟨first, rest⟩
  · cases hp
  · rcases List.mem_append.1 hp with hp | hp
    · exact h.free p hp
    · rw [List.mem_singleton.1 hp]
      exact hm.resolve_left (by simp)

theorem finish_keeps (m : Machine) (r : Run) (reason : RunEnd) :
    (m.finish r reason).program = m.program ∧ (m.finish r reason).pc = m.pc ∧
      (m.finish r reason).breakpoints = m.breakpoints ∧
      (m.finish r reason).steps = m.steps := by
  unfold finish
  split
  · dsimp only
    split <;> exact ⟨rfl, rfl, rfl, rfl⟩
  · exact ⟨rfl, rfl, rfl, rfl⟩

theorem phase_finish_finished (h : r.generation = m.generation) :
    (m.finish r .finished).phase = .finished := by
  unfold finish
  rw [if_pos h]
  rfl

theorem phase_finish {reason : RunEnd} (h : reason ≠ .finished) :
    (m.finish r reason).phase = m.phase := by
  unfold finish
  simp only [h, ↓reduceIte]
  split <;> rfl

theorem Kept.resume (h : Kept limit past) (hl : r.limit = limit) (hc : r.count = past.length)
    (m : Machine) : Kept limit (past ++ m.resumeTrail r) := by
  have hconcat : m.Strides r → Kept limit (past ++ [m]) := by
    intro hs
    have hlt := hs.lt
    refine h.concat (by omega) (hs.free.imp_left fun h0 => ?_)
    rw [← List.length_eq_zero_iff, ← hc, h0]
  have hcase := m.resumeCase_resume r
  generalize m.resumeTrail r = ms at hcase ⊢
  generalize m.resume r = x at hcase
  cases hcase with
  | halt hs => exact hconcat hs
  | asleep hs => exact hconcat hs
  | escape hs => exact hconcat hs
  | _ => rwa [List.append_nil]

theorem count_resume {q : Run} (h : (m.resume r).1 = .ok (.asleep q)) :
    q.limit = r.limit ∧ q.count = r.count + (m.resumeTrail r).length := by
  have hcase := m.resumeCase_resume r
  generalize m.resumeTrail r = ms at hcase ⊢
  generalize m.resume r = x at hcase h
  cases hcase with
  | asleep =>
    cases h
    exact ⟨rfl, rfl⟩
  | _ => cases h

theorem running_resume {reason : RunEnd} (h : (m.resume r).1 = .ok (.ended reason))
    (hr : reason ≠ .stopped) : (m.resume r).2.running = false := by
  have hend := m.resumeEnd_resume r
  generalize m.resume r = x at hend h ⊢
  cases hend with
  | stale =>
    cases h
    exact absurd rfl hr
  | ended _ _ hrunning => exact hrunning
  | asleep => cases h
  | escape => cases h

theorem tells_resume {reason : RunEnd} (h : (m.resume r).1 = .ok (.ended reason))
    (hc : r.count ≤ r.limit.toNat) :
    reason.Tells r.limit (r.count + (m.resumeTrail r).length) (m.resume r).2 := by
  have hcase := m.resumeCase_resume r
  generalize m.resumeTrail r = ms at hcase ⊢
  generalize m.resume r = x at hcase h ⊢
  cases hcase with
  | stale =>
    cases h
    trivial
  | finished hcur hf =>
    cases h
    obtain ⟨hprogram, hpc, -⟩ := m.finish_keeps r .finished
    refine ⟨?_, phase_finish_finished hcur.2⟩
    rw [endRun, hprogram, hpc]
    exact finished_iff.1 hf
  | breakpoint hcur hpos hb =>
    cases h
    obtain ⟨-, hpc, hbreaks, -⟩ := finish_keeps (m.record
      s!"Breakpoint at PC={Decimal.shown m.pc}" TraceEntry.info) r .breakpoint
    refine ⟨hpos, ?_⟩
    rw [endRun, hpc, hbreaks]
    exact hb
  | timeout hcur hf hle =>
    cases h
    obtain ⟨hprogram, hpc, -⟩ := (m.warnLimit r.limit).finish_keeps r .timeout
    refine ⟨by rw [List.length_nil]; omega, ?_⟩
    rw [endRun, hprogram, hpc]
    exact Int.not_le.1 (mt finished_iff.2 (Bool.eq_false_iff.1 hf))
  | halt hs hh =>
    cases h
    exact (phase_finish (by decide)).trans (of_decide_eq_true hh)
  | asleep => cases h
  | escape => cases h

theorem Kept.runLoop (h : Kept limit past) {left : Nat} (hl : past.length + left = limit.toNat)
    (m : Machine) :
    let now := past ++ loopTrail left past.isEmpty m
    let x := runLoop limit left past.isEmpty m
    Kept limit now ∧ ∀ reason, x.1 = .ok reason →
      reason ≠ .stopped ∧ reason.Tells limit now.length x.2 := by
  induction left generalizing past m with
  | zero =>
    simp only [loopTrail, Machine.runLoop, List.append_nil]
    refine ⟨h, ?_⟩
    split
    · next hf =>
      intro reason he
      cases he
      exact ⟨by decide, finished_iff.1 hf, rfl⟩
    · next hf =>
      intro reason he
      cases he
      exact ⟨by decide, hl, Int.not_le.1 (mt finished_iff.2 hf)⟩
  | succ left ih =>
    have hlt : past.length < limit.toNat := by omega
    simp only [loopTrail, Machine.runLoop]
    split
    · next hf =>
      refine ⟨by simpa using h, ?_⟩
      intro reason he
      cases he
      exact ⟨by decide, finished_iff.1 hf, rfl⟩
    · split
      · next hb =>
        refine ⟨by simpa using h, ?_⟩
        intro reason he
        cases he
        refine ⟨by decide, ?_, hb.2⟩
        simpa [List.length_pos_iff] using hb.1
      · next hb =>
        have hnow : Kept limit (past ++ [m]) := by
          refine h.concat hlt ?_
          simpa [or_iff_not_imp_left] using hb
        rcases hs : m.step with ⟨e | _, m'⟩
        · refine ⟨hnow, ?_⟩
          intro reason he
          cases he
        · dsimp only
          cases hh : m'.halted with
          | true =>
            have hphase : m'.phase = .halted := of_decide_eq_true hh
            refine ⟨hnow, ?_⟩
            intro reason he
            cases he
            exact ⟨by decide, hphase⟩
          | false =>
            have hrest := ih hnow (by simp; omega) m'
            have hempty : (past ++ [m]).isEmpty = false := by simp
            rw [hempty, List.append_assoc] at hrest
            exact hrest

theorem steps_step_of_going (hpc : 0 ≤ m.pc) (hf : m.finished = false) :
    m.step.2.steps = m.steps + 1 := by
  have hs := m.stepEnd_step
  generalize m.step = x at hs ⊢
  cases hs with
  | past hover => cases hf.symm.trans hover
  | lost _ hnone => cases hf.symm.trans ((fetch_eq_none_iff hpc).1 hnone)
  | escape w => exact steps_apply _ w
  | proceed w => exact steps_apply _ w
  | halt => rfl

theorem steps_resume (hpc : 0 ≤ m.pc) (r : Run) :
    (m.resume r).2.steps = m.steps + (m.resumeTrail r).length := by
  have hcase := m.resumeCase_resume r
  generalize m.resumeTrail r = ms at hcase ⊢
  generalize m.resume r = x at hcase ⊢
  cases hcase with
  | stale => rfl
  | finished => exact (m.finish_keeps r _).2.2.2
  | breakpoint => exact (finish_keeps _ r _).2.2.2
  | timeout => exact (finish_keeps _ r _).2.2.2
  | halt hs => exact (finish_keeps _ _ _).2.2.2.trans (steps_step_of_going hpc hs.going)
  | asleep hs => exact steps_step_of_going hpc hs.going
  | escape hs => exact steps_step_of_going hpc hs.going

theorem steps_runLoop (ho : m.Orderly) (limit : Int) (left : Nat) (first : Bool) :
    (Machine.runLoop limit left first m).2.steps
      = m.steps + (loopTrail left first m).length := by
  induction left generalizing m first with
  | zero =>
    unfold Machine.runLoop loopTrail
    split <;> rfl
  | succ left ih =>
    unfold Machine.runLoop loopTrail
    split
    · rfl
    · next hf =>
      have hstep := steps_step_of_going ho.aligned.1 (Bool.eq_false_iff.2 hf)
      have hafter := ho.step
      split
      · rfl
      · rcases hs : m.step with ⟨_ | _, m'⟩ <;> rw [hs] at hstep hafter
        · exact hstep
        · dsimp only
          split
          · exact hstep
          · have hcount : m'.steps = m.steps + 1 := hstep
            rw [ih (m := m') hafter, hcount, List.length_cons]
            omega

end Machine

def Command.drives (name : Text) : Command → Bool
  | .start n _ _ | .resume n => n = name
  | _ => false

namespace Session

open Machine

variable {s : Session} {c : Command} {cs : List Command} {name : Text} {r : Run} {limit : Int}

/-- The machines that the run under a name steps from while commands are performed. -/
def strides (s : Session) (name : Text) : List Command → List Machine
  | [] => []
  | c :: cs => (if c.drives name then s.stepped c else []) ++ (s.perform c).2.strides name cs

/-- The last of the commands drives the run under a name to its end. -/
def Ends (s : Session) (name : Text) (cs : List Command) (reason : RunEnd) : Prop :=
  ∃ before c, cs = before ++ [c] ∧ c.drives name = true ∧
    ((s.after before).perform c).1 = .ok (.progress (.ended reason))

theorem strides_concat : s.strides name (cs ++ [c])
    = s.strides name cs ++ if c.drives name then (s.after cs).stepped c else [] := by
  induction cs generalizing s with
  | nil => simp [strides, after]
  | cons d cs ih =>
    rw [List.cons_append, strides, ih, strides, List.append_assoc]
    rfl

theorem ends_concat {reason : RunEnd} : s.Ends name (cs ++ [c]) reason ↔
    c.drives name = true ∧ ((s.after cs).perform c).1 = .ok (.progress (.ended reason)) := by
  constructor
  · rintro ⟨before, d, h, hd, ha⟩
    obtain ⟨rfl, hx⟩ := List.append_inj' h rfl
    cases hx
    exact ⟨hd, ha⟩
  · rintro ⟨hc, ha⟩
    exact ⟨cs, c, rfl, hc, ha⟩

theorem suspended_perform_iff (h : c.drives name = false) :
    (s.perform c).2.Suspended name r ↔ s.Suspended name r := by
  cases c with
  | start n delay limit =>
    have hn : name ≠ n := fun hn => of_decide_eq_false h hn.symm
    rw [Suspended, perform, lookup_progressed_of_ne _ _ hn, Suspended]
  | resume n =>
    have hn : name ≠ n := fun hn => of_decide_eq_false h hn.symm
    by_cases hq : ∃ q, s.Suspended n q
    · obtain ⟨q, hq⟩ := hq
      rw [perform_resume hq, Suspended, lookup_progressed_of_ne _ _ hn, Suspended]
    · rw [(perform_resume_of_not_suspended (not_exists.1 hq)).1]
  | _ => rw [Suspended, runs_perform (by exact id), Suspended]

theorem answer_progressed {result : Except Escape Progress × Machine} {reason : RunEnd} :
    (s.progressed name result).1 = .ok (.progress (.ended reason)) ↔
      result.1 = .ok (.ended reason) := by
  obtain ⟨_ | _ | _, m⟩ := result <;> simp [progressed]

/-- What the run under a name has kept to when commands have been performed. -/
structure Abides (s : Session) (name : Text) (limit : Int) (cs : List Command) : Prop where
  kept : Kept limit (s.strides name cs)
  asleep : ∀ r, (s.after cs).Suspended name r →
    r.limit = limit ∧ r.count = (s.strides name cs).length
  tells : ∀ reason, s.Ends name cs reason →
    reason.Tells limit (s.strides name cs).length (s.after cs).machine ∧
      (reason ≠ .stopped → (s.after cs).machine.running = false)

/-- One more turn of the run under a name. -/
theorem Abides.turn {m : Machine} (hk : Kept limit (s.strides name cs)) (hl : r.limit = limit)
    (hc : r.count = (s.strides name cs).length) (hdrives : c.drives name = true)
    (hstepped : (s.after cs).stepped c = m.resumeTrail r)
    (hperform : (s.after cs).perform c = (s.after cs).progressed name (m.resume r)) :
    s.Abides name limit (cs ++ [c]) := by
  have hlength : (s.strides name cs ++ m.resumeTrail r).length
      = r.count + (m.resumeTrail r).length := by rw [List.length_append, hc]
  have hnow : s.strides name (cs ++ [c]) = s.strides name cs ++ m.resumeTrail r := by
    rw [strides_concat, if_pos hdrives, hstepped]
  have hafter : s.after (cs ++ [c]) = ((s.after cs).progressed name (m.resume r)).2 := by
    rw [after_concat, hperform]
  refine ⟨hnow ▸ hk.resume hl hc m, fun q hq => ?_, fun reason he => ?_⟩
  · rw [hafter, suspended_progressed] at hq
    rw [hnow, hlength, ← hl]
    exact count_resume hq
  · obtain ⟨-, ha⟩ := ends_concat.1 he
    rw [hperform, answer_progressed] at ha
    rw [hafter, machine_progressed, hnow, hlength, ← hl]
    have hle : r.count ≤ r.limit.toNat := hl ▸ hc ▸ hk.le
    exact ⟨tells_resume ha hle, running_resume ha⟩

theorem abides_start (name : Text) (delay limit : Option Int) :
    s.Abides name (limit.getD s.machine.settings.maxSteps) [.start name delay limit] := by
  have hd : (Command.start name delay limit).drives name = true := decide_eq_true rfl
  cases hr : s.machine.running with
  | true =>
    -- The start stops another run, and no run comes from it.
    have hp : s.perform (.start name delay limit)
        = s.progressed name (.ok (.ended .stopped), s.machine.stop) :=
      perform_start_of_running hr delay limit
    have hnone : s.strides name [.start name delay limit] = [] := by
      simp [strides, stepped, startTrail, hr]
    have hafter : s.after [.start name delay limit]
        = (s.progressed name (.ok (.ended .stopped), s.machine.stop)).2 := by
      rw [← hp]
      rfl
    refine ⟨hnone ▸ kept_nil _, fun q hq => ?_, fun reason he => ?_⟩
    · rw [hafter, suspended_progressed] at hq
      cases hq
    · have hlast : s.Ends name ([] ++ [.start name delay limit]) reason := he
      obtain ⟨-, ha⟩ := ends_concat.1 hlast
      rw [after, List.foldl_nil, hp, answer_progressed] at ha
      cases ha
      exact ⟨trivial, fun hn => absurd rfl hn⟩
  | false =>
    show s.Abides name _ ([] ++ [_])
    refine .turn (kept_nil _) (r := s.machine.newRun delay limit) (m := s.machine.announce) rfl rfl
      hd ?_ (perform_start_of_idle hr delay limit)
    simp [after, stepped, startTrail, hr]

theorem Abides.concat (h : s.Abides name limit cs) (hc : ¬ c.Starts name) :
    s.Abides name limit (cs ++ [c]) := by
  cases hd : c.drives name with
  | false =>
    have hsame : s.strides name (cs ++ [c]) = s.strides name cs := by simp [strides_concat, hd]
    refine ⟨hsame ▸ h.kept, fun q hq => ?_, fun reason he => ?_⟩
    · rw [after_concat, suspended_perform_iff hd] at hq
      exact hsame ▸ h.asleep q hq
    · cases hd.symm.trans (ends_concat.1 he).1
  | true =>
    cases c with
    | start n delay limit =>
      obtain rfl : n = name := of_decide_eq_true hd
      exact absurd ⟨delay, limit, rfl⟩ hc
    | resume n =>
      obtain rfl : n = name := of_decide_eq_true hd
      by_cases hq : ∃ q, (s.after cs).Suspended n q
      · obtain ⟨q, hq⟩ := hq
        obtain ⟨hl, hcount⟩ := h.asleep q hq
        exact .turn h.kept hl hcount hd (stepped_resume hq) (perform_resume hq)
      · -- There is nothing left of the run.
        have hq := not_exists.1 hq
        obtain ⟨hsame, hnone, -⟩ := perform_resume_of_not_suspended hq
        have hafter : s.after (cs ++ [.resume n]) = s.after cs := by rw [after_concat, hsame]
        have hstrides : s.strides n (cs ++ [.resume n]) = s.strides n cs := by
          simp [strides_concat, hd, hnone]
        refine ⟨hstrides ▸ h.kept, fun q hq' => absurd (hafter ▸ hq') (hq q), fun reason he => ?_⟩
        obtain ⟨-, ha⟩ := ends_concat.1 he
        rw [perform] at ha
        split at ha
        · cases ha
        · cases ha
        · next q hl => exact absurd hl (hq q)
    | _ => cases hd

theorem abides_after (s : Session) (name : Text) (delay limit : Option Int) {later : List Command}
    (h : ∀ c ∈ later, ¬ c.Starts name) : s.Abides name (limit.getD s.machine.settings.maxSteps)
      (.start name delay limit :: later) := by
  induction later using List.reverseRecOn with
  | nil => exact abides_start name delay limit
  | append_singleton later c ih =>
    have hrest := ih fun d hd => h d (by simp [hd])
    exact hrest.concat (h c (by simp))

theorem steps_drives (hs : s.Reachable) (h : c.drives name = true) :
    (s.perform c).2.machine.steps = s.machine.steps + (s.stepped c).length := by
  have hpc := hs.orderly.aligned.1
  cases c with
  | start n delay limit =>
    cases hr : s.machine.running with
    | true =>
      rw [perform_start_of_running hr, machine_progressed, stepped, startTrail, hr, stop, hr]
      rfl
    | false =>
      rw [perform_start_of_idle hr, machine_progressed,
        steps_resume (m := s.machine.announce) hpc, stepped, startTrail, hr]
      rfl
  | resume n =>
    by_cases hq : ∃ q, s.Suspended n q
    · obtain ⟨q, hq⟩ := hq
      rw [perform_resume hq, machine_progressed, steps_resume hpc, stepped_resume hq]
    · obtain ⟨hsame, hnone, -⟩ := perform_resume_of_not_suspended (not_exists.1 hq)
      rw [hsame, hnone]
      rfl
  | _ => cases h

/-- A paced run keeps to its limit and to the breakpoints whatever is done while it sleeps, and so
does a synchronous run. The reason that it ends for is true, and it leaves no flag up. -/
theorem run_keeps_limit (hs : s.Reachable) (name : Text) (delay limit : Option Int)
    {later : List Command} (hlater : ∀ c ∈ later, ¬ c.Starts name) :
    let n := limit.getD s.machine.settings.maxSteps
    (let cs := Command.start name delay limit :: later
      let strides := s.strides name cs
      Kept n strides ∧
        (∀ reason, s.Ends name cs reason →
          reason.Tells n strides.length (s.after cs).machine ∧
            (reason ≠ .stopped → (s.after cs).machine.running = false)) ∧
        ∀ before c after, cs = before ++ c :: after → c.drives name = true →
          (s.after (before ++ [c])).machine.steps
            = (s.after before).machine.steps + ((s.after before).stepped c).length) ∧
    (let strides := s.stepped (.run limit)
      let done := s.perform (.run limit)
      Kept n strides ∧
        (∀ reason, done.1 = .ok (.reason reason) →
          reason ≠ .stopped ∧ reason.Tells n strides.length done.2.machine) ∧
        (done.2.machine.running = true → s.machine.running = true) ∧
        done.2.machine.steps = s.machine.steps + strides.length) := by
  refine ⟨?_, ?_⟩
  · have habides := s.abides_after name delay limit hlater
    refine ⟨habides.kept, habides.tells, ?_⟩
    intro before c after _ hc
    rw [after_concat]
    exact steps_drives (hs.after before) hc
  · obtain ⟨hkept, htells⟩ := (kept_nil (limit.getD s.machine.settings.maxSteps)).runLoop
      (Nat.zero_add _) s.machine
    refine ⟨hkept, ?_, ?_, steps_runLoop hs.orderly _ _ _⟩
    · intro reason ha
      refine htells reason ?_
      obtain ⟨x, hx, hreason⟩ := Outcome.map_eq_ok.1 (Outcome.mapError_eq_ok.1 ha)
      cases hreason
      exact hx
    · intro hup
      by_contra hdown
      exact Bool.false_ne_true ((running_runLoop (Bool.eq_false_iff.2 hdown) _ _ _).symm.trans hup)

theorem run_keeps_limit_breakpoint :
    ∃ m, Machine.create {} = .ok m ∧
      let s := ((ofMachine m).perform (.load "nop\nnop\nnop".toList)).2
      let cs : List Command := [.start ['a'] none (some 2), .setBreakpoint 4, .resume ['a']]
      s.Ends ['a'] cs .breakpoint ∧ (s.strides ['a'] cs).length ≤ 2 ∧
        0 < (s.strides ['a'] cs).length ∧
        (s.after cs).machine.pc ∈ (s.after cs).machine.breakpoints ∧
        (s.after cs).machine.running = false := by
  obtain ⟨m, hm⟩ : ∃ m, Machine.create {} = .ok m := ⟨_, rfl⟩
  let s := ((ofMachine m).perform (.load "nop\nnop\nnop".toList)).2
  let later : List Command := [.setBreakpoint 4, .resume ['a']]
  have hs : s.Reachable := (Reachable.start hm).perform _
  have hlater : ∀ c ∈ later, ¬ c.Starts ['a'] := by
    rintro c hc ⟨delay, limit, rfl⟩
    simp [later] at hc
  have hends : s.Ends ['a'] (.start ['a'] none (some 2) :: later) .breakpoint := by
    refine ⟨[.start ['a'] none (some 2), .setBreakpoint 4], .resume ['a'], rfl, rfl, ?_⟩
    cases hm
    rfl
  obtain ⟨⟨hkept, htells, -⟩, -⟩ := run_keeps_limit hs ['a'] none (some 2) hlater
  obtain ⟨⟨hpos, hbreak⟩, hdown⟩ := htells .breakpoint hends
  exact ⟨m, hm, hends, hkept.le, hpos, hbreak, hdown (by decide)⟩

end Session

end Datapath
