import Datapath.CommandLine.Job
import Datapath.Proofs.UnheldRun

/-! Three ways to run a file: by single steps, in one run, and in a run with pauses. They stop at
the same step, so that they show the same registers and the same memory. -/

set_option autoImplicit false

namespace Datapath

namespace CommandLine.Job

variable {α β : Type} {files : Folder} {a : α} {b : β} {text rest : String}

/-- On a desk with the files and without a log file the job gives `a` and adds the text to the
output. -/
def Prints (files : Folder) (j : Job α) (a : α) (text : String) : Prop :=
  ∀ d : Desk, d.files = files → d.logFile = none →
    ∃ d', j.run.run d = (.ok a, d') ∧ d'.output = d.output ++ text ∧
      d'.files = files ∧ d'.logFile = none

namespace Prints

theorem pure (files : Folder) (a : α) : Prints files (Pure.pure a) a "" := by
  intro d hf hl
  exact ⟨d, rfl, by simp, hf, hl⟩

theorem bind {j : Job α} (hj : Prints files j a text) {f : α → Job β}
    (hf : Prints files (f a) b rest) : Prints files (j >>= f) b (text ++ rest) := by
  intro d hd hl
  obtain ⟨d₁, hj, ho, hd₁, hl₁⟩ := hj d hd hl
  obtain ⟨d₂, hf, ho₂, hd₂, hl₂⟩ := hf d₁ hd₁ hl₁
  refine ⟨d₂, ?_, by rw [ho₂, ho, String.append_assoc], hd₂, hl₂⟩
  rw [ExceptT.run_bind, StateT.run_bind, hj]
  exact hf

theorem bind_silent {j : Job α} (hj : Prints files j a "") {f : α → Job β}
    (hf : Prints files (f a) b rest) : Prints files (j >>= f) b rest := by
  have h := hj.bind hf
  rwa [String.empty_append] at h

theorem bind_last {j : Job α} (hj : Prints files j a text) {f : α → Job β}
    (hf : Prints files (f a) b "") : Prints files (j >>= f) b text := by
  have h := hj.bind hf
  rwa [String.append_empty] at h

theorem look {f : Desk → Job β} (h : ∀ d : Desk, d.files = files → Prints files (f d) b rest) :
    Prints files (get >>= f) b rest := by
  intro d hd hl
  exact h d hd d hd hl

theorem change {f : Desk → Desk} (ho : ∀ d, (f d).output = d.output ++ text)
    (hf : ∀ d, d.logFile = none → (f d).files = d.files ∧ (f d).logFile = none) :
    Prints files (modify f) () text := by
  intro d hd hl
  exact ⟨f d, rfl, ho d, (hf d hl).1.trans hd, (hf d hl).2⟩

theorem print (files : Folder) (t : String) : Prints files (Job.print t) () (t ++ "\n") :=
  change (fun _ => String.append_assoc) fun _ hl => ⟨rfl, hl⟩

theorem complain (files : Folder) (t : String) : Prints files (Job.complain t) () "" :=
  change (fun _ => by simp) fun _ hl => ⟨rfl, hl⟩

theorem tell (files : Folder) (notices : List Notice) : Prints files (Job.tell notices) () "" :=
  change (fun _ => by simp) fun _ hl => ⟨by simp [hl], hl⟩

theorem drain (files : Folder) (m : Machine) :
    Prints files (Job.drain m) { m with notices := [] } "" :=
  (tell files _).bind_silent (.pure files _)

end Prints

end CommandLine.Job

namespace CommandLine

open Machine

variable {files : Folder} {m m₁ m' : Machine} {reason : RunEnd} {limit : Int} {o : Options}
  {p : Program} {profile : Text} {words : Given Int} {host : Host} {text rest : String}

def Options.forProgram (program profile : Text) (words dump : Given Int) : Options where
  program := program
  profile := .value profile
  memoryWords := words
  dumpMemory := dump

def settingsFor (profile : Text) (words : Given Int) : Settings :=
  let c := (Settings.profile profile).toOption.getD {}
  { c with memoryWords := words.value?.getD c.memoryWords }

/-- The machine that a job works on. It has its program, and its notices have been handed on. -/
def opened (m : Machine) (p : Program) : Machine := { m.install p with notices := [] }

theorem alike_opened (m : Machine) (p : Program) : Alike (opened m p) (m.install p) :=
  ⟨rfl, rfl, rfl, rfl, rfl, rfl, rfl, rfl, rfl⟩

theorem opened_created {c : Settings} (h : Machine.create c host = .ok m) (p : Program) :
    (opened m p).breakpoints = [] ∧ (opened m p).running = false := by
  obtain ⟨memory, -, h⟩ := Outcome.bind_eq_ok.1 h
  obtain ⟨trace, -, h⟩ := Outcome.bind_eq_ok.1 h
  cases h
  exact ⟨rfl, rfl⟩

def closing (dump : Given Int) (m : Machine) : String :=
  String.ofList (m.registers.rows 4) ++ "\n" ++ match dump.value? with
    | none => ""
    | some n => if n = 0 then "" else String.ofList (m.memory.dump (some n) false) ++ "\n"

def heading (reason? : Option RunEnd) (m : Machine) : String :=
  match reason? with
  | none => ""
  | some reason => s!"Stopped: {reason.name} at PC={Decimal.shown m.pc}" ++ "\n"

theorem closing_congr {m m' : Machine} (h : SameStorage m m') (dump : Given Int) :
    closing dump m = closing dump m' := by
  simp only [closing, DataMemory.dump, h.registers, h.words]

namespace Job

/-- Single steps stop where a run without breakpoints stops. Past the end of the program they take
one step more, which stores nothing. -/
theorem prints_stepAll (files : Folder) {left : Nat} {first : Bool}
    (hb : m.breakpoints = []) (h : runLoop limit left first m = (.ok reason, m')) :
    ∃ m₁ text, Prints files (stepAll m left) m₁ text ∧ SameStorage m₁ m' := by
  induction left generalizing m first with
  | zero =>
    refine ⟨m, "", .pure files m, ?_⟩
    unfold runLoop at h
    split at h <;> cases h <;> exact ⟨rfl, rfl⟩
  | succ left ih =>
    unfold stepAll
    cases hf : m.finished with
    | true =>
      rw [runLoop_of_finished hf] at h
      cases h
      obtain ⟨r, m₁, hs, hf₁, hsame⟩ := step_of_finished hf
      rw [hs]
      dsimp only
      rw [hf₁, Bool.or_true, if_pos rfl]
      exact ⟨m₁, _, (Prints.print files r.message).bind (.pure files m₁),
        ⟨hsame.registers, hsame.words⟩⟩
    | false =>
      have hb₁ := m.breakpoints_step.trans hb
      obtain ⟨r, m₁, hs, hrun⟩ := (runLoop_succ_eq_ok hf hb).1 h
      rw [hs] at hb₁ ⊢
      dsimp only
      rcases hrun with ⟨hh, rfl, rfl⟩ | ⟨hh, hrun⟩
      · rw [hh, Bool.true_or, if_pos rfl]
        exact ⟨_, _, (Prints.print files r.message).bind (.pure files _), ⟨rfl, rfl⟩⟩
      · rw [hh, Bool.false_or]
        cases hf₁ : m₁.finished with
        | true =>
          rw [runLoop_of_finished hf₁] at hrun
          cases hrun
          exact ⟨_, _, (Prints.print files r.message).bind (.pure files _), ⟨rfl, rfl⟩⟩
        | false =>
          obtain ⟨m₂, text, hprints, hsame⟩ := ih hb₁ hrun
          exact ⟨m₂, _, (Prints.print files r.message).bind hprints, hsame⟩

theorem prints_pacedRun (files : Folder) {delay : Int} (hd : 0 ≤ delay)
    (hs : Run.unsleepable delay = false) (hb : m.breakpoints = [])
    (hidle : m.running = false) (h : runLoop limit limit.toNat true m = (.ok reason, m')) :
    ∃ m₁, Prints files (pacedRun m delay (some limit)) (reason, m₁) "" ∧ SameStorage m₁ m' ∧
      m₁.pc = m'.pc := by
  obtain ⟨w, hw, halike, hbreak, hrunning, hdelay⟩ := setDelay_eq_ok (m := m) hd
  obtain ⟨w', hrun, hend⟩ := halike.runLoop (hbreak.trans hb) hb h
  obtain ⟨sleeps, m₁, hpaced, hcore⟩ := runPaced_eq_ok none (some limit)
    (hbreak.trans hb) (hrunning.trans hidle) (hdelay ▸ hs) hrun
  refine ⟨m₁, ?_, ⟨?_, ?_⟩, ?_⟩
  · unfold pacedRun
    rw [hw]
    dsimp only
    rw [hpaced]
    refine Prints.bind_silent (.change ?_ ?_) (.pure files (reason, m₁))
    · exact fun _ => String.append_empty.symm
    · exact fun _ hl => ⟨rfl, hl⟩
  · exact (congr_core hcore registers fun _ => rfl).trans hend.registers
  · exact (congr_core hcore (fun m => m.memory.words) fun _ => rfl).trans hend.words
  · exact (congr_core hcore pc fun _ => rfl).trans hend.pc

/-- Options that ask for nothing but a way to run the program, a profile, a memory size and words to
show. -/
structure Plain (o : Options) (profile : Text) (words : Given Int) : Prop where
  profile : o.profile = .value profile
  words : o.memoryWords = words
  exportTo : o.exportTo = .absent
  trace : o.trace = false
  logFile : o.logFile = .absent
  verbose : o.verbose = false

theorem settings_plain (h : Plain o profile words) (hw : words ≠ .empty) :
    settings o = pure (settingsFor profile words) := by
  unfold settings
  rw [h.profile, h.words]
  cases words with
  | empty => exact absurd rfl hw
  | _ => rfl

theorem prints_load (hload : (Source.load files o.program).1 = .ok p) (m : Machine) :
    Prints files (load m o.program) (p, opened m p) "" := by
  refine .look fun d hd => ?_
  obtain ⟨notices, hload⟩ : ∃ notices, Source.load files o.program = (.ok p, notices) :=
    ⟨_, Prod.ext hload rfl⟩
  rw [hd, hload]
  exact (Prints.tell files _).bind_silent ((Prints.drain files _).bind_silent (.pure files _))

theorem prints_closing (files : Folder) (dump : Given Int) (reason? : Option RunEnd) (m : Machine) :
    Prints files (do
      print (String.ofList (m.registers.rows 4))
      if let some n := dump.value? then
        if n ≠ 0 then print (String.ofList (m.memory.dump (some n) false))
      if reason? = some .timeout then
        complain "Warning: step limit reached before the program finished")
      () (closing dump m) := by
  have hwarn : Prints files (if reason? = some .timeout then
      complain "Warning: step limit reached before the program finished" else pure ()) () "" := by
    split
    · exact .complain files _
    · exact .pure files ()
  unfold closing
  refine (Prints.print files _).bind ?_
  cases dump.value? with
  | none => exact hwarn
  | some n =>
    by_cases hn : n = 0
    · simp only [hn, ne_eq, not_true_eq_false, ↓reduceIte]
      exact hwarn
    · simp only [hn, ne_eq, not_false_eq_true, ↓reduceIte]
      exact (Prints.print files _).bind_last hwarn

theorem prints_summary (hmode : (!o.steps.isAbsent || o.run) = true) (ht : o.trace = false)
    (reason? : Option RunEnd) (m : Machine) :
    Prints files (summary o reason? m) ()
      (heading reason? m ++ closing o.dumpMemory m) := by
  have hrest := prints_closing files o.dumpMemory reason? m
  unfold summary
  rw [hmode, ht]
  cases reason? with
  | none =>
    have hnone : heading none m = "" := rfl
    rw [hnone, String.empty_append]
    exact hrest
  | some r => exact (Prints.print files _).bind hrest

theorem prints_ofOptions {reason? : Option RunEnd}
    (h : Plain o profile words) (hw : words ≠ .empty)
    (hm : Machine.create (settingsFor profile words) host = .ok m)
    (hload : (Source.load files o.program).1 = .ok p)
    (hmode : (!o.steps.isAbsent || o.run) = true)
    (hperform : Prints files (perform o p (opened m p)) (reason?, m₁) text) :
    Prints files (ofOptions o host) ()
      (text ++ (heading reason? m₁ ++ closing o.dumpMemory m₁)) := by
  have hbuild : build (settingsFor profile words) host = pure m := by rw [build, hm]
  unfold ofOptions
  rw [h.verbose, h.logFile, h.exportTo, settings_plain h hw]
  refine Prints.bind_silent (.pure files none) ?_
  refine Prints.bind_silent (.pure files _) ?_
  rw [hbuild]
  refine Prints.bind_silent (.pure files m) ?_
  refine Prints.bind_silent (prints_load hload m) ?_
  refine Prints.bind hperform ?_
  exact Prints.bind_silent (.drain files m₁) (prints_summary hmode h.trace reason? _)

theorem prints_perform_steps {n : Int} (hs : o.steps = .value n)
    (h : Prints files (stepAll m n.toNat) m₁ text) :
    Prints files (perform o p m) (none, m₁) text := by
  unfold perform
  rw [hs]
  exact h.bind_last (.pure files _)

theorem prints_perform_run {j : Job (RunEnd × Machine)} (hs : o.steps = .absent)
    (hr : o.run = true) (hj : runWith o m = j) (h : Prints files j (reason, m₁) text) :
    Prints files (perform o p m) (some reason, m₁) text := by
  unfold perform
  rw [hs, hr, hj]
  exact h.bind_last (.pure files _)

theorem runWith_pause {delay n : Int} (hd : delay ≠ 0) (hp : o.delay = .value delay)
    (hn : o.maxSteps = .value n) : runWith o m = pacedRun m delay (some n) := by
  unfold runWith
  rw [hp, hn]
  dsimp only [Given.value?, Option.getD_some]
  split
  · exact absurd rfl hd
  · exact absurd rfl hd
  · next h => cases h
  · rfl

end Job

theorem profile_positive {name : Text} {c : Settings} (h : Settings.profile name = .ok c) :
    0 < c.memoryWords ∧ c.logCapacity = 50 := by
  have hall : ∀ entry ∈ Settings.profiles,
      0 < entry.2.memoryWords ∧ entry.2.logCapacity = 50 := by decide
  unfold Settings.profile at h
  split at h
  · next hl =>
    cases h
    obtain ⟨before, after, hprofiles, -⟩ := List.lookup_eq_some_iff.1 hl
    exact hall (name, c) (by simp [hprofiles])
  · cases h

theorem settingsFor_positive (profile : Text) (hw : ∀ w, words = .value w → 0 < w) :
    0 < (settingsFor profile words).memoryWords ∧
      (settingsFor profile words).logCapacity = 50 := by
  obtain ⟨c, hc, hpos, hlog⟩ : ∃ c : Settings,
      (Settings.profile profile).toOption.getD {} = c ∧ 0 < c.memoryWords ∧
        c.logCapacity = 50 := by
    cases h : Settings.profile profile with
    | error e => exact ⟨{}, rfl, by decide, rfl⟩
    | ok c => exact ⟨c, rfl, profile_positive h⟩
  rw [settingsFor, hc]
  cases words with
  | value w => exact ⟨hw w rfl, hlog⟩
  | _ => exact ⟨hpos, hlog⟩

theorem exists_create {c : Settings} (hpos : 0 < c.memoryWords) (hlog : c.logCapacity = 50)
    (hspace : host.Holds c.memoryWords) : ∃ m, Machine.create c host = .ok m := by
  have hmemory : DataMemory.create c.memoryWords host.space
      = .ok ⟨Array.replicate c.memoryWords.toNat 0, [], []⟩ := by
    unfold DataMemory.create
    rw [if_neg (Int.not_le.2 hpos), if_neg (Int.not_le.2 hspace.1), if_neg (Int.not_le.2 hspace.2)]
  unfold Machine.create
  rw [hmemory, hlog]
  exact ⟨_, rfl⟩

theorem run_eq_of_prints {arguments : List Text} (ho : Options.ofArguments arguments = .ok o)
    (h : Job.Prints files (Job.ofOptions o host) () text) :
    ∃ d, run arguments files host = .ok (.code 0, d) ∧ d.output = text := by
  obtain ⟨d, hd, hout, -, -⟩ := h { files } rfl rfl
  refine ⟨d, ?_, by rw [hout, String.empty_append]⟩
  unfold run
  rw [ho]
  dsimp only
  rw [hd]

/-- Single steps, a run and a run with pauses show the same registers and the same words, unless a
step escapes. The two runs print the same throughout. -/
theorem drivers_agree {program profile : Text} {words dump : Given Int} {n delay : Int}
    {byStep byRun byPace : List Text} (hload : (Source.load files program).1 = .ok p)
    (hgiven : words ≠ .empty)
    (hsize : ∀ w, words = .value w → 0 < w)
    (hspace : host.Holds (settingsFor profile words).memoryWords) (hdelay : 0 < delay)
    (hsleep : Run.unsleepable delay = false)
    (hstep : Options.ofArguments byStep
      = .ok { Options.forProgram program profile words dump with steps := .value n })
    (hrun : Options.ofArguments byRun
      = .ok { Options.forProgram program profile words dump with run := true, maxSteps := .value n })
    (hpace : Options.ofArguments byPace
      = .ok { Options.forProgram program profile words dump with
        run := true, maxSteps := .value n, delay := .value delay }) :
    ∃ m, Machine.create (settingsFor profile words) host = .ok m ∧
      ((∀ e, ((m.install p).runThrough (some n)).1 ≠ .error e) →
        ∃ reason m' told d₁ d₂ d₃, (m.install p).runThrough (some n) = (.ok reason, m') ∧
          run byStep files host = .ok (.code 0, d₁) ∧ d₁.output = told ++ closing dump m' ∧
          run byRun files host = .ok (.code 0, d₂) ∧
          d₂.output = heading (some reason) m' ++ closing dump m' ∧
          run byPace files host = .ok (.code 0, d₃) ∧ d₃.output = d₂.output) := by
  obtain ⟨hpos, hlog⟩ := settingsFor_positive profile hsize
  obtain ⟨m, hm⟩ := exists_create hpos hlog hspace
  refine ⟨m, hm, fun hok => ?_⟩
  obtain ⟨reason, m', hends⟩ : ∃ reason m',
      (m.install p).runThrough (some n) = (.ok reason, m') := by
    rcases hx : (m.install p).runThrough (some n) with ⟨e | reason, m'⟩
    · exact absurd (congrArg Prod.fst hx) (hok e)
    · exact ⟨reason, m', rfl⟩
  obtain ⟨hb, hidle⟩ := opened_created hm p
  obtain ⟨q, hq, hend⟩ := (alike_opened m p).runLoop hb hb hends
  obtain ⟨m₁, told, hprints₁, hsame₁⟩ := Job.prints_stepAll files hb hq
  obtain ⟨m₃, hprints₃, hsame₃, hpc₃⟩ :=
    Job.prints_pacedRun files (Int.le_of_lt hdelay) hsleep hb hidle hq
  have hsteady : Job.steadyRun (opened m p) (some n) = pure (reason, q) := by
    have hthrough : (opened m p).runThrough (some n) = (.ok reason, q) := hq
    rw [Job.steadyRun, hthrough]
  have hheading : ∀ m₂ : Machine, m₂.pc = q.pc →
      heading (some reason) m₂ = heading (some reason) m' := fun m₂ h => by
    rw [heading, heading, h, hend.pc]
  have hclosing : ∀ m₂ : Machine, SameStorage m₂ q → closing dump m₂ = closing dump m' :=
    fun m₂ h => (closing_congr h dump).trans (closing_congr hend.storage dump)
  obtain ⟨d₁, hd₁, hout₁⟩ := run_eq_of_prints hstep
    (Job.prints_ofOptions ⟨rfl, rfl, rfl, rfl, rfl, rfl⟩ hgiven hm hload rfl
      (Job.prints_perform_steps rfl hprints₁))
  obtain ⟨d₂, hd₂, hout₂⟩ := run_eq_of_prints hrun
    (Job.prints_ofOptions ⟨rfl, rfl, rfl, rfl, rfl, rfl⟩ hgiven hm hload rfl
      (Job.prints_perform_run rfl rfl hsteady (.pure files (reason, q))))
  obtain ⟨d₃, hd₃, hout₃⟩ := run_eq_of_prints hpace
    (Job.prints_ofOptions ⟨rfl, rfl, rfl, rfl, rfl, rfl⟩ hgiven hm hload rfl
      (Job.prints_perform_run rfl rfl (Job.runWith_pause (Int.ne_of_gt hdelay) rfl rfl)
        hprints₃))
  refine ⟨reason, m', told, d₁, d₂, d₃, hends, hd₁, ?_, hd₂, ?_, hd₃, ?_⟩
  · rw [hout₁, ← hclosing m₁ hsame₁, heading, String.empty_append]
    rfl
  · rw [hout₂, hheading q rfl, ← hclosing q ⟨rfl, rfl⟩, String.empty_append]
    rfl
  · have hlast : closing dump m₃ = closing dump q :=
      (hclosing m₃ hsame₃).trans (hclosing q ⟨rfl, rfl⟩).symm
    rw [hout₃, hout₂, hheading q rfl, hheading m₃ hpc₃]
    exact congrArg (fun t => "" ++ (heading (some reason) m' ++ t)) hlast

theorem drivers_agree_halt :
    let files := Folder.empty.provide (Path.ofText "p.asm".toList)
      (.file (Text.toUtf8 "addi x1, x0, 7\nsw x1, 4(x0)\nbeq x0, x0, 0".toList))
    ∃ m' told d₁ d₂ d₃, m'.registers.get 1 = 7 ∧ m'.memory.get 1 = 7 ∧
      run ["p.asm".toList, "--steps".toList, "5".toList, "--dump-memory".toList, "2".toList] files
        = .ok (.code 0, d₁) ∧
      d₁.output = told ++ closing (.value 2) m' ∧
      run ["p.asm".toList, "--run".toList, "--max-steps".toList, "5".toList,
        "--dump-memory".toList, "2".toList] files = .ok (.code 0, d₂) ∧
      d₂.output = heading (some .halt) m' ++ closing (.value 2) m' ∧
      run ["p.asm".toList, "--run".toList, "--max-steps".toList, "5".toList, "--delay".toList,
        "20".toList, "--dump-memory".toList, "2".toList] files = .ok (.code 0, d₃) ∧
      d₃.output = d₂.output := by
  intro files
  obtain ⟨p, hp⟩ : ∃ p : Program, p = ⟨[
      ⟨"addi x1, x0, 7".toList, 0, some ⟨"addi".toList, [some 1, some 0, some 7]⟩⟩,
      ⟨"sw x1, 4(x0)".toList, 4, some ⟨"sw".toList, [some 1, some 4, some 0]⟩⟩,
      ⟨"beq x0, x0, 0".toList, 8, some ⟨"beq".toList, [some 0, some 0, some 0]⟩⟩]⟩ := ⟨_, rfl⟩
  have hload : (Source.load files "p.asm".toList).1 = .ok p := by
    rw [hp]
    decide +kernel
  let plain := Options.forProgram "p.asm".toList "default".toList .absent (.value 2)
  have hstep : Options.ofArguments ["p.asm".toList, "--steps".toList, "5".toList,
      "--dump-memory".toList, "2".toList] = .ok { plain with steps := .value 5 } := rfl
  have hrun : Options.ofArguments ["p.asm".toList, "--run".toList, "--max-steps".toList,
      "5".toList, "--dump-memory".toList, "2".toList]
      = .ok { plain with run := true, maxSteps := .value 5 } := rfl
  have hpace : Options.ofArguments ["p.asm".toList, "--run".toList, "--max-steps".toList,
      "5".toList, "--delay".toList, "20".toList, "--dump-memory".toList, "2".toList]
      = .ok { plain with run := true, maxSteps := .value 5, delay := .value 20 } := rfl
  have hsize : ∀ w, (Given.absent : Given Int) = .value w → 0 < w := by
    intro w hw
    cases hw
  have hspace : ({} : Host).Holds (settingsFor "default".toList .absent).memoryWords :=
    ⟨by decide, by decide⟩
  obtain ⟨m, hm, hagree⟩ :=
    drivers_agree hload (by decide) hsize hspace (by decide) rfl hstep hrun hpace
  obtain ⟨m₁, hends, hregister, hword⟩ : ∃ m₁, (m.install p).runThrough (some 5)
      = (.ok .halt, m₁) ∧ m₁.registers.get 1 = 7 ∧ m₁.memory.get 1 = 7 := by
    cases hm
    rw [hp]
    exact ⟨_, rfl, rfl, rfl⟩
  have hok : ∀ e, ((m.install p).runThrough (some 5)).1 ≠ .error e := by
    intro e he
    cases (congrArg Prod.fst hends).symm.trans he
  obtain ⟨reason, m', told, d₁, d₂, d₃, hends', hrest⟩ := hagree hok
  cases hends.symm.trans hends'
  exact ⟨m₁, told, d₁, d₂, d₃, hregister, hword, hrest⟩

/-- The memory is built as a whole before anything is run, so a size that no memory can have leaves
the program without an exit code, whichever way it is to be run. -/
theorem drivers_crash_memory :
    let files := Folder.empty.provide (Path.ofText "p.asm".toList)
      (.file (Text.toUtf8 "nop".toList))
    (∃ p, (Source.load files "p.asm".toList).1 = .ok p) ∧
      ∀ way ∈ [["--steps".toList, "1".toList], ["--run".toList, "--max-steps".toList, "1".toList],
          ["--run".toList, "--max-steps".toList, "1".toList, "--delay".toList, "1".toList]],
        run ("p.asm".toList :: way ++ ["--memory-words".toList, "100000000000000000000".toList])
          files = .error (.memory .beyondIndices) := by
  intro files
  refine ⟨⟨⟨[⟨"nop".toList, 0, some ⟨"nop".toList, []⟩⟩]⟩, by decide +kernel⟩, ?_⟩
  simp only [List.forall_mem_cons]
  exact ⟨rfl, rfl, rfl, List.forall_mem_nil _⟩

end CommandLine

end Datapath
