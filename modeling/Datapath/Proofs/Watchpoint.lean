import Datapath.Proofs.Range
import Datapath.Proofs.Store

set_option autoImplicit false

namespace Datapath

def DataMemory.change (m m' : DataMemory) (i : Nat) : WatchEvent := ⟨i, m.get i, m'.get i⟩

/-- The events of one store, one for each of the watchpoints on its word. -/
def WatchEvent.copies (watched : List Int) (e : WatchEvent) : List WatchEvent :=
  List.replicate (watched.count (e.index : Int)) e

def Machine.stores (m : Machine) : List WatchEvent :=
  m.target?.toList.map (m.memory.change m.step.2.memory)

def Command.watching (watched : List Int) : Command → List Int
  | .memory (.watch i) => watched ++ [i]
  | .memory .unwatch => []
  | _ => watched

namespace Session

def stores (s : Session) (c : Command) : List WatchEvent :=
  match c with
  | .memory (.write a _) =>
    (s.machine.memory.index a).toOption.toList.map
      (s.machine.memory.change (s.perform c).2.machine.memory)
  | _ => (s.stepped c).flatMap Machine.stores

/-- What watchpoints hear of the commands that follow. -/
def heard (s : Session) (watched : List Int) : List Command → List WatchEvent
  | [] => []
  | c :: cs =>
    (s.stores c).flatMap (·.copies watched) ++ (s.perform c).2.heard (c.watching watched) cs

end Session

namespace DataMemory

section Callbacks

variable {ε ω : Type} {m : DataMemory}

/-- A callback that raises no error and leaves the memory as it is. -/
def Callback.Quiet (f : Callback ε ω) : Prop := ∀ e m w, ∃ w', f e m w = (.ok (), m, w')

def Callback.recorder : Callback ε (List WatchEvent) := fun e m events => (.ok (), m, e :: events)

theorem Callback.quiet_recorder : (recorder : Callback ε (List WatchEvent)).Quiet :=
  fun e _ events => ⟨e :: events, rfl⟩

theorem notify_of_quiet {fs : List (Callback ε ω)} (h : ∀ f ∈ fs, f.Quiet) (e : WatchEvent)
    (m : DataMemory) (w : ω) :
    notify e fs m w = (.ok (), m, fs.foldl (fun w f => (f e m w).2.2) w) := by
  induction fs generalizing w with
  | nil => rfl
  | cons f fs ih =>
    obtain ⟨w', hf⟩ := h f List.mem_cons_self e m w
    simp only [notify, List.foldl_cons, hf]
    exact ih (fun g hg => h g (List.mem_cons_of_mem f hg)) w'

theorem length_callbacksOn (watching : List (Int × Callback ε ω)) (i : Nat) :
    (callbacksOn watching i).length = (watching.map (·.1)).count (i : Int) := by
  rw [callbacksOn, List.length_map, ← List.countP_eq_length_filter, List.count, List.countP_map]
  rfl

theorem quiet_of_mem_callbacksOn {watching : List (Int × Callback ε ω)} {i : Nat}
    {f : Callback ε ω} (h : ∀ x ∈ watching, x.2.Quiet) (hf : f ∈ callbacksOn watching i) :
    f.Quiet := by
  obtain ⟨x, hx, rfl⟩ := List.mem_map.1 hf
  exact h x (List.mem_filter.1 hx).1

/-- Quiet callbacks change nothing of a store. They are told of it as often as there are events,
and of nothing but the word before and after it. -/
theorem storeCalling_of_quiet {watching : List (Int × Callback ε ω)}
    (hw : watching.map (·.1) = m.watched) (h : ∀ x ∈ watching, x.2.Quiet) (i : Nat) (v : Int)
    (w : ω) :
    let n : DataMemory := { m.store i v with events := m.events }
    m.storeCalling watching i v w = (.ok (), n, (callbacksOn watching i).foldl
        (fun w f => (f ⟨i, m.get i, Word.signed v⟩ n w).2.2) w) ∧
      (callbacksOn watching i).length = (m.eventsOf i (Word.signed v)).length := by
  refine ⟨notify_of_quiet (fun f hf => quiet_of_mem_callbacksOn h hf) _ _ w, ?_⟩
  rw [length_callbacksOn, hw, eventsOf, List.length_replicate]

theorem callbacksOn_recorder (watched : List Int) (i : Nat) :
    callbacksOn (watched.map (·, Callback.recorder (ε := ε))) i
      = List.replicate (watched.count (i : Int)) Callback.recorder := by
  refine List.eq_replicate_iff.2 ⟨?_, fun f hf => ?_⟩
  · rw [length_callbacksOn, List.map_map]
    exact congrArg _ (List.map_id watched)
  · obtain ⟨x, hx, rfl⟩ := List.mem_map.1 hf
    obtain ⟨_, -, rfl⟩ := List.mem_map.1 (List.mem_filter.1 hx).1
    rfl

theorem foldl_recorder (e : WatchEvent) (n : DataMemory) (k : Nat) (events : List WatchEvent) :
    (List.replicate k (Callback.recorder (ε := ε))).foldl (fun w f => (f e n w).2.2) events
      = List.replicate k e ++ events := by
  induction k generalizing events with
  | zero => rfl
  | succ k ih =>
    rw [List.replicate_succ, List.foldl_cons, ih, List.replicate_succ']
    simp [Callback.recorder]

/-- The events of a store are what recorders on the watched words write down. -/
theorem storeCalling_recorder (m : DataMemory) (i : Nat) (v : Int) :
    m.storeCalling (m.watched.map (·, Callback.recorder (ε := ε))) i v m.events
      = (.ok (), { m.store i v with events := m.events }, (m.store i v).events) := by
  have hquiet : ∀ x ∈ m.watched.map (·, Callback.recorder (ε := ε)), x.2.Quiet := fun x hx => by
    obtain ⟨_, -, rfl⟩ := List.mem_map.1 hx
    exact Callback.quiet_recorder
  have hwatched : (m.watched.map (·, Callback.recorder (ε := ε))).map (·.1) = m.watched :=
    (List.map_map).trans (List.map_id m.watched)
  rw [(storeCalling_of_quiet hwatched hquiet i v m.events).1, callbacksOn_recorder, foldl_recorder]
  rfl

end Callbacks

end DataMemory

structure DataMemory.Heard (m : DataMemory) (stores : List WatchEvent) (m' : DataMemory) :
    Prop where
  watched : m'.watched = m.watched
  events : m'.events.reverse = m.events.reverse ++ stores.flatMap (·.copies m.watched)

namespace DataMemory.Heard

variable {m m₁ m' : DataMemory} {xs ys : List WatchEvent} {i : Nat} {v : Int}

theorem quiet (hw : m'.watched = m.watched) (he : m'.events = m.events) : m.Heard [] m' :=
  ⟨hw, by rw [he, List.flatMap_nil, List.append_nil]⟩

theorem refl (m : DataMemory) : m.Heard [] m := quiet rfl rfl

theorem trans (h : m.Heard xs m₁) (h' : m₁.Heard ys m') : m.Heard (xs ++ ys) m' where
  watched := h'.watched.trans h.watched
  events := by
    rw [h'.events, h.events, h.watched, List.flatMap_append, List.append_assoc]

theorem store (h : i < m.size) : m.Heard [m.change (m.store i v) i] (m.store i v) where
  watched := rfl
  events := by
    rw [change, get_store h]
    simp [DataMemory.store, eventsOf, WatchEvent.copies]

end DataMemory.Heard

namespace Machine

variable {m m' : Machine} {ms : List Machine} {R : Machine → Machine → Prop}

theorem heard_step (m : Machine) : m.memory.Heard m.stores m.step.2.memory := by
  unfold stores
  cases ht : m.target? with
  | none =>
    rw [memory_step_of_no_target ht]
    exact .refl m.memory
  | some i =>
    obtain ⟨v, hv⟩ := memory_step_of_target? ht
    rw [hv]
    exact .store (lt_size_of_target? ht)

/-- Quiet callbacks on the word that a step stores to are told of this store, and they leave the
memory as the step does. -/
theorem calling_of_step {ε ω : Type} {watching : List (Int × DataMemory.Callback ε ω)}
    (hw : watching.map (·.1) = m.memory.watched) (h : ∀ x ∈ watching, x.2.Quiet) {i : Nat}
    (ht : m.target? = some i) (w : ω) :
    ∃ v, let n : DataMemory := { m.step.2.memory with events := m.memory.events }
      m.memory.storeCalling watching i v w = (.ok (), n, (DataMemory.callbacksOn watching i).foldl
        (fun w f => (f (m.memory.change m.step.2.memory i) n w).2.2) w) := by
  obtain ⟨v, hv⟩ := memory_step_of_target? ht
  refine ⟨v, ?_⟩
  rw [DataMemory.change, hv, DataMemory.get_store (lt_size_of_target? ht)]
  exact (DataMemory.storeCalling_of_quiet hw h i v w).1

theorem signed_of_mem_stores {e : WatchEvent} (h : e ∈ m.stores) :
    Word.signed e.after = e.after := by
  obtain ⟨i, hi, rfl⟩ := List.mem_map.1 h
  have ht := Option.mem_toList.1 hi
  obtain ⟨v, hv⟩ := memory_step_of_target? ht
  rw [DataMemory.change, hv, DataMemory.get_store (lt_size_of_target? ht), Word.signed_signed]

theorem stores_of_fault {r : StepReport} (h : m.step.1 = .ok r) (hf : r.fault ≠ none) :
    m.stores = [] := by
  have hcase := m.stepCase_step
  have hnone : m.target? = none → m.stores = [] := fun ht => by rw [stores, ht]; rfl
  generalize m.step = x at hcase h
  cases hcase with
  | fault hfetch hi hp => exact hnone (by rw [target?_of_plan hfetch hi, hp]; rfl)
  | past | blank | halt | proceed =>
    cases h
    exact absurd rfl hf
  | lost | unplanned | unnamed | untold => cases h

theorem Path.heard (h : Path (Unheard R) m ms m') :
    m.memory.Heard (ms.flatMap stores) m'.memory := by
  induction h with
  | nil m => exact .refl m.memory
  | @step m m' ms _ ih => exact (heard_step m).trans ih
  | move hr _ ih =>
    obtain ⟨-, hwatched, hevents⟩ := hr
    exact (DataMemory.Heard.quiet hwatched hevents).trans ih

end Machine

namespace DataMemory

variable {m : DataMemory}

theorem heard_preload (m : DataMemory) (i : Int) (vs : List Int) :
    m.Heard [] (m.preload i vs).2 := by
  induction vs generalizing m i with
  | nil => exact .refl m
  | cons v vs ih =>
    unfold preload
    split
    · have hset : m.Heard []
          { m with words := m.words.setIfInBounds i.toNat (Word.signed v) } := .quiet rfl rfl
      exact hset.trans (ih _ (i + 1))
    · exact .refl m

theorem heard_write (m : DataMemory) (a v : Int) :
    m.Heard ((m.index a).toOption.toList.map (m.change (m.perform (.write a v)).2))
      (m.perform (.write a v)).2 := by
  simp only [perform, write]
  cases hi : m.index a with
  | error e => exact .refl m
  | ok i => exact .store (lt_size_of_index hi)

end DataMemory

namespace Session

open Machine

variable {s : Session}

/-- The watchpoints hear the stores of a command, and the command may change the watchpoints. -/
theorem heard_perform (s : Session) (c : Command) :
    (s.perform c).2.machine.memory.watched = c.watching s.machine.memory.watched ∧
      (s.perform c).2.machine.memory.events.reverse = s.machine.memory.events.reverse ++
        (s.stores c).flatMap (·.copies s.machine.memory.watched) := by
  have hkept : ∀ {m m' : DataMemory} {xs : List WatchEvent}, m.Heard xs m' →
      m'.watched = m.watched ∧
        m'.events.reverse = m.events.reverse ++ xs.flatMap (·.copies m.watched) :=
    fun h => ⟨h.watched, h.events⟩
  cases c with
  | memory x =>
    cases x with
    | write a v => exact hkept (DataMemory.heard_write s.machine.memory a v)
    | preload vs i => exact hkept (DataMemory.heard_preload s.machine.memory i vs)
    | «at» i =>
      simp only [perform, DataMemory.perform]
      cases s.machine.memory.at? i <;> exact hkept (.refl _)
    | watch | unwatch =>
      exact ⟨rfl, by simp [stores, stepped, perform, DataMemory.perform, DataMemory.watch,
        DataMemory.unwatch]⟩
    | index | read | size | words | dump | reset => exact hkept (.quiet rfl rfl)
  | _ => exact hkept (s.unheard_perform (fun _ h => by cases h)).heard

theorem signed_of_mem_stores {c : Command} {e : WatchEvent} (h : e ∈ s.stores c) :
    Word.signed e.after = e.after := by
  unfold stores at h
  split at h
  · next a v =>
    obtain ⟨i, hi, rfl⟩ := List.mem_map.1 h
    have hindex := Outcome.toOption_eq_some.1 (Option.mem_toList.1 hi)
    have hwrite : s.machine.memory.write a v = .ok (i, s.machine.memory.store i v) :=
      Outcome.map_eq_ok.2 ⟨i, hindex, rfl⟩
    simp only [DataMemory.change, perform, DataMemory.perform, hwrite]
    rw [DataMemory.get_store (DataMemory.lt_size_of_index hindex), Word.signed_signed]
  · obtain ⟨p, -, hp⟩ := List.mem_flatMap.1 h
    exact Machine.signed_of_mem_stores hp

theorem signed_of_mem_heard {w : List Int} {cs : List Command} {e : WatchEvent}
    (h : e ∈ s.heard w cs) : Word.signed e.after = e.after := by
  induction cs generalizing s w with
  | nil => cases h
  | cons c cs ih =>
    rcases List.mem_append.1 h with h | h
    · obtain ⟨e', he', h⟩ := List.mem_flatMap.1 h
      obtain rfl := List.eq_of_mem_replicate h
      exact signed_of_mem_stores he'
    · exact ih h

theorem heard_after (s : Session) (cs : List Command) :
    (s.after cs).machine.memory.watched = cs.foldl Command.watching s.machine.memory.watched ∧
      (s.after cs).machine.memory.events.reverse =
        s.machine.memory.events.reverse ++ s.heard s.machine.memory.watched cs := by
  induction cs generalizing s with
  | nil => exact ⟨rfl, (List.append_nil _).symm⟩
  | cons c cs ih =>
    obtain ⟨hwatched, hevents⟩ := s.heard_perform c
    obtain ⟨hlast, hrest⟩ := ih (s.perform c).2
    rw [hwatched] at hlast hrest
    refine ⟨hlast, hrest.trans ?_⟩
    rw [hevents, heard, List.append_assoc]

theorem memory_create {c : Settings} {host : Host} {m : Machine} (h : create c host = .ok m) :
    m.memory = ⟨Array.replicate c.memoryWords.toNat 0, [], []⟩ := by
  obtain ⟨memory, hm, h⟩ := Outcome.bind_eq_ok.1 h
  obtain ⟨trace, -, h⟩ := Outcome.bind_eq_ok.1 h
  cases h
  exact (DataMemory.create_eq_ok (Outcome.mapError_eq_ok.1 hm)).1

/-- The watchpoints of a session hear of its stores, each as often as its word is watched at that
moment, with the word that it finds and the word that it leaves, and of nothing else. A step tells
which word it stores to, and a step that faults stores nothing. -/
theorem hears_stores {c : Settings} {host : Host} {m : Machine} (hm : create c host = .ok m)
    (cs : List Command) :
    let s := (ofMachine m).after cs
    s.machine.memory.events.reverse = (ofMachine m).heard [] cs ∧
      s.machine.memory.watched = cs.foldl Command.watching [] ∧
      (∀ e ∈ (ofMachine m).heard [] cs, -0x80000000 ≤ e.after ∧ e.after < 0x80000000) ∧
      ∀ p : Machine, p.step.2.lastMemory = p.target? ∧
        ∀ r, p.step.1 = .ok r → r.fault ≠ none → p.stores = [] := by
  have hnew := memory_create hm
  obtain ⟨hwatched, hevents⟩ := (ofMachine m).heard_after cs
  have hw : (ofMachine m).machine.memory.watched = [] := congrArg (·.watched) hnew
  have he : (ofMachine m).machine.memory.events = [] := congrArg (·.events) hnew
  rw [hw] at hwatched hevents
  rw [he] at hevents
  refine ⟨hevents, hwatched, fun e h => Word.bounds_of_signed (signed_of_mem_heard h), fun p => ?_⟩
  obtain ⟨w, hword, hlast, -⟩ := p.memory_step
  exact ⟨hlast.trans hword, fun r hr hf => stores_of_fault hr hf⟩

theorem hears_stores_twice :
    ∃ m, create { memoryWords := 4 } = .ok m ∧
      let cs : List Command := [.memory (.watch 1), .memory (.watch 1), .memory (.watch 2),
        .load "sw x3, 6(x0)\nsw x3, 16(x0)\nlw x4, 4(x0)\nsw x4, 8(x0)".toList,
        .registers (.write 3 0xffffffff), .memory (.write 5 0x80000000), .memory (.write (-1) 3),
        .memory (.preload [7, 7] 0), .step, .reset, .registers (.write 3 9), .steps 4,
        .memory .unwatch, .memory (.write 4 6)]
      ((ofMachine m).after cs).machine.memory.events.reverse =
        [⟨1, 0, -0x80000000⟩, ⟨1, 0, -0x80000000⟩, ⟨1, 7, -1⟩, ⟨1, 7, -1⟩, ⟨1, 0, 9⟩, ⟨1, 0, 9⟩,
          ⟨2, 0, 9⟩] ∧
      (ofMachine m).heard [] cs = ((ofMachine m).after cs).machine.memory.events.reverse := by
  obtain ⟨m, hm⟩ : ∃ m, create { memoryWords := 4 } = .ok m := ⟨_, rfl⟩
  refine ⟨m, hm, ?_, (hears_stores hm _).1.symm⟩
  cases hm
  decide +kernel

end Session

end Datapath
