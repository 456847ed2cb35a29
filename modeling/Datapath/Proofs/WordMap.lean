import Mathlib.Data.List.Induction
import Datapath.Proofs.Reachable

/-! The memory as a map from words to values. Whatever commands it is given, those that it refuses
included, a word holds what was stored to it last, and nothing but zero if nothing was stored to it
since the memory was made or reset. -/

set_option autoImplicit false

namespace Datapath

namespace DataMemory

variable {m : DataMemory} {index : Int}

def room (m : DataMemory) (index : Int) : Nat := if 0 ≤ index then (m.size - index).toNat else 0

def setFirst (m : DataMemory) (index v : Int) : DataMemory :=
  { m with words := m.words.setIfInBounds index.toNat (Word.signed v) }

theorem size_setFirst (m : DataMemory) (index v : Int) : (m.setFirst index v).size = m.size :=
  Array.size_setIfInBounds

theorem getElem?_setFirst (h : 0 ≤ index ∧ index < m.size) (v : Int) (k : Nat) :
    (m.setFirst index v).words[k]? = if index = k then some (Word.signed v) else m.words[k]? := by
  have hlt : index.toNat < m.words.size := by
    have hsize : m.words.size = m.size := rfl
    omega
  have hk : index.toNat = k ↔ index = k := by omega
  simp only [setFirst, Array.getElem?_setIfInBounds, hlt, ↓reduceIte, hk]

theorem room_of_refused (h : ¬ (0 ≤ index ∧ index < m.size)) : m.room index = 0 := by
  unfold room
  split <;> omega

theorem room_of_taken (h : 0 ≤ index ∧ index < m.size) (v : Int) :
    m.room index = (m.setFirst index v).room (index + 1) + 1 := by
  have hnext : 0 ≤ index + 1 := by omega
  rw [room, room, if_pos h.1, if_pos hnext, size_setFirst]
  omega

theorem preload_of_taken (h : 0 ≤ index ∧ index < m.size) (v : Int) (vs : List Int) :
    m.preload index (v :: vs) = (m.setFirst index v).preload (index + 1) vs := if_pos h

theorem preload_of_refused (h : ¬ (0 ≤ index ∧ index < m.size)) (v : Int) (vs : List Int) :
    m.preload index (v :: vs) = (.error (.preloadPastEnd index), m) := if_neg h

/-- The number of the values that a preload stores. -/
def stored (m : DataMemory) (index : Int) (vs : List Int) : Nat := min vs.length (m.room index)

theorem stored_of_refused (h : ¬ (0 ≤ index ∧ index < m.size)) (vs : List Int) :
    m.stored index vs = 0 := by
  rw [stored, room_of_refused h, Nat.min_zero]

theorem stored_of_taken (h : 0 ≤ index ∧ index < m.size) (v : Int) (vs : List Int) :
    m.stored index (v :: vs) = (m.setFirst index v).stored (index + 1) vs + 1 := by
  rw [stored, stored, room_of_taken h v, List.length_cons]
  omega

theorem result_preload (m : DataMemory) (index : Int) (vs : List Int) :
    (m.preload index vs).1 = if m.stored index vs = vs.length then .ok ()
      else .error (.preloadPastEnd (index + m.stored index vs)) := by
  induction vs generalizing m index with
  | nil =>
    have hall : m.stored index [] = ([] : List Int).length := Nat.zero_min _
    rw [if_pos hall]
    rfl
  | cons v vs ih =>
    by_cases h : 0 ≤ index ∧ index < m.size
    · have hnext : index + 1 + ((m.setFirst index v).stored (index + 1) vs : Int)
          = index + ((m.setFirst index v).stored (index + 1) vs + 1 : Nat) := by omega
      rw [preload_of_taken h, ih, stored_of_taken h v vs, hnext]
      simp only [List.length_cons, Nat.add_right_cancel_iff]
    · have hnone : ¬ m.stored index (v :: vs) = (v :: vs).length := by
        rw [stored_of_refused h]
        simp
      rw [preload_of_refused h, if_neg hnone, stored_of_refused h]
      simp

/-- The values that are stored stand one after the other from the index on, and all other words are
what they were. -/
theorem getElem?_preload (m : DataMemory) (index : Int) (vs : List Int) (k : Nat) :
    (m.preload index vs).2.words[k]? =
      if index ≤ k ∧ k < index + m.stored index vs then vs[(k - index).toNat]?.map Word.signed
      else m.words[k]? := by
  induction vs generalizing m index with
  | nil =>
    have hnone : ¬ (index ≤ k ∧ k < index + m.stored index []) := by
      have hz : m.stored index [] = 0 := Nat.zero_min _
      omega
    rw [if_neg hnone]
    rfl
  | cons v vs ih =>
    by_cases h : 0 ≤ index ∧ index < m.size
    · rw [preload_of_taken h, ih, getElem?_setFirst h, stored_of_taken h v vs]
      -- The word comes before the first of the preload, is the first, or comes after it.
      rcases Int.lt_trichotomy k index with hk | hk | hk
      · rw [if_neg (by omega), if_neg (by omega), if_neg (by omega)]
      · have hzero : ((k : Int) - index).toNat = 0 := by omega
        rw [if_neg (by omega), if_pos hk.symm, if_pos (by omega), hzero]
        rfl
      · have hsucc : ((k : Int) - index).toNat = (k - (index + 1)).toNat + 1 := by omega
        rw [if_neg (c := index = k) (by omega), hsucc, List.getElem?_cons_succ]
        congr 1
        simp only [eq_iff_iff]
        omega
    · have hnone : ¬ (index ≤ k ∧ k < index + m.stored index (v :: vs)) := by
        rw [stored_of_refused h]
        omega
      rw [preload_of_refused h, if_neg hnone]

theorem preload_keeps (m : DataMemory) (index : Int) (vs : List Int) :
    { (m.preload index vs).2 with words := m.words } = m := by
  induction vs generalizing m index with
  | nil => rfl
  | cons v vs ih =>
    by_cases h : 0 ≤ index ∧ index < m.size
    · rw [preload_of_taken h]
      exact congrArg (fun n : DataMemory => { n with words := m.words }) (ih _ (index + 1))
    · rw [preload_of_refused h]

theorem le_of_lt_stored {vs : List Int} {k : Nat} (h : k < m.stored index vs) : 0 ≤ index := by
  unfold stored room at h
  split at h
  · assumption
  · omega

theorem preload_eq_iff {vs : List Int} : (m.preload index vs).2 = m ↔ ∀ k : Nat,
    (if index ≤ k ∧ k < index + m.stored index vs then vs[(k - index).toNat]?.map Word.signed
      else m.words[k]?) = m.words[k]? := by
  simp only [← getElem?_preload]
  constructor
  · intro h k
    rw [h]
  · intro h
    have hwords : (m.preload index vs).2.words = m.words := Array.ext_getElem? h
    have hsame : { (m.preload index vs).2 with words := m.words } = (m.preload index vs).2 := by
      rw [← hwords]
    exact hsame.symm.trans (m.preload_keeps index vs)

/-- A preload stores the values that find room in the memory and keeps all other words, the
watchpoints and the events. When there are more values it fails at the first index without room, and
it leaves the memory as it was exactly when what it stored stood there before. -/
theorem preload_stores (m : DataMemory) (index : Int) (vs : List Int) :
    let n := m.stored index vs
    let x := m.preload index vs
    x.1 = (if n = vs.length then .ok () else .error (.preloadPastEnd (index + n))) ∧
      (∀ k : Nat, x.2.words[k]? =
        if index ≤ k ∧ k < index + n then vs[(k - index).toNat]?.map Word.signed
        else m.words[k]?) ∧
      { x.2 with words := m.words } = m ∧
      (x.2 = m ↔ ∀ k < n, m.words[(index + k).toNat]? = vs[k]?.map Word.signed) := by
  refine ⟨m.result_preload index vs, m.getElem?_preload index vs, m.preload_keeps index vs, ?_⟩
  rw [preload_eq_iff]
  constructor
  · intro h k hk
    have hpos := le_of_lt_stored hk
    have hword := h (index + k).toNat
    rw [if_pos (by omega)] at hword
    have hindex : (((index + k).toNat : Int) - index).toNat = k := by omega
    rw [← hword, hindex]
  · intro h k
    split
    · next hk =>
      have hword := h ((k : Int) - index).toNat (by omega)
      have hindex : (index + ((k : Int) - index).toNat).toNat = k := by omega
      rw [← hword, hindex]
    · rfl

/-- Two of three values find room. -/
theorem preload_torn :
    ∃ m, create 4 = .ok m ∧ (m.preload 2 [1, 2, 3]).1 = .error (.preloadPastEnd 4) ∧
      m.words = #[0, 0, 0, 0] ∧ (m.preload 2 [1, 2, 3]).2.words = #[0, 0, 1, 2] :=
  ⟨_, rfl, rfl, rfl, rfl⟩

end DataMemory

namespace MemoryCommand

/-- The value that a command stores to a word of the memory. All four addresses of a word store to
it. A preload stores to every word of the memory that it comes to, and it comes to none from an
index in front of the memory. -/
def stored? (k : Int) : MemoryCommand → Option Int
  | .write a v => if a / 4 = k then some v else none
  | .preload vs first => if 0 ≤ first ∧ first ≤ k then vs[(k - first).toNat]? else none
  | _ => none

/-- The value that was stored to a word last, as far back as the last reset; the latest command
comes first. -/
def lastStored? (k : Int) : List MemoryCommand → Option Int
  | [] => none
  | .reset :: _ => none
  | c :: cs => (c.stored? k).or (lastStored? k cs)

def wordAfter (k : Int) (cs : List MemoryCommand) : Int :=
  ((lastStored? k cs).map Word.signed).getD 0

theorem wordAfter_cons {c : MemoryCommand} (hc : c ≠ .reset) (k : Int) (cs : List MemoryCommand) :
    wordAfter k (c :: cs) = (c.stored? k).elim (wordAfter k cs) Word.signed := by
  have hlast : lastStored? k (c :: cs) = (c.stored? k).or (lastStored? k cs) := by
    cases c <;> first | rfl | exact absurd rfl hc
  rw [wordAfter, hlast]
  cases c.stored? k <;> rfl

end MemoryCommand

namespace DataMemory

open MemoryCommand (wordAfter)

variable {m : DataMemory} {a v : Int} {k : Nat}

def after (m : DataMemory) (cs : List MemoryCommand) : DataMemory :=
  cs.foldl (fun m c => (m.perform c).2) m

theorem after_concat (m : DataMemory) (cs : List MemoryCommand) (c : MemoryCommand) :
    m.after (cs ++ [c]) = ((m.after cs).perform c).2 := by
  simp [after]

theorem size_after (m : DataMemory) (cs : List MemoryCommand) : (m.after cs).size = m.size := by
  induction cs generalizing m with
  | nil => rfl
  | cons c cs ih => exact (ih (m.perform c).2).trans (m.size_perform c)

theorem index_of_inside (h : 0 ≤ a / 4 ∧ a / 4 < m.size) : m.index a = .ok (a / 4).toNat :=
  if_pos h

theorem index_of_outside (h : ¬ (0 ≤ a / 4 ∧ a / 4 < m.size)) :
    m.index a = .error (.outOfRange a m.size) := if_neg h

theorem perform_read (m : DataMemory) (a : Int) : m.perform (.read a)
    = (if 0 ≤ a / 4 ∧ a / 4 < m.size then .ok (.number (m.get (a / 4).toNat))
      else .error (.memory (.outOfRange a m.size)), m) := by
  simp only [perform, read]
  split
  · next h => rw [index_of_inside h]; rfl
  · next h => rw [index_of_outside h]; rfl

theorem perform_write_of_inside (h : 0 ≤ a / 4 ∧ a / 4 < m.size) (v : Int) :
    m.perform (.write a v) = (.ok (.number (a / 4)), m.store (a / 4).toNat v) := by
  have hnat : ((a / 4).toNat : Int) = a / 4 := Int.toNat_of_nonneg h.1
  simp [perform, write, index_of_inside h, Functor.map, Except.map, hnat]

theorem perform_write_of_outside (h : ¬ (0 ≤ a / 4 ∧ a / 4 < m.size)) (v : Int) :
    m.perform (.write a v) = (.error (.memory (.outOfRange a m.size)), m) := by
  simp [perform, write, index_of_outside h, Functor.map, Except.map]

theorem getElem?_store (m : DataMemory) (i : Nat) (v : Int) (hk : k < m.size) :
    (m.store i v).words[k]? = if i = k then some (Word.signed v) else m.words[k]? := by
  have hk' : k < m.words.size := hk
  simp only [store, Array.getElem?_setIfInBounds]
  split
  · next h => rw [if_pos (h ▸ hk')]
  · rfl

theorem getElem?_preload_of_lt (m : DataMemory) (vs : List Int) (first : Int) (hk : k < m.size) :
    (m.preload first vs).2.words[k]? = ((MemoryCommand.preload vs first).stored? k).elim
      m.words[k]? fun v => some (Word.signed v) := by
  rw [getElem?_preload, stored, room]
  simp only [MemoryCommand.stored?]
  by_cases hfirst : 0 ≤ first ∧ first ≤ k
  · rw [if_pos hfirst, if_pos hfirst.1]
    by_cases hlast : (k - first).toNat < vs.length
    · rw [if_pos (by omega), List.getElem?_eq_getElem hlast]
      rfl
    · rw [if_neg (by omega), List.getElem?_eq_none (by omega)]
      rfl
  · rw [if_neg hfirst, if_neg]
    · rfl
    · split <;> omega

theorem getElem?_perform (m : DataMemory) {c : MemoryCommand} (hc : c ≠ .reset) (hk : k < m.size) :
    (m.perform c).2.words[k]? =
      (c.stored? k).elim m.words[k]? fun v => some (Word.signed v) := by
  cases c with
  | write a v =>
    simp only [MemoryCommand.stored?]
    by_cases h : 0 ≤ a / 4 ∧ a / 4 < m.size
    · have hword : (a / 4).toNat = k ↔ a / 4 = k := by omega
      rw [perform_write_of_inside h, getElem?_store m _ v hk]
      simp only [hword]
      split <;> rfl
    · have hword : a / 4 ≠ k := by omega
      rw [perform_write_of_outside h, if_neg hword]
      rfl
  | preload vs first => exact getElem?_preload_of_lt m vs first hk
  | «at» i =>
    simp only [perform]
    cases m.at? i <;> rfl
  | reset => exact absurd rfl hc
  | _ => rfl

theorem getElem?_reset (m : DataMemory) (hk : k < m.size) :
    (m.perform .reset).2.words[k]? = some 0 := by
  simp [perform, reset, hk]

theorem getElem?_after {size space : Int} (hm : create size space = .ok m)
    (cs : List MemoryCommand) (hk : k < m.size) : (m.after cs).words[k]? = some (wordAfter k cs.reverse) := by
  induction cs using List.reverseRecOn with
  | nil =>
    obtain ⟨rfl, -⟩ := create_eq_ok hm
    have hk' : k < size.toNat := by simpa [DataMemory.size] using hk
    simp [after, wordAfter, MemoryCommand.lastStored?, hk']
  | append_singleton cs c ih =>
    have hk' : k < (m.after cs).size := (m.size_after cs).symm ▸ hk
    rw [after_concat, List.reverse_concat]
    by_cases hc : c = .reset
    · rw [hc, getElem?_reset _ hk']
      rfl
    · rw [getElem?_perform _ hc hk', ih, MemoryCommand.wordAfter_cons hc]
      cases c.stored? k <;> rfl

theorem perform_read_after {size space : Int} (hm : create size space = .ok m)
    (cs : List MemoryCommand) (a : Int) : (m.after cs).perform (.read a)
      = (if 0 ≤ a / 4 ∧ a / 4 < size then .ok (.number (wordAfter (a / 4) cs.reverse))
        else .error (.memory (.outOfRange a size.toNat)), m.after cs) := by
  have hsize : ((m.after cs).size : Int) = size := by
    obtain ⟨rfl, hpos, -⟩ := create_eq_ok hm
    rw [size_after]
    simp only [DataMemory.size, Array.size_replicate]
    omega
  rw [perform_read, hsize, ← hsize, Int.toNat_natCast]
  split
  · next h =>
    have hk : (a / 4).toNat < m.size := by
      rw [size_after] at h
      omega
    have hword := getElem?_after hm cs hk
    rw [Int.toNat_of_nonneg h.1] at hword
    simp [get, Array.getD_eq_getD_getElem?, hword]
  · rfl

theorem exists_message_iff (a : Int) (size : Nat) :
    (∃ text, (MemoryError.outOfRange a size).message = .ok text) ↔
      (Decimal.digits a.natAbs).length ≤ Decimal.maxDigits := by
  constructor
  · rintro ⟨text, h⟩
    obtain ⟨t, ht, -⟩ := Outcome.bind_eq_ok.1 h
    by_contra hlong
    rw [Decimal.write, if_neg hlong] at ht
    cases ht
  · intro h
    have hword : (Decimal.digits (a / 4).natAbs).length ≤ Decimal.maxDigits := by
      rw [Decimal.length_digits_le_iff (by decide)] at h ⊢
      omega
    refine ⟨_, Outcome.bind_eq_ok.2 ⟨_, if_pos h, Outcome.bind_eq_ok.2 ⟨_, if_pos hword, rfl⟩⟩⟩

/-- After any commands, a word of a memory that was new holds what was stored to it last. A read
gives it, or it is refused as out of range exactly when the address lies outside the memory; this is
told in words unless the address is too long to be written. A store gives the word that it stores to
and keeps all others, and a refused one keeps them all. -/
theorem reads_last_stored {size space : Int} (hm : create size space = .ok m)
    (cs : List MemoryCommand) :
    (∀ a : Int, (m.after cs).perform (.read a)
        = (if 0 ≤ a / 4 ∧ a / 4 < size then .ok (.number (wordAfter (a / 4) cs.reverse))
          else .error (.memory (.outOfRange a size.toNat)), m.after cs) ∧
      ((∃ text, (MemoryError.outOfRange a size.toNat).message = .ok text) ↔
        (Decimal.digits a.natAbs).length ≤ Decimal.maxDigits)) ∧
    ∀ a v : Int, let x := (m.after cs).perform (.write a v)
      (∀ e, x.1 = .error e → x.2 = m.after cs) ∧
      (∀ y, x.1 = .ok y → y = .number (a / 4)) ∧
      ∀ k : Nat, (k : Int) ≠ a / 4 → x.2.words[k]? = (m.after cs).words[k]? := by
  refine ⟨fun a => ⟨perform_read_after hm cs a, exists_message_iff a size.toNat⟩, fun a v => ?_⟩
  by_cases h : 0 ≤ a / 4 ∧ a / 4 < (m.after cs).size
  · rw [perform_write_of_inside h]
    refine ⟨fun e he => ?_, fun y hy => ?_, fun k hk => ?_⟩
    · cases he
    · cases hy
      rfl
    · have hne : (a / 4).toNat ≠ k := by omega
      simp [store, hne]
  · rw [perform_write_of_outside h]
    refine ⟨fun e _ => rfl, fun y hy => ?_, fun k _ => rfl⟩
    cases hy

theorem reads_last_stored_preload :
    ∃ m, create 3 = .ok m ∧
      let n := m.after [.write 4 1, .reset, .write 1 0x80000000, .preload [5, 6, 7] 1,
        .write 7 0x100000002, .write (-1) 3, .write 12 4, .preload [8] (-1)]
      (n.perform (.read 3)).1 = .ok (.number (-0x80000000)) ∧
        (n.perform (.read 4)).1 = .ok (.number 2) ∧ (n.perform (.read 8)).1 = .ok (.number 6) ∧
        (n.perform (.read (-1))).1 = .error (.memory (.outOfRange (-1) 3)) := by
  obtain ⟨m, hm⟩ : ∃ m, create 3 = .ok m := ⟨_, rfl⟩
  have hread := fun a => congrArg Prod.fst ((reads_last_stored hm [.write 4 1, .reset,
    .write 1 0x80000000, .preload [5, 6, 7] 1, .write 7 0x100000002, .write (-1) 3, .write 12 4,
    .preload [8] (-1)]).1 a).1
  exact ⟨m, hm, hread 3, hread 4, hread 8, hread (-1)⟩

/-- The least address that is too long to be written is refused, but the refusal has no message. -/
theorem read_untold : ∃ m, create 4 = .ok m ∧
    ∃ e, (m.perform (.read (Nat.pow 10 Decimal.maxDigits))).1 = .error (.memory e) ∧
      e.message = .error .writing := by
  obtain ⟨m, hm⟩ : ∃ m, create 4 = .ok m := ⟨_, rfl⟩
  have hpow : ∀ k, 5 ≤ k → 16 ≤ Nat.pow 10 k := fun k hk =>
    Nat.le_trans (by decide) (Nat.pow_le_pow_right (by decide) hk)
  have hbig := hpow Decimal.maxDigits (by decide)
  have hlong := @Decimal.write_of_pow_le
  -- From here on the power is known only by its numeral and its least size.
  generalize Nat.pow 10 Decimal.maxDigits = n at *
  have hout : ¬ (0 ≤ (n : Int) / 4 ∧ (n : Int) / 4 < m.size) := by
    cases hm
    simp [DataMemory.size]
    omega
  refine ⟨m, hm, .outOfRange n m.size, ?_, ?_⟩
  · rw [perform_read, if_neg hout]
  · rw [MemoryError.message, hlong (v := (n : Int)) (by omega)]
    rfl

end DataMemory

end Datapath
