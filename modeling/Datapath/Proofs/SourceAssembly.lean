import Datapath.Proofs.ExportedProgram

set_option autoImplicit false

namespace Datapath

namespace Asm

variable {token : Text} {v : Option Int}

theorem exists_registerNumber? (h : operand? token = .ok v) :
    ∃ i, registerNumber? token = .ok i := by
  unfold operand? at h
  unfold registerNumber?
  split at h
  · obtain ⟨i, hi, -⟩ := Outcome.map_eq_ok.1 h
    exact ⟨i, hi⟩
  · obtain ⟨i, hi, -⟩ := Outcome.map_eq_ok.1 h
    exact ⟨i, hi⟩
  · exact ⟨none, rfl⟩

theorem exists_read? (h : operand? token = .ok v) : ∃ u, Decimal.read? token = .ok u := by
  unfold operand? at h
  split at h
  · exact ⟨none, read?_of_letter (by decide) (by decide) (by decide) (by decide) _⟩
  · exact ⟨none, read?_of_letter (by decide) (by decide) (by decide) (by decide) _⟩
  · exact ⟨v, h⟩

end Asm

namespace Encoding

/-- No numeral was too long to read. -/
def Legible {α : Type} (x : Except EncodeFailure α) : Prop := ∀ e, x ≠ .error (.limit e)

namespace Legible

variable {α β : Type}

theorem ok (a : α) : Legible (.ok a) := fun _ h => by cases h

theorem rejected (e : EncodeError) : Legible (.error (.rejected e) : Except EncodeFailure α) :=
  fun _ h => by cases h

theorem bind {x : Except EncodeFailure α} {f : α → Except EncodeFailure β} (hx : Legible x)
    (hf : ∀ a, Legible (f a)) : Legible (x >>= f) := by
  cases x with
  | ok a => exact hf a
  | error e =>
    intro e' h
    cases h
    exact hx e' rfl

theorem map {x : Except EncodeFailure α} (hx : Legible x) (f : α → β) : Legible (f <$> x) := by
  cases x with
  | ok a => exact ok (f a)
  | error e =>
    intro e' h
    cases h
    exact hx e' rfl

end Legible

variable {mnemonic token : Text} {v : Option Int} {f : Fields}

theorem legible_register (h : Asm.operand? token = .ok v) : Legible (register mnemonic token) := by
  obtain ⟨i, hi⟩ := Asm.exists_registerNumber? h
  unfold register
  rw [hi]
  refine Legible.bind (.ok i) fun found => ?_
  cases found with
  | none => exact .rejected _
  | some i =>
    dsimp only
    split
    · exact .ok i
    · exact .rejected _

theorem legible_immediate (h : Asm.operand? token = .ok v) :
    Legible (immediate mnemonic token) := by
  obtain ⟨u, hu⟩ := Asm.exists_read? h
  unfold immediate
  rw [hu]
  refine Legible.bind (.ok u) fun found => ?_
  cases found with
  | none => exact .rejected _
  | some v => exact .ok v

theorem legible_readRegisters {slots : List (Role × Text)}
    (h : ∀ s ∈ slots, ∃ v, Asm.operand? s.2 = .ok v) :
    Legible (readRegisters mnemonic f slots) := by
  fun_induction readRegisters mnemonic f slots with
  | case1 f => exact .ok f
  | case2 f token rest ih => exact ih fun s hs => h s (by simp [hs])
  | case3 f role token rest _ ih =>
    obtain ⟨v, hv⟩ := h (role, token) (by simp)
    exact (legible_register hv).bind fun i => ih i fun s hs => h s (by simp [hs])

theorem legible_readImmediate {slots : List (Role × Text)}
    (h : ∀ s ∈ slots, ∃ v, Asm.operand? s.2 = .ok v) :
    Legible (readImmediate mnemonic f slots) := by
  fun_induction readImmediate mnemonic f slots with
  | case1 f => exact .ok f
  | case2 f token rest =>
    obtain ⟨v, hv⟩ := h (.imm, token) (by simp)
    exact (legible_immediate hv).bind fun v => .ok _
  | case3 f s rest _ ih => exact ih fun s hs => h s (by simp [hs])

theorem legible_fields {format : Format} {operands : List Text}
    (h : ∀ t ∈ operands, ∃ v, Asm.operand? t = .ok v) :
    Legible (fields mnemonic format operands) := by
  unfold fields
  split
  · exact .rejected _
  · have hslots : ∀ s ∈ format.roles.zip operands, ∃ v, Asm.operand? s.2 = .ok v :=
      fun s hs => h s.2 (List.of_mem_zip hs).2
    exact (legible_readRegisters hslots).bind fun f => legible_readImmediate hslots

theorem legible_encode {line : Text} {x : Option Instruction} (hl : Asm.Plain line)
    (h : Instruction.parse? line = .ok x) : Legible (encode line) := by
  refine Legible.map ?_ _
  unfold Instruction.parse? at h
  unfold word
  rw [Asm.beforeComment_of_plain hl]
  split
  · exact .rejected _
  · next first operands ht =>
    rw [ht] at h
    obtain ⟨values, hv, -⟩ := Outcome.map_eq_ok.1 h
    have hread : ∀ t ∈ operands, ∃ v, Asm.operand? t = .ok v := by
      intro t hm
      obtain ⟨v, -, hv⟩ := Outcome.exists_of_mem_forall₂ (Outcome.mapM_eq_ok.1 hv).flip hm
      exact ⟨v, hv⟩
    dsimp only
    split
    · exact .rejected _
    · split
      · exact .ok _
      · exact (legible_fields hread).map _

theorem encode_shape {line w : Text} (h : encode line = .ok w) :
    w.length = 32 ∧ ∀ c ∈ w, c = '0' ∨ c = '1' := by
  obtain ⟨n, -, rfl⟩ := Outcome.map_eq_ok.1 h
  exact ⟨Bits.length_row 32 n, fun c hc => Bits.mem_row hc⟩

/-- The lowest seven bits of a word name its opcode, and none of them names it by zeros. -/
theorem encode_ne_zeroWord {line w : Text} (h : encode line = .ok w) : w ≠ zeroWord := by
  obtain ⟨n, hn, rfl⟩ := Outcome.map_eq_ok.1 h
  obtain ⟨-, -, op, f, -, rfl, hf, -⟩ := word_eq_ok hn
  intro hz
  have hvalue : op.word f % Bits.rowCount 32 = 0 := by
    rw [← Bits.value_row, hz]
    decide
  have hmajor : Bits.field (op.word f) 6 0 = op.spec.major := (Opcode.matches_word hf).1
  have hfield := Bits.natCast_field_zero (op.word f) 6
  have hpos : 0 < op.spec.major := by
    cases op <;> decide
  have e32 : Bits.rowCount 32 = 0x100000000 := rfl
  have e7 : Bits.rowCount (6 + 1) = 0x80 := rfl
  rw [e32] at hvalue
  rw [e7, hmajor] at hfield
  omega

end Encoding

namespace AssembledLine

variable {number : Nat} {raw : Text} {l : AssembledLine}

theorem exists_ofLine {x : Option Instruction} (number : Nat) (hl : Asm.Plain raw)
    (hx : Instruction.parse? raw = .ok x) : ∃ l, ofLine number raw = .ok l := by
  have hlegible := Encoding.legible_encode hl hx
  unfold ofLine
  cases h : Encoding.encode raw with
  | ok w => exact ⟨_, rfl⟩
  | error e =>
    cases e with
    | rejected e => exact ⟨_, rfl⟩
    | limit e => exact absurd h (hlegible e)

theorem shape_of_ofLine (h : ofLine number raw = .ok l) :
    l.word.length = 32 ∧ ∀ c ∈ l.word, c = '0' ∨ c = '1' := by
  obtain ⟨-, -, ⟨hw, -⟩ | ⟨e, -, hw, -⟩⟩ := ofLine_eq_ok h
  · exact Encoding.encode_shape hw
  · rw [hw]
    exact ⟨rfl, fun c hc => .inl (List.eq_of_mem_replicate hc)⟩

theorem cause_eq_none_iff (h : ofLine number raw = .ok l) : l.cause = none ↔ l.word ≠ zeroWord := by
  obtain ⟨-, -, ⟨hw, hc⟩ | ⟨e, -, hw, hc⟩⟩ := ofLine_eq_ok h
  · exact iff_of_true hc (Encoding.encode_ne_zeroWord hw)
  · simp [hw, hc]

end AssembledLine

namespace Assembly

variable {a : Assembly} {l : AssembledLine}

def Ordered (a : Assembly) : Prop := a.lines.Pairwise fun l l' => l.number < l'.number

theorem number_of_failure? {f : AssemblyFailure} (h : l.failure? = some f) :
    f.number = l.number := by
  obtain ⟨e, -, rfl⟩ := Option.map_eq_some_iff.1 h
  rfl

theorem Ordered.failures (h : a.Ordered) :
    a.failures.Pairwise fun f f' => f.number < f'.number := by
  rw [a.failures_eq]
  refine List.pairwise_filterMap.2 (h.imp ?_)
  intro l l' hlt f hf f' hf'
  rw [number_of_failure? hf, number_of_failure? hf']
  exact hlt

theorem filter_failures_eq_nil {ls : List AssembledLine} {n : Nat}
    (h : ∀ l ∈ ls, l.number ≠ n) : (ls.filterMap (·.failure?)).filter (·.number = n) = [] := by
  rw [List.filter_eq_nil_iff]
  intro f hf
  obtain ⟨l, hl, hlf⟩ := List.mem_filterMap.1 hf
  rw [number_of_failure? hlf]
  simpa using h l hl

theorem Ordered.filter_failures (h : a.Ordered) (hl : l ∈ a.lines) :
    a.failures.filter (·.number = l.number) = l.failure?.toList := by
  unfold Ordered at h
  rw [a.failures_eq]
  generalize a.lines = ls at h hl
  induction ls with
  | nil => cases hl
  | cons first rest ih =>
    obtain ⟨hfirst, hrest⟩ := List.pairwise_cons.1 h
    cases List.mem_cons.1 hl with
    | inl heq =>
      subst heq
      have hnone := filter_failures_eq_nil fun l' hl' => Nat.ne_of_gt (hfirst l' hl')
      cases hf : l.failure? with
      | none => simpa [hf] using hnone
      | some f => simp [hf, number_of_failure? hf, hnone]
    | inr hl =>
      have hne := Nat.ne_of_lt (hfirst l hl)
      cases hf : first.failure? with
      | none => simpa [hf] using ih hrest hl
      | some f => simpa [hf, number_of_failure? hf, hne] using ih hrest hl

theorem succeeded_iff (h : ∀ l ∈ a.lines, l.cause = none ↔ l.word ≠ zeroWord) :
    a.succeeded = true ↔ zeroWord ∉ a.words := by
  have hcause : a.succeeded = true ↔ ∀ l ∈ a.lines, l.cause = none := by
    simp [succeeded, a.errors_eq, a.failures_eq, AssembledLine.failure?]
  rw [hcause, words, List.mem_map]
  constructor
  · intro hall hz
    obtain ⟨l, hl, hw⟩ := hz
    exact (h l hl).1 (hall l hl) hw
  · intro hz l hl
    exact (h l hl).2 fun hw => hz ⟨l, hl, hw⟩

end Assembly

/-- The lines of a program come from the source lines of these numbers, and from no others. -/
structure Program.NumberedBy (p : Program) (source : Text) (numbers : List Nat) : Prop where
  length : numbers.length = p.length
  increasing : numbers.Pairwise (· < ·)
  holds : ∀ n raw, Asm.Holds source n raw ↔
    ∃ (i : Nat) (line : Slot), numbers[i]? = some n ∧ p.lines[i]? = some line ∧ line.raw = raw

/-- The words of an assembly are those of the lines of a program. A line without a word has the word
of zeros and one failure. -/
structure Assembly.Mirrors (a : Assembly) (p : Program) (numbers : List Nat) : Prop where
  length : a.words.length = p.length
  bits : ∀ w ∈ a.words, w.length = 32 ∧ ∀ c ∈ w, c = '0' ∨ c = '1'
  word : ∀ (i n : Nat) (line : Slot) (w : Text),
    numbers[i]? = some n → p.lines[i]? = some line → a.words[i]? = some w →
      Encoding.encode line.raw = .ok w ∧ w ≠ zeroWord ∧
        a.failures.filter (·.number = n) = [] ∨
      ∃ e, Encoding.encode line.raw = .error (.rejected e) ∧ w = zeroWord ∧
        a.failures.filter (·.number = n) = [⟨n, line.raw, e⟩]
  errors : a.errors = a.failures.map (·.message)
  increasing : a.failures.Pairwise fun f f' => f.number < f'.number
  numbered : ∀ f ∈ a.failures, f.number ∈ numbers
  succeeded : a.succeeded = true ↔ zeroWord ∉ a.words

theorem Program.numberedBy {source : Text} {lines : List (Nat × Text)} {p : Program}
    (hl : Asm.numberedLines source = .ok lines)
    (hp : List.Forall₂ (fun line (l : Slot) => l.raw = line.2) lines p.lines) :
    p.NumberedBy source (lines.map Prod.fst) where
  length := by rw [List.length_map, hp.length_eq, Program.length]
  increasing := List.pairwise_map.2 (Asm.pairwise_numberedLines hl)
  holds n raw := by
    rw [← Asm.mem_numberedLines hl, List.mem_iff_getElem?]
    constructor
    · intro hm
      obtain ⟨i, hi⟩ := hm
      have hlt : i < p.lines.length := hp.length_eq ▸ (List.getElem?_eq_some_iff.1 hi).1
      have hraw := Outcome.rel_of_getElem? hp hi (List.getElem?_eq_getElem hlt)
      exact ⟨i, p.lines[i], by simp [hi], List.getElem?_eq_getElem hlt, hraw⟩
    · intro hm
      obtain ⟨i, line, hn, hline, rfl⟩ := hm
      obtain ⟨⟨k, raw⟩, hi, rfl⟩ := Option.map_eq_some_iff.1 (List.getElem?_map.symm.trans hn)
      exact ⟨i, by rw [hi, Outcome.rel_of_getElem? hp hi hline]⟩

theorem Assembly.exists_ofSource {source : Text} {lines : List (Nat × Text)} {p : Program}
    (hl : Asm.numberedLines source = .ok lines)
    (hp : List.Forall₂ (fun line (l : Slot) => Instruction.parse? line.2 = .ok l.parsed)
      lines p.lines) :
    ∃ a, Assembly.ofSource source = .ok a ∧
      List.Forall₂ (fun line l => AssembledLine.ofLine line.1 line.2 = .ok l) lines a.lines := by
  have hlines : ∀ line ∈ lines, ∃ l,
      (AssembledLine.ofLine line.1 line.2).mapError LoadError.limit = .ok l ∧
      AssembledLine.ofLine line.1 line.2 = .ok l := by
    intro line hm
    obtain ⟨slot, -, hx⟩ := Outcome.exists_of_mem_forall₂ hp.flip hm
    obtain ⟨l, h⟩ := AssembledLine.exists_ofLine line.1 (Asm.plain_numberedLines hl hm) hx
    exact ⟨l, Outcome.mapError_eq_ok.2 h, h⟩
  obtain ⟨als, hals, hall⟩ := Outcome.exists_mapM (List.forall₂_same.2 hlines)
  refine ⟨ofLines als, ?_, (lines_ofLines als).symm ▸ hall⟩
  rw [ofSource, hl]
  exact Outcome.bind_eq_ok.2 ⟨lines, rfl, Outcome.bind_eq_ok.2 ⟨als, hals, rfl⟩⟩

theorem Assembly.exists_of_load {source : Text} {p : Program} (h : Program.load source = .ok p) :
    ∃ a, Assembly.ofSource source = .ok a := by
  obtain ⟨lines, hl, hp⟩ := Program.exists_numberedLines h
  obtain ⟨a, ha, -⟩ := exists_ofSource hl (hp.imp fun _ _ h => h.2)
  exact ⟨a, ha⟩

theorem Assembly.mirrors {lines : List (Nat × Text)} {a : Assembly} {p : Program}
    (hsorted : lines.Pairwise fun line line' => line.1 < line'.1)
    (hp : List.Forall₂ (fun line (l : Slot) => l.raw = line.2) lines p.lines)
    (ha : List.Forall₂ (fun line l => AssembledLine.ofLine line.1 line.2 = .ok l) lines a.lines) :
    a.Mirrors p (lines.map Prod.fst) := by
  have hordered : a.Ordered := by
    refine Outcome.pairwise_of_forall₂ ?_ ha hsorted
    intro line line' l l' hline hline' hlt
    rwa [(AssembledLine.ofLine_eq_ok hline).1, (AssembledLine.ofLine_eq_ok hline').1]
  have hlines : ∀ l ∈ a.lines, ∃ line ∈ lines, AssembledLine.ofLine line.1 line.2 = .ok l :=
    fun l hl => Outcome.exists_of_mem_forall₂ ha hl
  constructor
  case length => rw [words, List.length_map, ← ha.length_eq, hp.length_eq, Program.length]
  case bits =>
    intro w hw
    obtain ⟨l, hm, rfl⟩ := List.mem_map.1 hw
    obtain ⟨line, -, hline⟩ := hlines l hm
    exact AssembledLine.shape_of_ofLine hline
  case word =>
    intro i n line w hn hline hw
    obtain ⟨⟨k, raw⟩, hi, rfl⟩ := Option.map_eq_some_iff.1 (List.getElem?_map.symm.trans hn)
    obtain ⟨l, hl, rfl⟩ := Option.map_eq_some_iff.1 (List.getElem?_map.symm.trans hw)
    have hraw : line.raw = raw := Outcome.rel_of_getElem? hp hi hline
    obtain ⟨hnumber, htext, hword⟩ := AssembledLine.ofLine_eq_ok (Outcome.rel_of_getElem? ha hi hl)
    dsimp only at hnumber htext hword
    have hfilter := hordered.filter_failures (List.mem_of_getElem? hl)
    rw [hraw, ← hnumber, hfilter, AssembledLine.failure?]
    obtain ⟨he, hc⟩ | ⟨e, he, hz, hc⟩ := hword
    · left
      exact ⟨he, Encoding.encode_ne_zeroWord he, by simp [hc]⟩
    · right
      exact ⟨e, he, hz, by simp [hc, htext]⟩
  case errors => exact a.errors_eq
  case increasing => exact hordered.failures
  case numbered =>
    intro f hf
    rw [a.failures_eq] at hf
    obtain ⟨l, hm, hlf⟩ := List.mem_filterMap.1 hf
    obtain ⟨line, hmem, hline⟩ := hlines l hm
    rw [number_of_failure? hlf, (AssembledLine.ofLine_eq_ok hline).1]
    exact List.mem_map_of_mem hmem
  case succeeded =>
    apply succeeded_iff
    intro l hm
    obtain ⟨line, -, hline⟩ := hlines l hm
    exact AssembledLine.cause_eq_none_iff hline

/-- A source that loads is assembled as well, line by line. -/
theorem Program.assembled {source : Text} {p : Program} (h : Program.load source = .ok p) :
    ∃ a numbers, Assembly.ofSource source = .ok a ∧ p.NumberedBy source numbers ∧
      a.Mirrors p numbers := by
  obtain ⟨lines, hl, hp⟩ := exists_numberedLines h
  have hraw := hp.imp fun _ _ h => h.1
  obtain ⟨a, ha, hals⟩ := Assembly.exists_ofSource hl (hp.imp fun _ _ h => h.2)
  exact ⟨a, lines.map Prod.fst, ha, numberedBy hl hraw,
    Assembly.mirrors (Asm.pairwise_numberedLines hl) hraw hals⟩

theorem Program.assembled_unsupported :
    ∃ (a : Assembly) (numbers : List Nat),
      let source := "# start\n.text\nx: addi a0, zero, 5 ; five\n\n bad ra\nnop".toList
      Assembly.ofSource source = .ok a ∧ numbers.length = 3 ∧ numbers.Pairwise (· < ·) ∧
        numbers[1]? = some 5 ∧ a.words[1]? = some zeroWord ∧ a.succeeded = false ∧
        a.failures.filter (·.number = 5) = [⟨5, "bad x1".toList, .unsupported "bad".toList⟩] := by
  let source := "# start\n.text\nx: addi a0, zero, 5 ; five\n\n bad ra\nnop".toList
  obtain ⟨p, hp, hraws⟩ : ∃ p, Program.load source = .ok p ∧
      p.lines.map (·.raw) = ["addi x10, x0, 5".toList, "bad x1".toList, "nop".toList] :=
    ⟨_, rfl, rfl⟩
  obtain ⟨a, numbers, ha, hn, hm⟩ := assembled hp
  have hlength : p.length = 3 := by
    rw [length, ← List.length_map (f := (·.raw)), hraws]
    rfl
  have hholds : Asm.Holds source 5 "bad x1".toList := ⟨_, by decide, rfl, rfl⟩
  obtain ⟨i, line, hi, hline, hraw⟩ := (hn.holds 5 _).1 hholds
  obtain rfl : i = 1 := by
    have hget : (p.lines.map (·.raw))[i]? = some "bad x1".toList := by simp [hline, hraw]
    rw [hraws] at hget
    rcases i with _ | _ | _ | i <;> simp at hget ⊢
  have hlt : 1 < a.words.length := by
    rw [hm.length, hlength]
    decide
  have hw := List.getElem?_eq_getElem hlt
  refine ⟨a, numbers, ha, hn.length.trans hlength, hn.increasing, hi, ?_⟩
  rcases hm.word 1 5 line _ hi hline hw with ⟨he, -⟩ | ⟨e, he, hz, hf⟩
  · rw [hraw] at he
    cases he
  · rw [hraw] at he hf
    cases he
    refine ⟨hz ▸ hw, ?_, hf⟩
    rw [← Bool.not_eq_true, hm.succeeded, not_not, ← hz]
    exact List.getElem_mem hlt

end Datapath
