import Mathlib.Data.List.TakeDrop
import Datapath.Proofs.RoundTrip
import Datapath.Proofs.View

set_option autoImplicit false

namespace Datapath

namespace Asm

theorem plain_of_subset {t u : Text} (h : Plain t) (hs : u ⊆ t) : Plain u :=
  fun c hc => h c (hs hc)

theorem dropEndWhile_subset (p : Char → Bool) (t : Text) : Text.dropEndWhile p t ⊆ t := by
  intro c hc
  have hr := List.mem_reverse.1 hc
  exact List.mem_reverse.1 ((List.dropWhile_sublist p).subset hr)

theorem trim_subset (t : Text) : Text.trim t ⊆ t := fun _ hc =>
  (List.dropWhile_sublist _).subset (dropEndWhile_subset _ _ hc)

theorem dropLabel_subset (line : Text) : dropLabel line ⊆ line := by
  unfold dropLabel
  rw [List.span_eq_takeWhile_dropWhile]
  split
  · exact List.Subset.refl line
  · next rest _ heq =>
    have hrest : line.dropWhile Text.isWordChar = ':' :: rest := congrArg Prod.snd heq
    intro c hc
    apply (List.dropWhile_sublist Text.isWordChar).subset
    rw [hrest]
    exact List.mem_cons_of_mem _ ((List.dropWhile_sublist _).subset hc)
  · exact List.Subset.refl line

theorem plain_instructionText? {line raw : Text} (h : instructionText? line = .ok (some raw)) :
    Plain raw := by
  have hbody : Plain (dropLabel (Text.trim (beforeComment line))) :=
    plain_of_subset (plain_beforeComment line)
      (List.Subset.trans (dropLabel_subset _) (trim_subset _))
  unfold instructionText? at h
  split at h
  · cases h
  · cases h
  · cases h
  · split at h
    · cases h
    · obtain ⟨renamed, hr, h⟩ := Outcome.map_eq_ok.1 h
      dsimp only at h
      split at h
      · cases h
      · cases h
        exact plain_of_subset (plain_renameRegisters hbody hr) (trim_subset renamed)

variable {source raw : Text} {lines : List (Nat × Text)} {n : Nat}

def Holds (source : Text) (n : Nat) (raw : Text) : Prop :=
  ∃ line, 1 ≤ n ∧ (Text.lines source)[n - 1]? = some line ∧ instructionText? line = .ok (some raw)

def Numbered (line : Text × Nat) (found : Option (Nat × Text)) : Prop :=
  ∃ text, instructionText? line.1 = .ok text ∧ found = text.map (line.2, ·)

theorem numberedLines_eq_ok (h : numberedLines source = .ok lines) :
    ∃ found, List.Forall₂ Numbered ((Text.lines source).zipIdx 1) found ∧
      lines = found.filterMap id := by
  obtain ⟨found, hf, rfl⟩ := Outcome.map_eq_ok.1 h
  refine ⟨found, (Outcome.mapM_eq_ok.1 hf).imp ?_, rfl⟩
  intro line x hx
  obtain ⟨text, ht, heq⟩ := Outcome.map_eq_ok.1 hx
  exact ⟨text, ht, heq.symm⟩

theorem pairwise_zipIdx (ls : List Text) (k : Nat) :
    (ls.zipIdx k).Pairwise (fun a b => a.2 < b.2) := by
  induction ls generalizing k with
  | nil => exact .nil
  | cons line rest ih =>
    refine List.pairwise_cons.2 ⟨?_, ih (k + 1)⟩
    intro b hb
    exact List.le_snd_of_mem_zipIdx hb

theorem pairwise_numberedLines (h : numberedLines source = .ok lines) :
    lines.Pairwise (fun a b => a.1 < b.1) := by
  obtain ⟨found, hf, rfl⟩ := numberedLines_eq_ok h
  rw [List.pairwise_filterMap]
  refine Outcome.pairwise_of_forall₂ ?_ hf (pairwise_zipIdx _ 1)
  intro a a' x x' hx hx' hlt y hy y' hy'
  obtain ⟨text, -, rfl⟩ := hx
  obtain ⟨text', -, rfl⟩ := hx'
  obtain ⟨_, -, rfl⟩ := Option.map_eq_some_iff.1 hy
  obtain ⟨_, -, rfl⟩ := Option.map_eq_some_iff.1 hy'
  exact hlt

theorem mem_numberedLines (h : numberedLines source = .ok lines) :
    (n, raw) ∈ lines ↔ Holds source n raw := by
  obtain ⟨found, hf, rfl⟩ := numberedLines_eq_ok h
  simp only [List.mem_filterMap, id_eq, exists_eq_right]
  constructor
  · intro hm
    obtain ⟨⟨line, k⟩, hline, text, ht, heq⟩ := Outcome.exists_of_mem_forall₂ hf hm
    obtain ⟨t, rfl, heq⟩ := Option.map_eq_some_iff.1 heq.symm
    cases heq
    obtain ⟨hk, hget⟩ := List.mk_mem_zipIdx_iff_le_and_getElem?_sub.1 hline
    exact ⟨line, hk, hget, ht⟩
  · intro hholds
    obtain ⟨line, hn, hget, ht⟩ := hholds
    have hline := List.mk_mem_zipIdx_iff_le_and_getElem?_sub.2 ⟨hn, hget⟩
    obtain ⟨x, hx, text, ht', rfl⟩ := Outcome.exists_of_mem_forall₂ hf.flip hline
    cases ht.symm.trans ht'
    exact hx

theorem mem_instructionTexts {texts : List Text} (h : instructionTexts source = .ok texts)
    (hraw : raw ∈ texts) : ∃ line ∈ Text.lines source, instructionText? line = .ok (some raw) := by
  obtain ⟨lines, hlines, rfl⟩ := Outcome.map_eq_ok.1 h
  obtain ⟨⟨n, raw⟩, hmem, rfl⟩ := List.mem_map.1 hraw
  obtain ⟨line, -, hget, hline⟩ := (mem_numberedLines hlines).1 hmem
  exact ⟨line, List.mem_of_getElem? hget, hline⟩

theorem plain_numberedLines (h : numberedLines source = .ok lines) {line : Nat × Text}
    (hl : line ∈ lines) : Plain line.2 := by
  obtain ⟨_, -, -, ht⟩ := (mem_numberedLines h).1 hl
  exact plain_instructionText? ht

end Asm

theorem Program.lines_place (slots : List (Text × Option Instruction)) :
    (place slots).lines.map (fun l => (l.raw, l.parsed)) = slots := by
  simp only [place, List.map_map]
  apply List.ext_getElem
  · simp
  · intro i _ _
    simp

theorem Program.exists_numberedLines {source : Text} {p : Program}
    (h : Program.load source = .ok p) :
    ∃ lines, Asm.numberedLines source = .ok lines ∧ List.Forall₂
      (fun line (l : Slot) => l.raw = line.2 ∧ Instruction.parse? line.2 = .ok l.parsed)
      lines p.lines := by
  obtain ⟨texts, ht, h⟩ := Outcome.bind_eq_ok.1 h
  obtain ⟨slots, hs, h⟩ := Outcome.bind_eq_ok.1 h
  cases h
  obtain ⟨lines, hl, rfl⟩ := Outcome.map_eq_ok.1 (Outcome.mapError_eq_ok.1 ht)
  refine ⟨lines, hl, ?_⟩
  have hf := Outcome.mapM_eq_ok.1 hs
  rw [← lines_place slots, List.forall₂_map_left_iff, List.forall₂_map_right_iff] at hf
  refine hf.imp ?_
  intro line slot hslot
  obtain ⟨x, hx, heq⟩ := Outcome.map_eq_ok.1 (Outcome.mapError_eq_ok.1 hslot)
  obtain ⟨hraw, hparsed⟩ := Prod.mk.inj heq
  exact ⟨hraw.symm, hparsed ▸ hx⟩

theorem Program.load_eq_ok {source : Text} {p : Program} (h : Program.load source = .ok p) :
    ∃ lines, Asm.numberedLines source = .ok lines ∧
      List.Forall₂ (fun line x => Instruction.parse? line.2 = .ok x) lines p.code := by
  obtain ⟨lines, hl, hf⟩ := exists_numberedLines h
  refine ⟨lines, hl, ?_⟩
  rw [code, List.forall₂_map_right_iff]
  exact hf.imp fun _ _ h => h.2

theorem AssembledLine.ofLine_eq_ok {number : Nat} {raw : Text} {l : AssembledLine}
    (h : ofLine number raw = .ok l) :
    l.number = number ∧ l.line = raw ∧
      (Encoding.encode raw = .ok l.word ∧ l.cause = none ∨
        ∃ e, Encoding.encode raw = .error (.rejected e) ∧ l.word = zeroWord ∧
          l.cause = some e) := by
  unfold ofLine at h
  cases hw : Encoding.encode raw with
  | ok w =>
    rw [hw] at h
    cases h
    exact ⟨rfl, rfl, .inl ⟨rfl, rfl⟩⟩
  | error e =>
    rw [hw] at h
    cases e with
    | rejected e =>
      cases h
      exact ⟨rfl, rfl, .inr ⟨e, rfl, rfl, rfl⟩⟩
    | limit e => cases h

theorem Assembly.ofSource_eq_ok {source : Text} {a : Assembly}
    (h : Assembly.ofSource source = .ok a) (hs : a.succeeded = true) :
    ∃ lines, Asm.numberedLines source = .ok lines ∧
      List.Forall₂ (fun line w => Encoding.encode line.2 = .ok w) lines a.words := by
  obtain ⟨lines, hl, h⟩ := Outcome.bind_eq_ok.1 h
  obtain ⟨als, ha, h⟩ := Outcome.bind_eq_ok.1 h
  cases h
  refine ⟨lines, Outcome.mapError_eq_ok.1 hl, ?_⟩
  have hcause : ∀ l ∈ als, l.cause = none := by
    intro l hm
    simp only [succeeded, errors_eq, failures_eq, lines_ofLines, List.isEmpty_iff,
      List.map_eq_nil_iff, List.filterMap_eq_nil_iff] at hs
    simpa [AssembledLine.failure?] using hs l hm
  rw [words, lines_ofLines, List.forall₂_map_right_iff]
  have hf := List.Forall₂.flip (Outcome.mapM_eq_ok.1 ha)
  have hboth := List.Forall₂.flip ((List.forall₂_and_left als lines).2 ⟨hcause, hf⟩)
  refine hboth.imp ?_
  rintro line l ⟨hc, hline⟩
  obtain ⟨-, -, ⟨hw, -⟩ | ⟨e, -, -, he⟩⟩ :=
    AssembledLine.ofLine_eq_ok (Outcome.mapError_eq_ok.1 hline)
  · exact hw
  · cases hc.symm.trans he

/-- The word of a line decodes to an instruction that plans the same. -/
theorem Decoding.samePlan_of_encode {line w : Text} {x : Option Instruction} (hl : Asm.Plain line)
    (hw : Encoding.encode line = .ok w) (hx : Instruction.parse? line = .ok x)
    (hfit : ∀ i, x = some i → i.Fits) :
    ∃ d, decodeText w = .ok d ∧ View.SamePlan x (some d) := by
  obtain ⟨n, hn, rfl⟩ := Outcome.map_eq_ok.1 hw
  obtain ⟨i, op, f, rfl, hd, rfl⟩ := Instruction.denotes_of_word hl hn hx
  refine ⟨Instruction.canonical op f, ?_, i, Instruction.canonical op f, rfl, rfl, ?_⟩
  · rw [decodeText_row, decode_word hd.bounded, Fields.wrap_of_fits (hd.fits (hfit i rfl))]
    rfl
  · intro r m pc
    exact hd.plan_eq

/-- The words of a program mean the same program. -/
theorem Program.exported_agrees {source : Text} {p : Program} {a : Assembly}
    (hp : Program.load source = .ok p) (ha : Assembly.ofSource source = .ok a)
    (hs : a.succeeded = true) (hfit : ∀ l ∈ p.lines, ∀ i, l.parsed = some i → i.Fits) :
    ∃ decoded, a.words.mapM Decoding.decodeText = .ok decoded ∧
      ∀ q : Program, q.lines.map (·.parsed) = decoded.map some →
        ∀ m m' : Machine, m.memory.size = m'.memory.size → ∀ n,
          let x := (m.load source).2.stepMany n
          let y := (m'.install q).stepMany n
          x.2.view = y.2.view ∧
            x.1.map (List.map StepReport.bare) = y.1.map (List.map StepReport.bare) := by
  obtain ⟨lines, hlines, hcode⟩ := Program.load_eq_ok hp
  obtain ⟨lines', hlines', hwords⟩ := Assembly.ofSource_eq_ok ha hs
  obtain rfl : lines = lines' := Except.ok.inj (hlines.symm.trans hlines')
  have hplain : ∀ line ∈ lines, Asm.Plain line.2 := fun _ h => Asm.plain_numberedLines hlines h
  have hfits : ∀ x ∈ p.code, ∀ i, x = some i → i.Fits := by
    intro x hx i hi
    obtain ⟨l, hl, rfl⟩ := List.mem_map.1 hx
    exact hfit l hl i hi
  have hread := List.Forall₂.flip ((List.forall₂_and_left p.code lines).2 ⟨hfits, hcode.flip⟩)
  have hencoded := (List.forall₂_and_left lines a.words).2 ⟨hplain, hwords⟩
  -- Both readers went through the same lines, so their results go together line by line.
  have hpairs : List.Forall₂ (fun x w => ∃ d, Decoding.decodeText w = .ok d ∧
      View.SamePlan x (some d)) p.code a.words := by
    refine Outcome.forall₂_of_common ?_ hread hencoded
    rintro line x w ⟨hfit, hx⟩ ⟨hl, hw⟩
    exact Decoding.samePlan_of_encode hl hw hx hfit
  obtain ⟨decoded, hdecoded, hsame⟩ := Outcome.exists_mapM hpairs
  refine ⟨decoded, hdecoded, ?_⟩
  intro q hq m m' hsize n
  have hcodes : List.Forall₂ View.SamePlan p.code q.code := by
    have hcode' : q.code = decoded.map some := hq
    rw [hcode', List.forall₂_map_right_iff]
    exact hsame
  have hload : (m.load source).2 = m.install p := by
    simp only [Machine.load, hp]
  have hx := Machine.seen_stepMany (m.install p) n
  have hy := Machine.seen_stepMany (m'.install q) n
  rw [Machine.view_install, Machine.program_install] at hx hy
  rw [hload]
  have heq := hx.trans ((View.stepMany_congr hcodes _ n).trans (hsize ▸ hy.symm))
  exact ⟨congrArg Prod.snd heq, congrArg Prod.fst heq⟩

theorem Program.exported_agrees_halt :
    ∃ decoded, ["00000000000000000000000000010011".toList,
        "00000000000000000000000001100011".toList].mapM Decoding.decodeText = .ok decoded ∧
      ∀ q : Program, q.lines.map (·.parsed) = decoded.map some →
        ∀ m m' : Machine, m.memory.size = m'.memory.size → ∀ n,
          ((m.load "nop x9\nhere: beq zero, x0, 0 # stop".toList).2.stepMany n).2.view
            = ((m'.install q).stepMany n).2.view := by
  have hp : Program.load "nop x9\nhere: beq zero, x0, 0 # stop".toList
      = .ok ⟨[⟨"nop x9".toList, 0, some ⟨"nop".toList, [some 9]⟩⟩,
        ⟨"beq x0, x0, 0".toList, 4, some ⟨"beq".toList, [some 0, some 0, some 0]⟩⟩]⟩ := rfl
  have ha : Assembly.ofSource "nop x9\nhere: beq zero, x0, 0 # stop".toList
      = .ok (.ofLines [⟨1, "nop x9".toList, "00000000000000000000000000010011".toList, none⟩,
        ⟨2, "beq x0, x0, 0".toList, "00000000000000000000000001100011".toList, none⟩]) := rfl
  have hbeq : Instruction.Fits ⟨"beq".toList, [some 0, some 0, some 0]⟩ := by
    refine .inr fun op hop v hv => ?_
    obtain rfl : op = .beq := Opcode.name_injective hop
    obtain rfl : v = 0 := by simpa [Opcode.format, Opcode.spec, Format.roles] using hv
    decide
  obtain ⟨decoded, hd, h⟩ := exported_agrees hp ha rfl (by
    simp only [List.forall_mem_cons, Option.some.injEq, forall_eq']
    exact ⟨.inl rfl, hbeq, by simp⟩)
  exact ⟨decoded, hd, fun q hq m m' hm n => (h q hq m m' hm n).1⟩

end Datapath
