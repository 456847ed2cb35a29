import Datapath.Proofs.Respelling

/-! The renaming of registers as a scan with a pattern. Where a word starts, the pattern tries the
names one after another, longer ones first, and takes the first one behind which a word ends.
Between two such places there is nothing but a whole word, so the scan renames a text word by word.
Since names end where tokens end, the tokens of a line can be renamed instead of the line. -/

set_option autoImplicit false

namespace Datapath

namespace Text

/-- Whether a word starts or ends between two neighbours, either of which may be missing. -/
def boundary (before after : Option Char) : Bool := before.any isWordChar != after.any isWordChar

/-- The second list is the text, cut into its longest runs of word characters and the marks between
them. -/
inductive Cut : Text → List Segment → Prop
  | nil : Cut [] []
  | mark {c : Char} {t : Text} {ss : List Segment} :
    isWordChar c = false → Cut t ss → Cut (c :: t) (.mark c :: ss)
  | word {w t : Text} {ss : List Segment} :
    IsWord w → Apart t → Cut t ss → Cut (w ++ t) (.word w :: ss)

theorem cut_iff {t : Text} {ss : List Segment} : Cut t ss ↔ segments t = ss := by
  constructor
  · intro h
    induction h with
    | nil => rfl
    | mark hc _ ih => rw [segments_mark hc, ih]
    | word hw ht _ ih => rw [segments_word hw ht, ih]
  · rintro rfl
    induction t using wordInduction with
    | nil => exact .nil
    | mark c t hc ih => exact segments_mark hc t ▸ .mark hc ih
    | word w t hw ht ih => exact segments_word hw ht ▸ .word hw ht ih

theorem IsWord.any_getLast? {w : Text} (h : IsWord w) : w.getLast?.any isWordChar = true := by
  rw [List.getLast?_eq_some_getLast h.ne_nil]
  exact h.solid _ (List.getLast_mem _)

theorem IsWord.not_apart {w t : Text} (h : IsWord w) : ¬ Apart (w ++ t) := by
  intro hapart
  obtain ⟨c, w, rfl⟩ := List.exists_cons_of_ne_nil h.ne_nil
  have hc := h.solid c (by simp)
  rw [hapart c rfl] at hc
  cases hc

theorem any_head?_of_apart {t : Text} (ht : Apart t) : t.head?.any isWordChar = false := by
  cases t with
  | nil => rfl
  | cons c t => exact ht c rfl

theorem isWordChar_toLower (c : Char) : isWordChar c.toLower = isWordChar c := by
  have hall : ∀ i < 26,
      isWordChar (Char.ofNat (65 + i)).toLower = isWordChar (Char.ofNat (65 + i)) := by decide
  by_cases h : c.val ≥ 'A'.val ∧ c.val ≤ 'Z'.val
  · have hl : 65 ≤ c.toNat := UInt32.le_iff_toNat_le.1 h.1
    have hu : c.toNat ≤ 90 := UInt32.le_iff_toNat_le.1 h.2
    have hc := hall (c.toNat - 65) (by omega)
    rwa [Nat.add_sub_cancel' hl, Char.ofNat_toNat] at hc
  · rw [show c.toLower = c from dif_neg h]

theorem pieces_ne_nil (separator : Char → Bool) (t : Text) : pieces separator t ≠ [] := by
  cases t with
  | nil => simp [pieces]
  | cons c t =>
    rw [pieces]
    split
    · simp
    · cases pieces separator t <;> simp [consFirst]

theorem pieces_append {separator : Char → Bool} {t : Text} (h : ∀ c ∈ t, separator c = false)
    (rest : Text) : pieces separator (t ++ rest) = onFirst t (pieces separator rest) := by
  induction t with
  | nil =>
    obtain ⟨first, others, hfirst⟩ := List.exists_cons_of_ne_nil (pieces_ne_nil separator rest)
    rw [List.nil_append, hfirst]
    rfl
  | cons c t ih =>
    rw [List.cons_append, pieces, h c (by simp), if_neg Bool.false_ne_true,
      ih fun d hd => h d (List.mem_cons_of_mem c hd), consFirst_onFirst]

theorem head?_of_pieces {separator : Char → Bool} {t first : Text} {others : List Text}
    (h : pieces separator t = first :: others) {c : Char} (hc : first.head? = some c) :
    t.head? = some c := by
  cases t with
  | nil =>
    cases h
    cases hc
  | cons d t =>
    rw [pieces] at h
    split at h
    · cases h
      cases hc
    · cases hrest : pieces separator t <;> rw [hrest] at h <;> cases h <;> exact hc

end Text

namespace Asm

open Text (IsWord Apart Cut isWordChar boundary)

def alternatives : List Text :=
  (RegisterName.conventional.map (·.1)).mergeSort fun a b => b.length ≤ a.length

def fits (t name : Text) : Bool :=
  (t.take name.length).map foldChar = name &&
    boundary (t.take name.length).getLast? (t.drop name.length).head?

/-- The name that is found at the start of a text, which stands behind `before`. -/
def match? (before : Option Char) (t : Text) : Option Text :=
  if boundary before t.head? then alternatives.find? (fits t) else none

def numbered (found : Text) : Except UnknownName Text :=
  match RegisterName.index? (found.map Char.toLower) with
  | some i => .ok ('x' :: Decimal.digits i)
  | none => .error ⟨found.map Char.toLower⟩

/-- Replaces the names from left to right. The first `skip` characters belong to a name that has
been replaced. -/
def substitute : Option Char → Nat → Text → Except UnknownName Text
  | _, _, [] => .ok []
  | _, skip + 1, c :: t => substitute (some c) skip t
  | before, 0, c :: t =>
    match match? before (c :: t) with
    | none => (c :: ·) <$> substitute (some c) 0 t
    | some name => do
      let number ← numbered ((c :: t).take name.length)
      (number ++ ·) <$> substitute (some c) (name.length - 1) t

theorem mem_alternatives {name : Text} :
    name ∈ alternatives ↔ ∃ i, RegisterName.index? name = some i := by
  rw [← Option.isSome_iff_exists, RegisterName.index?, List.lookup_isSome_iff]
  simp only [alternatives, List.mem_mergeSort, List.mem_map, beq_iff_eq]
  exact exists_congr fun p => and_congr_right' eq_comm

theorem isWord_of_mem_alternatives {name : Text} (h : name ∈ alternatives) : IsWord name := by
  have hall : ∀ p ∈ RegisterName.conventional, p.1 ≠ [] ∧ p.1.all isWordChar = true := by decide
  simp only [alternatives, List.mem_mergeSort, List.mem_map] at h
  obtain ⟨p, hp, rfl⟩ := h
  obtain ⟨hne, hsolid⟩ := hall p hp
  exact ⟨hne, List.all_eq_true.1 hsolid⟩

theorem isWordChar_foldChar (c : Char) : isWordChar (foldChar c) = isWordChar c := by
  unfold foldChar
  split
  · next h =>
    subst h
    decide
  · exact Text.isWordChar_toLower c

theorem isWord_take_of_fits {t name : Text} (hn : name ∈ alternatives) (h : fits t name = true) :
    IsWord (t.take name.length) := by
  obtain ⟨hne, hsolid⟩ := isWord_of_mem_alternatives hn
  have hfold : (t.take name.length).map foldChar = name := by
    simpa using (Bool.and_eq_true_iff.1 h).1
  refine ⟨fun he => hne (by rw [← hfold, he]; rfl), fun c hc => ?_⟩
  rw [← isWordChar_foldChar]
  exact hsolid _ (hfold ▸ List.mem_map_of_mem hc)

theorem eq_of_boundary {w t u rest : Text} (hw : IsWord w) (ht : Apart t) (hu : IsWord u)
    (h : w ++ t = u ++ rest) (hb : boundary u.getLast? rest.head? = true) : u = w := by
  rcases List.append_eq_append_iff.1 h with ⟨v, rfl, rfl⟩ | ⟨v, rfl, rfl⟩
  · cases v with
    | nil => exact List.append_nil w
    | cons c v =>
      have hc := hu.solid c (by simp)
      rw [ht c rfl] at hc
      cases hc
  · cases v with
    | nil => exact (List.append_nil u).symm
    | cons c v =>
      have hc := hw.solid c (by simp)
      rw [boundary, hu.any_getLast?] at hb
      simp [hc] at hb

theorem fits_word {w t name : Text} (hw : IsWord w) (ht : Apart t) (hn : name ∈ alternatives) :
    fits (w ++ t) name = true ↔ w.map foldChar = name := by
  constructor
  · intro h
    obtain ⟨hfold, hb⟩ := Bool.and_eq_true_iff.1 h
    have hcut := (List.take_append_drop name.length (w ++ t)).symm
    rw [eq_of_boundary hw ht (isWord_take_of_fits hn h) hcut hb] at hfold
    exact of_decide_eq_true hfold
  · rintro rfl
    simp [fits, boundary, hw.any_getLast?, Text.any_head?_of_apart ht]

theorem match?_word {before : Option Char} (hb : before.any isWordChar = false) {w t : Text}
    (hw : IsWord w) (ht : Apart t) :
    match? before (w ++ t)
      = (RegisterName.index? (w.map foldChar)).map fun _ => w.map foldChar := by
  have hstart : boundary before (w ++ t).head? = true := by
    obtain ⟨c, w, rfl⟩ := List.exists_cons_of_ne_nil hw.ne_nil
    simp [boundary, hb, hw.solid c (by simp)]
  rw [match?, if_pos hstart]
  cases hfind : alternatives.find? (fits (w ++ t)) with
  | none =>
    cases hi : RegisterName.index? (w.map foldChar) with
    | none => rfl
    | some i =>
      have hn := mem_alternatives.2 ⟨i, hi⟩
      exact absurd ((fits_word hw ht hn).2 rfl) (List.find?_eq_none.1 hfind _ hn)
  | some name =>
    have hn := List.mem_of_find?_eq_some hfind
    have hname := (fits_word hw ht hn).1 (List.find?_some hfind)
    obtain ⟨i, hi⟩ := mem_alternatives.1 hn
    rw [hname, hi]
    rfl

theorem match?_mark (before : Option Char) {c : Char} (hc : isWordChar c = false) (t : Text) :
    match? before (c :: t) = none := by
  unfold match?
  split
  · rw [List.find?_eq_none]
    intro name hn h
    obtain ⟨d, rest, hname⟩ := List.exists_cons_of_ne_nil (isWord_of_mem_alternatives hn).ne_nil
    have hword := (isWord_take_of_fits hn h).solid c (by simp [hname])
    rw [hc] at hword
    cases hword
  · rfl

theorem match?_inside {b c : Char} (hb : isWordChar b = true) (hc : isWordChar c = true)
    (t : Text) : match? (some b) (c :: t) = none := by
  simp [match?, boundary, hb, hc]

theorem numbered_eq_renameWord {w : Text} {i : Nat}
    (h : RegisterName.index? (w.map foldChar) = some i) : numbered w = renameWord w := by
  rw [renameWord, h]
  rfl

theorem exists_substitute_skip (before : Option Char) (u t : Text) :
    ∃ b, substitute before u.length (u ++ t) = substitute b 0 t := by
  induction u generalizing before with
  | nil => exact ⟨before, rfl⟩
  | cons c u ih => exact ih (some c)

theorem exists_substitute_inside {c : Char} {u : Text} (h : ∀ d ∈ c :: u, isWordChar d = true)
    (t : Text) : ∃ b, substitute (some c) 0 (u ++ t) = (u ++ ·) <$> substitute b 0 t := by
  induction u generalizing c with
  | nil => exact ⟨some c, (id_map (substitute (some c) 0 t)).symm⟩
  | cons d u ih =>
    obtain ⟨b, hb⟩ := ih fun e he => h e (List.mem_cons_of_mem c he)
    refine ⟨b, ?_⟩
    rw [List.cons_append, substitute, match?_inside (h c (by simp)) (h d (by simp))]
    dsimp only
    rw [hb]
    cases substitute b 0 t <;> rfl

/-- The scan renames a text word by word, wherever it does not start inside of a word. -/
theorem substitute_eq_renameRegisters {before : Option Char} {t : Text}
    (h : before.any isWordChar = false ∨ Apart t) : substitute before 0 t = renameRegisters t := by
  induction t using Text.wordInduction generalizing before with
  | nil => rfl
  | mark c t hc ih =>
    have hrest : substitute (some c) 0 t = renameRegisters t := ih (.inl hc)
    rw [substitute, match?_mark before hc, renameRegisters_mark hc, ← hrest]
  | word w t hw ht ih =>
    -- The text goes on with a word, so the scan cannot come from inside of one.
    have hb : before.any isWordChar = false := h.resolve_right hw.not_apart
    have hmatch := match?_word hb hw ht
    obtain ⟨c, u, rfl⟩ := List.exists_cons_of_ne_nil hw.ne_nil
    rw [renameRegisters_word hw ht, List.cons_append, substitute, ← List.cons_append, hmatch]
    cases hi : RegisterName.index? ((c :: u).map foldChar) with
    | none =>
      obtain ⟨b, hrest⟩ := exists_substitute_inside hw.solid t
      rw [renameWord, hi, Option.map_none]
      dsimp only
      rw [hrest, ih (.inr ht)]
      cases renameRegisters t <;> rfl
    | some i =>
      obtain ⟨b, hrest⟩ := exists_substitute_skip (some c) u t
      rw [Option.map_some]
      dsimp only
      rw [List.length_map, List.take_left, numbered_eq_renameWord hi, List.length_cons,
        Nat.add_sub_cancel, hrest, ih (.inr ht)]

theorem isWordChar_of_isSeparator {c : Char} (h : isSeparator c = true) : isWordChar c = false := by
  simp only [isSeparator, Bool.or_eq_true, decide_eq_true_eq] at h
  rcases h with ((h | rfl) | rfl) | rfl
  · exact Text.isWordChar_of_isBlank h
  all_goals decide

namespace Respells

variable {separator : Char → Bool} {t u : Text}

theorem pieces (h : Respells t u) (hp : ∀ c, separator c = true → isWordChar c = false) :
    List.Forall₂ Respells (Text.pieces separator t) (Text.pieces separator u) := by
  induction h with
  | nil => exact .cons .nil .nil
  | mark hc _ ih =>
    simp only [Text.pieces]
    split
    · exact .cons .nil ih
    · exact consFirst hc ih
  | word hw ht hr _ ih =>
    obtain ⟨hw', -⟩ := renameWord_eq_ok hw hr
    rw [Text.pieces_append (hw.avoids hp), Text.pieces_append (hw'.avoids hp)]
    exact onFirst hw hr (fun _ _ hl c hc => ht c (Text.head?_of_pieces hl hc)) ih

theorem tokens (h : Respells t u) : List.Forall₂ Respells (Asm.tokens t) (Asm.tokens u) :=
  List.rel_filter (fun _ _ hpiece => by simp [hpiece.eq_nil_iff])
    (h.pieces fun _ => isWordChar_of_isSeparator)

end Respells

def renamed : Text.Segment → Text
  | .word w =>
    match RegisterName.index? (w.map Char.toLower) with
    | some i => 'x' :: Decimal.digits i
    | none => w
  | .mark c => [c]

theorem renameSegment_eq_renamed {s : Text.Segment} (h : 'ſ' ∉ s.text) :
    renameSegment s = .ok (renamed s) := by
  cases s with
  | mark c => rfl
  | word w =>
    have hfold : w.map foldChar = w.map Char.toLower := map_foldChar h
    rw [renameSegment, renamed, renameWord, hfold]
    cases hi : RegisterName.index? (w.map Char.toLower) with
    | none => rfl
    | some i =>
      dsimp only
      rw [hi]

/-- In a line without a long s, the scan with the pattern renames the words that are names and
nothing else. A line has one cut into words and marks, and its tokens can be renamed instead of the
line. -/
theorem renames_whole_words {line : Text} (h : 'ſ' ∉ line) :
    ∃ t ss, renameRegisters line = .ok t ∧ substitute none 0 line = .ok t ∧
      (∀ cut, Cut line cut ↔ cut = ss) ∧ t = ss.flatMap renamed ∧
      (tokens line).mapM renameRegisters = .ok (tokens t) := by
  have hparts : ∀ s ∈ Text.segments line, renameSegment s = .ok (renamed s) := by
    intro s hs
    refine renameSegment_eq_renamed fun hlong => h ?_
    rw [← Text.flatMap_text_segments line]
    exact List.mem_flatMap.2 ⟨s, hs, hlong⟩
  have hline : renameRegisters line = .ok ((Text.segments line).flatMap renamed) := by
    rw [renameRegisters, Outcome.mapM_of_forall hparts]
    rfl
  have htokens := (respells_iff.2 hline).tokens.imp fun _ _ => respells_iff.1
  refine ⟨_, Text.segments line, hline, ?_, fun cut => Text.cut_iff.trans eq_comm, rfl,
    Outcome.mapM_eq_ok.2 htokens⟩
  exact (substitute_eq_renameRegisters (.inl rfl)).trans hline

theorem renames_whole_words_overlap :
    'ſ' ∉ "Add s1,S10(s11) sp_0 Zero".toList ∧
      ∃ ss, Cut "Add s1,S10(s11) sp_0 Zero".toList ss ∧
        ss.flatMap renamed = "Add x9,x26(x27) sp_0 x0".toList ∧
        substitute none 0 "Add s1,S10(s11) sp_0 Zero".toList
          = .ok "Add x9,x26(x27) sp_0 x0".toList ∧
        (tokens "Add s1,S10(s11) sp_0 Zero".toList).mapM renameRegisters
          = .ok ["Add".toList, "x9".toList, "x26".toList, "x27".toList, "sp_0".toList,
            "x0".toList] := by
  have hlong : 'ſ' ∉ "Add s1,S10(s11) sp_0 Zero".toList := by decide
  obtain ⟨t, ss, hline, hscan, hcut, ht, htokens⟩ := renames_whole_words hlong
  have hread : renameRegisters "Add s1,S10(s11) sp_0 Zero".toList
      = .ok "Add x9,x26(x27) sp_0 x0".toList := rfl
  cases hline.symm.trans hread
  exact ⟨hlong, ss, (hcut ss).2 rfl, ht.symm, hscan, htokens⟩

end Asm

end Datapath
