import Datapath.Proofs.Denotation

set_option autoImplicit false

namespace Datapath

open Bits (row slice row_append row_field row_fields slice_append)

/-- What stands in one place of a word. -/
inductive Piece where
  | funct7
  | rs2
  | rs1
  | funct3
  | rd
  | major
  | imm (high low : Nat)
  deriving DecidableEq, Repr

def Format.pieces : Format → List Piece
  | .register => [.funct7, .rs2, .rs1, .funct3, .rd, .major]
  | .immediate => [.imm 11 0, .rs1, .funct3, .rd, .major]
  | .shift => [.funct7, .imm 4 0, .rs1, .funct3, .rd, .major]
  | .memory => [.imm 11 0, .rs1, .funct3, .rd, .major]
  | .store => [.imm 11 5, .rs2, .rs1, .funct3, .imm 4 0, .major]
  | .branch => [.imm 12 12, .imm 10 5, .rs2, .rs1, .funct3, .imm 4 1, .imm 11 11, .major]
  | .upper => [.imm 19 0, .rd, .major]
  | .jump => [.imm 20 20, .imm 10 1, .imm 11 11, .imm 19 12, .rd, .major]

namespace Opcode

def bitsOf (op : Opcode) (f : Fields) : Piece → Text
  | .funct7 => row 7 op.spec.funct7
  | .rs2 => row 5 f.rs2
  | .rs1 => row 5 f.rs1
  | .funct3 => row 3 op.spec.funct3
  | .rd => row 5 f.rd
  | .major => row 7 op.spec.major
  | .imm high low => slice f.imm high low

def layout (op : Opcode) (f : Fields) : Text := op.format.pieces.flatMap (op.bitsOf f)

end Opcode

theorem Slots.row_word {s : Slots} (h : s.Bounded) :
    row 32 s.word = row 7 s.funct7 ++ (row 5 s.rs2 ++ (row 5 s.rs1 ++ (row 3 s.funct3 ++
      (row 5 s.rd ++ row 7 s.major)))) := by
  obtain ⟨-, h2, h1, h3, hd, hm⟩ := h
  have hword : s.word = ((((s.funct7 <<< 5 + s.rs2) <<< 5 + s.rs1) <<< 3 + s.funct3) <<< 5 + s.rd)
      <<< 7 + s.major := by
    unfold word
    omega
  rw [hword, row_append (b := 7) 25 hm, row_append (b := 5) 20 hd, row_append (b := 3) 17 h3,
    row_append (b := 5) 12 h1, row_append (b := 5) 7 h2]
  simp only [List.append_assoc]

theorem Opcode.row_word (op : Opcode) {f : Fields} (hf : f.Bounded) :
    row 32 (op.word f) = op.layout f := by
  rw [word_eq_slots, Slots.row_word (slots_bounded hf)]
  unfold layout slots format
  -- Parts that hold two pieces are cut, and pieces that go on in the next part are joined.
  cases hs : op.spec.format <;>
    simp (disch := decide) only [hs, Format.pieces, List.flatMap_cons, List.flatMap_nil, bitsOf,
      List.append_nil, List.append_assoc, row_field, row_fields, slice_append]

/-- Every line that is encoded has the text that its mnemonic and its operands are laid out in, in
the fields that the operands denote. The mnemonic for doing nothing has no operands. -/
theorem Encoding.encode_layout {line bits : Text} (h : encode line = .ok bits) :
    ∃ (first : Text) (operands : List Text) (op : Opcode) (f : Fields),
    Asm.tokens (Asm.beforeComment line) = first :: operands ∧
    (Text.lowercase first = Opcode.nopName ∧ op = .addi ∧ f = {} ∨
      Text.lowercase first = op.name ∧ op.format.roles.length ≤ operands.length ∧
      ∀ s ∈ op.format.roles.zip operands, f.Reads s.1 s.2) ∧
    bits = op.layout f ∧ bits.length = 32 := by
  obtain ⟨n, hn, rfl⟩ := Outcome.map_eq_ok.1 h
  obtain ⟨first, operands, op, f, ht, rfl, hb, hcase⟩ := word_eq_ok hn
  refine ⟨first, operands, op, f, ht, ?_, op.row_word hb, Bits.length_row 32 _⟩
  rcases hcase with hnop | ⟨hname, hf⟩
  · exact .inl hnop
  · obtain ⟨hl, -, hr⟩ := fields_reads hf
    exact .inr ⟨hname, hl, hr⟩

theorem Encoding.encode_layout_branch :
    encode "BNE\tX31, x7(-1234567890123) far ; note".toList
      = .ok "10110010011111111001101011100011".toList ∧
    ∃ f : Fields, f.rs1 = 31 ∧ f.rs2 = 7 ∧ f.imm = -1234567890123 ∧
      "10110010011111111001101011100011".toList = Opcode.bne.layout f := by
  have h : encode "BNE\tX31, x7(-1234567890123) far ; note".toList
      = .ok "10110010011111111001101011100011".toList := by rfl
  have ht : Asm.tokens (Asm.beforeComment "BNE\tX31, x7(-1234567890123) far ; note".toList)
      = ["BNE", "X31", "x7", "-1234567890123", "far"].map String.toList := by rfl
  have hnop : Text.lowercase "BNE".toList ≠ Opcode.nopName := by decide
  obtain ⟨first, operands, op, f, hf, hcase, hb, -⟩ := encode_layout h
  cases hf.symm.trans ht
  obtain ⟨hname, -, hr⟩ := hcase.resolve_left fun hc => hnop hc.1
  cases Opcode.name_injective (hname.symm.trans (by decide : _ = Opcode.bne.name))
  obtain ⟨_, -, h1, e1⟩ := (hr (.rs1, "X31".toList) (by decide)).2 (by decide)
  obtain ⟨_, -, h2, e2⟩ := (hr (.rs2, "x7".toList) (by decide)).2 (by decide)
  have hi := (hr (.imm, "-1234567890123".toList) (by decide)).1 (by decide)
  cases h1.symm.trans (by rfl : _ = Except.ok (some 31))
  cases h2.symm.trans (by rfl : _ = Except.ok (some 7))
  have hv : f.imm = -1234567890123 := (Option.some.inj (Except.ok.inj hi)).symm
  exact ⟨h, f, Int.ofNat_inj.1 e1, Int.ofNat_inj.1 e2, hv, hb⟩

namespace Decoding

open Bits (field row rowCount toText value)

variable {op : Opcode} {f : Fields} {i : Instruction}

theorem decode_eq_ok_iff {w : Int} :
    decode w = .ok i ↔
      ∃ op, Opcode.Matches w op ∧
        i = ⟨op.name, (Opcode.fieldsOf w op.format).values op.format⟩ := by
  unfold decode
  constructor
  · intro h
    split at h
    · cases h
    · next op hop =>
      cases h
      exact ⟨op, Opcode.ofWord?_eq_some_iff.1 hop, rfl⟩
  · rintro ⟨op, hop, rfl⟩
    rw [Opcode.ofWord?_eq_some_iff.2 hop]
    rfl

theorem decode_word (hf : f.Bounded) :
    decode (op.word f) = .ok ⟨op.name, (f.wrap op.format).values op.format⟩ := by
  refine decode_eq_ok_iff.2 ⟨op, Opcode.matches_word hf, ?_⟩
  congr 1
  apply List.map_congr_left
  intro role hr
  rw [Opcode.get_fieldsOf_word hf hr, Fields.get_wrap]

theorem decode_congr {v w : Int} (h : v % rowCount 32 = w % rowCount 32) :
    decode v = decode w := by
  have hf : ∀ high low, high < 32 → low ≤ high → field v high low = field w high low :=
    fun high low hh hl => Bits.field_congr hh hl h
  have ho : Opcode.ofWord? v = Opcode.ofWord? w := by
    unfold Opcode.ofWord? Opcode.Matches
    simp (disch := decide) only [hf]
  have hi : ∀ format, Opcode.fieldsOf v format = Opcode.fieldsOf w format := by
    intro format
    unfold Opcode.fieldsOf
    cases format <;> simp (disch := decide) only [Opcode.immediate, hf]
  unfold decode
  simp (disch := decide) only [ho, hi, hf]

theorem decodeText_row (n : Nat) : decodeText (row 32 n) = decode n := by
  have hc : (row 32 n).all (fun c => c = '0' ∨ c = '1') = true := by
    rw [List.all_eq_true]
    intro c hc
    simpa using Bits.mem_row hc
  rw [decodeText, if_pos ⟨Bits.length_row 32 n, hc⟩, Bits.value_row]
  apply decode_congr
  rw [Int.natCast_emod, Int.emod_emod_of_dvd _ (Int.dvd_refl _)]

theorem decodeText_toText (w : Int) : decodeText (toText w 32) = decode w := by
  obtain ⟨n, hn, -⟩ := Bits.exists_remainder w 32
  rw [Bits.toText_of_pos w (by decide), hn, Int.toNat_natCast, decodeText_row]
  apply decode_congr
  rw [← hn, Int.emod_emod_of_dvd _ (Int.dvd_refl _)]

theorem toText_eq_row {w : Int} {n : Nat} (h : (n : Int) = w % rowCount 32) :
    toText w 32 = row 32 n := by
  rw [Bits.toText_of_pos w (by decide), ← h, Int.toNat_natCast]

end Decoding

/-- The operands that a format has, with the immediate wrapped into its field. -/
def Format.wrapOperands (format : Format) (operands : List (Option Int)) : List (Option Int) :=
  List.zipWith (fun role v => if role = .imm then v.map format.wrap else v) format.roles operands

theorem Format.wrapOperands_values (format : Format) (f : Fields) :
    format.wrapOperands (f.values format) = (f.wrap format).values format := by
  cases format <;> rfl

namespace Instruction

open Decoding (decodeText)

variable {i : Instruction} {op : Opcode} {f : Fields}

theorem Denotes.decode_of_idle (h : i.Denotes op f) (hi : i.mnemonic = Opcode.nopName) :
    Decoding.decode (op.word f) = .ok ⟨Opcode.addi.name, [some 0, some 0, some 0]⟩ := by
  rw [Decoding.decode_word h.bounded]
  cases h with
  | named op f more hb => exact absurd hi (Opcode.name_ne_nopName op)
  | idle operands => rfl

/-- Decoding undoes encoding. -/
theorem decode_encode {line renamed bits : Text} {p : Instruction} (hl : Asm.Plain line)
    (hr : Asm.renameRegisters line = .ok renamed) (hb : Encoding.encode renamed = .ok bits)
    (hp : parse? renamed = .ok (some p)) :
    (p.mnemonic = Opcode.nopName →
      decodeText bits = .ok ⟨Opcode.addi.name, [some 0, some 0, some 0]⟩) ∧
    (p.mnemonic ≠ Opcode.nopName →
      ∃ op : Opcode, op.name = p.mnemonic ∧
        let n := if op ∈ [.lui, .auipc, .jal] then 2 else 3
        n ≤ p.operands.length ∧
        decodeText bits = .ok ⟨p.mnemonic, op.format.wrapOperands (p.operands.take n)⟩ ∧
        (p.operands.length = n → p.Fits → decodeText bits = .ok p)) := by
  obtain ⟨n, hn, rfl⟩ := Outcome.map_eq_ok.1 hb
  -- Everything that follows is about the opcode and the fields, not about the texts.
  obtain ⟨i, op, f, hi, hd, rfl⟩ := denotes_of_word (Asm.plain_renameRegisters hl hr) hn hp
  obtain rfl : p = i := Option.some.inj hi
  have hf := hd.bounded
  have hdec : decodeText (Bits.row 32 (op.word f)) = Decoding.decode (op.word f) :=
    Decoding.decodeText_row (op.word f)
  refine ⟨fun hi => hdec.trans (hd.decode_of_idle hi), fun hi => ?_⟩
  rw [hdec, Decoding.decode_word hf]
  cases hd with
  | idle operands => exact absurd rfl hi
  | named op f more hb' =>
    have hlen := (f.length_values op.format).trans op.length_roles
    refine ⟨op, rfl, ?_⟩
    dsimp only
    rw [← hlen]
    refine ⟨by simp, ?_, ?_⟩
    · rw [List.take_left, Format.wrapOperands_values]
    · intro hm hfit
      have hmore : more = [] := by simpa using hm
      have hfits := (Denotes.named op f more hb').fits hfit
      rw [hmore, List.append_nil, Fields.wrap_of_fits hfits]

theorem decode_encode_odd_offset :
    Encoding.encode "bne x10, x0, -4093".toList = .ok "10000000000001010001000101100011".toList ∧
    decodeText "10000000000001010001000101100011".toList
      = .ok ⟨"bne".toList, [some 10, some 0, some (-4094)]⟩ := by
  have hl : Asm.Plain "bne a0, zero, -4093".toList := by decide
  have hr : Asm.renameRegisters "bne a0, zero, -4093".toList
      = .ok "bne x10, x0, -4093".toList := rfl
  have hb : Encoding.encode "bne x10, x0, -4093".toList
      = .ok "10000000000001010001000101100011".toList := rfl
  have hp : parse? "bne x10, x0, -4093".toList
      = .ok (some ⟨"bne".toList, [some 10, some 0, some (-4093)]⟩) := rfl
  obtain ⟨op, hop, -, hd, -⟩ := (decode_encode hl hr hb hp).2 (by decide)
  obtain rfl : op = .bne := Opcode.name_injective hop
  exact ⟨hb, hd⟩

end Instruction

def Role.written : Role → Int → Text
  | .imm, v => Decimal.text v
  | _, v => 'x' :: Decimal.text v

/-- The line that an instruction is written as, if its operands have values. -/
def Instruction.written? (i : Instruction) : Option Text := do
  let op ← Opcode.ofName? i.mnemonic
  let operands ← (op.format.roles.zip i.operands).mapM fun (role, v) => role.written <$> v
  pure (i.mnemonic ++ ' ' :: Text.join ", ".toList operands)

theorem Role.mem_written {role : Role} {v : Int} {c : Char} (h : c ∈ role.written v) :
    c = 'x' ∨ c = '-' ∨ c.isDigit = true := by
  cases role with
  | imm => exact .inr (Decimal.mem_text h)
  | rd | rs1 | rs2 =>
    cases List.mem_cons.1 h with
    | inl h => exact .inl h
    | inr h => exact .inr (Decimal.mem_text h)

theorem Role.written_ne_nil (role : Role) (v : Int) : role.written v ≠ [] := by
  have ht := Decimal.text_ne_nil v
  cases role <;> simp [written, ht]

theorem Asm.isSeparator_of_isDigit {c : Char} (h : c.isDigit = true) : isSeparator c = false := by
  have hb : 48 ≤ c.toNat ∧ c.toNat ≤ 57 := by
    simpa [Char.isDigit, UInt32.le_iff_toNat_le] using h
  have hblank : Text.isBlank c = false := by
    simp [Text.isBlank, Text.blankRanges, Text.inRanges]
    omega
  have hne : ∀ d : Char, d.isDigit = false → c ≠ d := by
    rintro d hd rfl
    rw [h] at hd
    cases hd
  simp [isSeparator, hblank, hne ',' (by decide), hne '(' (by decide), hne ')' (by decide)]

theorem Role.isToken_written (role : Role) (v : Int) :
    Text.IsToken Asm.isSeparator (role.written v) := by
  refine ⟨role.written_ne_nil v, ?_⟩
  intro c hc
  rcases Role.mem_written hc with rfl | rfl | hd
  · decide
  · decide
  · exact Asm.isSeparator_of_isDigit hd

theorem Role.plain_written (role : Role) (v : Int) : Asm.Plain (role.written v) := by
  intro c hc
  rcases Role.mem_written hc with rfl | rfl | hd
  · decide
  · decide
  · exact Asm.isCommentMark_of_isDigit hd

namespace Opcode

variable {op : Opcode} {f g : Fields}

theorem word_congr (h : ∀ role ∈ op.format.roles, f.get role = g.get role) :
    op.word f = op.word g := by
  unfold word format at *
  cases hs : op.spec.format <;>
    simp only [hs, Format.roles, Fields.get, List.mem_cons, List.not_mem_nil, or_false,
      forall_eq_or_imp, forall_eq, Int.ofNat_inj] at h ⊢ <;>
    simp only [h]

theorem isToken_name (op : Opcode) : Text.IsToken Asm.isSeparator op.name := by
  cases op <;> decide

theorem plain_name (op : Opcode) : Asm.Plain op.name := by
  cases op <;> decide

def writtenOperands (op : Opcode) (f : Fields) : List Text :=
  op.format.roles.map fun role => role.written (f.get role)

def written (op : Opcode) (f : Fields) : Text :=
  op.name ++ ' ' :: Text.join ", ".toList (op.writtenOperands f)

theorem tokens_written (op : Opcode) (f : Fields) :
    Asm.tokens (op.written f) = op.name :: op.writtenOperands f := by
  have ho : ∀ t ∈ op.writtenOperands f, Text.IsToken Asm.isSeparator t := by
    intro t ht
    obtain ⟨role, -, rfl⟩ := List.mem_map.1 ht
    exact role.isToken_written _
  rw [Asm.tokens, written, Text.fields_token_append op.isToken_name (by decide),
    Text.fields_join (by decide) (List.all_eq_true.1 (by decide)) ho]

theorem plain_written (op : Opcode) (f : Fields) : Asm.Plain (op.written f) := by
  intro c hc
  rcases List.mem_append.1 hc with hc | hc
  · exact op.plain_name c hc
  · rcases List.mem_cons.1 hc with rfl | hc
    · decide
    · have hgap : Asm.Plain ", ".toList := by decide
      rcases Text.mem_join hc with hc | ⟨t, ht, hc⟩
      · exact hgap c hc
      · obtain ⟨role, -, rfl⟩ := List.mem_map.1 ht
        exact role.plain_written _ c hc

theorem zip_writtenOperands (op : Opcode) (f : Fields) :
    op.format.roles.zip (op.writtenOperands f)
      = op.format.roles.map fun role => (role, role.written (f.get role)) := by
  rw [writtenOperands, ← List.zip_map', List.map_id']

theorem registerNumber?_written (hf : f.Bounded) {role : Role} (hr : role ≠ .imm) :
    ∃ i : Nat, i < 32 ∧ f.get role = i ∧
      Asm.registerNumber? (role.written (f.get role)) = .ok (some i) := by
  obtain ⟨hd, h1, h2⟩ := hf
  have hx : ∀ i : Nat, i < 32 →
      Asm.registerNumber? ('x' :: Decimal.text i) = .ok (some i) := by
    intro i hi
    rw [Decimal.text_natCast]
    exact Asm.registerNumber?_digits (Decimal.length_digits_le (by omega))
  cases role with
  | rd => exact ⟨f.rd, hd, rfl, hx f.rd hd⟩
  | rs1 => exact ⟨f.rs1, h1, rfl, hx f.rs1 h1⟩
  | rs2 => exact ⟨f.rs2, h2, rfl, hx f.rs2 h2⟩
  | imm => exact absurd rfl hr

theorem fields_writtenOperands (op : Opcode) (hf : f.Bounded) (hi : f.imm.natAbs < 10000000) :
    ∃ g, Encoding.fields op.name op.format (op.writtenOperands f) = .ok g ∧
      ∀ role ∈ op.format.roles, g.get role = f.get role := by
  have hread : Decimal.read? (Role.imm.written (f.get .imm)) = .ok (some f.imm) :=
    Decimal.read?_text (Decimal.length_digits_le (Nat.lt_trans hi (by decide)))
  have hlen : op.format.roles.length ≤ (op.writtenOperands f).length := by
    rw [writtenOperands, List.length_map]
  obtain ⟨g, hg⟩ : ∃ g, Encoding.fields op.name op.format (op.writtenOperands f) = .ok g := by
    apply Encoding.exists_fields hlen <;> rw [zip_writtenOperands, List.forall_mem_map]
    · intro role _ hr
      obtain ⟨i, hlt, -, hn⟩ := registerNumber?_written hf hr
      exact ⟨i, hlt, hn⟩
    · rintro role - rfl
      exact ⟨f.imm, hread⟩
  refine ⟨g, hg, ?_⟩
  obtain ⟨-, -, hv⟩ := Encoding.fields_eq_ok hg
  rw [zip_writtenOperands, List.forall_mem_map] at hv
  intro role hrole
  have hgot := hv role hrole
  have hf' : Asm.operand? (role.written (f.get role)) = .ok (some (f.get role)) := by
    by_cases hr : role = .imm
    · subst hr
      exact Asm.operand?_of_read? hread
    · obtain ⟨i, -, hi, hn⟩ := registerNumber?_written hf hr
      rw [Asm.operand?_of_registerNumber? hn, hi]
  rw [hf'] at hgot
  exact (Option.some.inj (Except.ok.inj hgot)).symm

theorem word_written (op : Opcode) (hf : f.Bounded) (hi : f.imm.natAbs < 10000000) :
    Encoding.word (op.written f) = .ok (op.word f) := by
  obtain ⟨g, hg, hget⟩ := fields_writtenOperands op hf hi
  unfold Encoding.word
  rw [Asm.beforeComment_of_plain (plain_written op f), tokens_written]
  simp only [lookup?_name, lowercase_name, name_ne_nopName, ↓reduceIte, hg]
  rw [← word_congr hget]
  rfl

theorem written?_values (op : Opcode) (f : Fields) :
    Instruction.written? ⟨op.name, f.values op.format⟩ = some (op.written f) := by
  have ho : ofName? op.name = some op := ofName?_eq_some_iff.2 rfl
  simp only [Instruction.written?, ho, Option.bind_eq_bind, Option.bind_some]
  unfold written writtenOperands
  cases op.format <;> rfl

theorem natAbs_immediate_lt (w : Int) (format : Format) :
    (immediate w format).natAbs < 10000000 := by
  have hs : ∀ v width, Bits.rowCount width < 10000000 →
      (Bits.signExtend v width).natAbs < 10000000 :=
    fun v width h => Nat.lt_of_le_of_lt (Bits.natAbs_signExtend_le v width) h
  cases format with
  | register => exact Nat.lt_of_le_of_lt (Nat.zero_le _) (by decide : 0 < 10000000)
  | immediate => exact hs _ 12 (by decide)
  | shift => exact Nat.lt_trans (Bits.field_lt w 24 20) (by decide)
  | memory => exact hs _ 12 (by decide)
  | store => exact hs _ 12 (by decide)
  | branch => exact hs _ 13 (by decide)
  | upper => exact hs _ 20 (by decide)
  | jump => exact hs _ 21 (by decide)

end Opcode

/-- Encoding undoes decoding. -/
theorem Decoding.encode_decode (w : Int) :
    decode w = decodeText (Bits.toText w 32) ∧
    ((∃ i, decode w = .ok i) ↔ ∃ line, Encoding.encode line = .ok (Bits.toText w 32)) ∧
    (∀ i, decode w = .ok i →
      ∃ line, i.written? = some line ∧ Encoding.encode line = .ok (Bits.toText w 32)) ∧
    ∀ v i, decode v = .ok i → decode w = .ok i → Bits.toText v 32 = Bits.toText w 32 := by
  have hwritten : ∀ v i, decode v = .ok i →
      ∃ line, i.written? = some line ∧ Encoding.encode line = .ok (Bits.toText v 32) := by
    intro v i h
    obtain ⟨op, hop, rfl⟩ := decode_eq_ok_iff.1 h
    refine ⟨op.written (Opcode.fieldsOf v op.format), Opcode.written?_values _ _, ?_⟩
    have hword := Opcode.word_written op (Opcode.fieldsOf_bounded v op.format)
      (Opcode.natAbs_immediate_lt v op.format)
    rw [Encoding.encode, hword, toText_eq_row (Opcode.word_fieldsOf hop)]
    rfl
  refine ⟨(decodeText_toText w).symm, ⟨?_, ?_⟩, hwritten w, ?_⟩
  · rintro ⟨i, h⟩
    obtain ⟨line, -, hline⟩ := hwritten w i h
    exact ⟨line, hline⟩
  · rintro ⟨line, hline⟩
    obtain ⟨n, hn, hrow⟩ := Outcome.map_eq_ok.1 hline
    obtain ⟨-, -, op, f, -, rfl, hf, -⟩ := Encoding.word_eq_ok hn
    refine ⟨⟨op.name, (f.wrap op.format).values op.format⟩, ?_⟩
    rw [← decodeText_toText, ← hrow, decodeText_row, decode_word hf]
  · -- Equal instructions are written as equal lines, and a line has one word.
    intro v i hv hw
    obtain ⟨line, hline, hev⟩ := hwritten v i hv
    obtain ⟨line', hline', hew⟩ := hwritten w i hw
    rw [hline] at hline'
    cases hline'
    rw [hev] at hew
    exact Except.ok.inj hew

end Datapath
