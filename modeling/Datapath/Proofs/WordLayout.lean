import Datapath.Proofs.BitRow

set_option autoImplicit false

namespace Datapath

structure Fields.Bounded (f : Fields) : Prop where
  rd : f.rd < 32
  rs1 : f.rs1 < 32
  rs2 : f.rs2 < 32

/-- The six parts of a word, named for what they hold in the register format. -/
@[ext]
structure Slots where
  funct7 : Nat
  rs2 : Nat
  rs1 : Nat
  funct3 : Nat
  rd : Nat
  major : Nat

namespace Slots

open Bits (field field_lt field_split natCast_field_zero rowCount)

structure Bounded (s : Slots) : Prop where
  funct7 : s.funct7 < 128
  rs2 : s.rs2 < 32
  rs1 : s.rs1 < 32
  funct3 : s.funct3 < 8
  rd : s.rd < 32
  major : s.major < 128

def word (s : Slots) : Nat :=
  s.funct7 <<< 25 + s.rs2 <<< 20 + s.rs1 <<< 15 + s.funct3 <<< 12 + s.rd <<< 7 + s.major

def ofWord (w : Int) : Slots :=
  ⟨field w 31 25, field w 24 20, field w 19 15, field w 14 12, field w 11 7, field w 6 0⟩

theorem ofWord_word {s : Slots} (h : s.Bounded) : ofWord s.word = s := by
  obtain ⟨h7, h2, h1, h3, hd, hm⟩ := h
  apply Slots.ext <;>
    simp only [ofWord, word, field, rowCount, Nat.shiftLeft_eq, Nat.reducePow, Nat.reduceSub,
      Nat.reduceAdd, Nat.one_mul] <;>
    omega

theorem word_ofWord (w : Int) : ((ofWord w).word : Int) = w % 0x100000000 := by
  have h25 := field_split w 31 25 0 (by omega) (by omega)
  have h20 := field_split w 24 20 0 (by omega) (by omega)
  have h15 := field_split w 19 15 0 (by omega) (by omega)
  have h12 := field_split w 14 12 0 (by omega) (by omega)
  have h7 := field_split w 11 7 0 (by omega) (by omega)
  have h0 := natCast_field_zero w 31
  have e32 : rowCount 32 = 0x100000000 := rfl
  simp only [Nat.reduceSub, Nat.reduceAdd, Nat.sub_zero] at h25 h20 h15 h12 h7 h0
  rw [e32] at h0
  simp only [word, ofWord]
  omega

end Slots

namespace Opcode

open Bits (field field_congr field_field field_lt field_signExtend field_split natCast_field_zero
  rowCount signExtend)

theorem store_pieces (v : Int) :
    ((field v 11 5 <<< 5 + field v 4 0 : Nat) : Int) = v % 0x1000 := by
  have h5 := field_split v 11 5 0 (by omega) (by omega)
  have hz := natCast_field_zero v 11
  have e12 : rowCount 12 = 0x1000 := rfl
  simp only [Nat.reduceSub, Nat.reduceAdd, Nat.sub_zero] at h5 hz
  rw [e12] at hz
  omega

theorem branch_pieces (v : Int) :
    ((field v 12 12 <<< 12 + field v 11 11 <<< 11 + field v 10 5 <<< 5 + field v 4 1 <<< 1
      : Nat) : Int) = v % 0x2000 - v % 2 := by
  have h12 := field_split v 12 12 0 (by omega) (by omega)
  have h11 := field_split v 11 11 0 (by omega) (by omega)
  have h5 := field_split v 10 5 0 (by omega) (by omega)
  have h1 := field_split v 4 1 0 (by omega) (by omega)
  have hz := natCast_field_zero v 12
  have h0 := natCast_field_zero v 0
  have e13 : rowCount 13 = 0x2000 := rfl
  have e1 : rowCount 1 = 2 := rfl
  simp only [Nat.reduceSub, Nat.reduceAdd, Nat.sub_zero] at h12 h11 h5 h1 hz h0
  rw [e13] at hz
  rw [e1] at h0
  omega

theorem jump_pieces (v : Int) :
    ((field v 20 20 <<< 20 + field v 19 12 <<< 12 + field v 11 11 <<< 11 + field v 10 1 <<< 1
      : Nat) : Int) = v % 0x200000 - v % 2 := by
  have h20 := field_split v 20 20 0 (by omega) (by omega)
  have h12 := field_split v 19 12 0 (by omega) (by omega)
  have h11 := field_split v 11 11 0 (by omega) (by omega)
  have h1 := field_split v 10 1 0 (by omega) (by omega)
  have hz := natCast_field_zero v 20
  have h0 := natCast_field_zero v 0
  have e21 : rowCount 21 = 0x200000 := rfl
  have e1 : rowCount 1 = 2 := rfl
  simp only [Nat.reduceSub, Nat.reduceAdd, Nat.sub_zero] at h20 h12 h11 h1 hz h0
  rw [e21] at hz
  rw [e1] at h0
  omega

variable {op : Opcode} {f : Fields}

theorem spec_bounds (op : Opcode) :
    op.spec.major < 128 ∧ op.spec.funct3 < 8 ∧ op.spec.funct7 < 128 := by
  cases op <;> decide

/-- What a format puts into the six parts. The offsets of branches and jumps are scrambled, so that
most of their bits lie where other formats have them. -/
def slots (op : Opcode) (f : Fields) : Slots :=
  let s := op.spec
  match s.format with
  | .register => ⟨s.funct7, f.rs2, f.rs1, s.funct3, f.rd, s.major⟩
  | .immediate => ⟨field f.imm 11 5, field f.imm 4 0, f.rs1, s.funct3, f.rd, s.major⟩
  | .shift => ⟨s.funct7, field f.imm 4 0, f.rs1, s.funct3, f.rd, s.major⟩
  | .memory => ⟨field f.imm 11 5, field f.imm 4 0, f.rs1, s.funct3, f.rd, s.major⟩
  | .store => ⟨field f.imm 11 5, f.rs2, f.rs1, s.funct3, field f.imm 4 0, s.major⟩
  | .branch =>
    ⟨field f.imm 12 12 <<< 6 + field f.imm 10 5, f.rs2, f.rs1, s.funct3,
      field f.imm 4 1 <<< 1 + field f.imm 11 11, s.major⟩
  | .upper =>
    ⟨field f.imm 19 13, field f.imm 12 8, field f.imm 7 3, field f.imm 2 0, f.rd, s.major⟩
  | .jump =>
    ⟨field f.imm 20 20 <<< 6 + field f.imm 10 5, field f.imm 4 1 <<< 1 + field f.imm 11 11,
      field f.imm 19 15, field f.imm 14 12, f.rd, s.major⟩

theorem word_eq_slots (op : Opcode) (f : Fields) : op.word f = (op.slots f).word := by
  have h5 := field_split f.imm 11 5 0 (by omega) (by omega)
  have h13 := field_split f.imm 19 13 0 (by omega) (by omega)
  have h8 := field_split f.imm 12 8 0 (by omega) (by omega)
  have h3 := field_split f.imm 7 3 0 (by omega) (by omega)
  have h10 := field_split f.imm 10 5 1 (by omega) (by omega)
  have h15 := field_split f.imm 19 15 12 (by omega) (by omega)
  simp only [Nat.reduceSub, Nat.sub_zero] at h5 h13 h8 h3 h10 h15
  -- Two formats split their pieces where the parts of a word meet; then the sum is linear.
  unfold word slots Slots.word
  dsimp only
  cases op.spec.format <;> dsimp only <;> omega

theorem slots_bounded (hf : f.Bounded) : (op.slots f).Bounded := by
  obtain ⟨hm, h3, h7⟩ := spec_bounds op
  obtain ⟨hd, h1, h2⟩ := hf
  have e11 : field f.imm 11 5 < 128 := field_lt f.imm 11 5
  have e40 : field f.imm 4 0 < 32 := field_lt f.imm 4 0
  have e12 : field f.imm 12 12 < 2 := field_lt f.imm 12 12
  have e10 : field f.imm 10 5 < 64 := field_lt f.imm 10 5
  have e41 : field f.imm 4 1 < 16 := field_lt f.imm 4 1
  have e1 : field f.imm 11 11 < 2 := field_lt f.imm 11 11
  have e13 : field f.imm 19 13 < 128 := field_lt f.imm 19 13
  have e8 : field f.imm 12 8 < 32 := field_lt f.imm 12 8
  have e7 : field f.imm 7 3 < 32 := field_lt f.imm 7 3
  have e2 : field f.imm 2 0 < 8 := field_lt f.imm 2 0
  have e20 : field f.imm 20 20 < 2 := field_lt f.imm 20 20
  have e15 : field f.imm 19 15 < 32 := field_lt f.imm 19 15
  have e14 : field f.imm 14 12 < 8 := field_lt f.imm 14 12
  unfold slots
  dsimp only
  cases op.spec.format <;> constructor <;> dsimp only <;> omega

theorem ofWord_word (op : Opcode) (hf : f.Bounded) : Slots.ofWord (op.word f) = op.slots f := by
  rw [word_eq_slots, Slots.ofWord_word (slots_bounded hf)]

theorem matches_word (hf : f.Bounded) : Matches (op.word f) op := by
  have h := ofWord_word op hf
  have hm := congrArg Slots.major h
  have h3 := congrArg Slots.funct3 h
  have h7 := congrArg Slots.funct7 h
  simp only [Slots.ofWord, slots] at hm h3 h7
  unfold Matches format
  cases hs : op.spec.format <;> simp [hs] at hm h3 h7 <;> simp [hm, h3, h7]

theorem immediate_low {w v : Int} (h7 : field w 31 25 = field v 11 5)
    (h2 : field w 24 20 = field v 4 0) : signExtend (field w 31 20) 12 = v.bmod 0x1000 := by
  have hw25 := field_split w 31 25 20 (by omega) (by omega)
  simp only [Nat.reduceSub] at hw25
  rw [hw25, h7, h2, store_pieces]
  exact Int.emod_bmod _ _

theorem immediate_branch {w v : Int} (h7 : field w 31 25 = field v 12 12 <<< 6 + field v 10 5)
    (hd : field w 11 7 = field v 4 1 <<< 1 + field v 11 11) :
    immediate w .branch = Format.branch.wrap v := by
  have hw31 := field_split w 31 31 25 (by omega) (by omega)
  have hw8 := field_split w 11 8 7 (by omega) (by omega)
  have hw30 : field w 30 25 < 64 := field_lt w 30 25
  have hv10 : field v 10 5 < 64 := field_lt v 10 5
  have hw7 : field w 7 7 < 2 := field_lt w 7 7
  have hv11 : field v 11 11 < 2 := field_lt v 11 11
  simp only [Nat.reduceSub] at hw31 hw8
  have e12 : field w 31 31 = field v 12 12 := by omega
  have e10 : field w 30 25 = field v 10 5 := by omega
  have e4 : field w 11 8 = field v 4 1 := by omega
  have e11 : field w 7 7 = field v 11 11 := by omega
  rw [immediate, e12, e10, e4, e11, branch_pieces]
  exact Int.emod_sub_bmod _ _

theorem immediate_upper {w v : Int} (h7 : field w 31 25 = field v 19 13)
    (h2 : field w 24 20 = field v 12 8) (h1 : field w 19 15 = field v 7 3)
    (h3 : field w 14 12 = field v 2 0) : immediate w .upper = Format.upper.wrap v := by
  have hw25 := field_split w 31 25 12 (by omega) (by omega)
  have hw20 := field_split w 24 20 12 (by omega) (by omega)
  have hw15 := field_split w 19 15 12 (by omega) (by omega)
  have hv13 := field_split v 19 13 0 (by omega) (by omega)
  have hv8 := field_split v 12 8 0 (by omega) (by omega)
  have hv3 := field_split v 7 3 0 (by omega) (by omega)
  simp only [Nat.reduceSub, Nat.sub_zero] at hw25 hw20 hw15 hv13 hv8 hv3
  have e19 : field w 31 12 = field v 19 0 := by omega
  rw [immediate, e19, natCast_field_zero]
  exact Int.emod_bmod _ _

theorem immediate_jump {w v : Int} (h7 : field w 31 25 = field v 20 20 <<< 6 + field v 10 5)
    (h2 : field w 24 20 = field v 4 1 <<< 1 + field v 11 11)
    (h1 : field w 19 15 = field v 19 15) (h3 : field w 14 12 = field v 14 12) :
    immediate w .jump = Format.jump.wrap v := by
  have hw31 := field_split w 31 31 25 (by omega) (by omega)
  have hw21 := field_split w 24 21 20 (by omega) (by omega)
  have hw25 := field_split w 30 25 21 (by omega) (by omega)
  have hw15 := field_split w 19 15 12 (by omega) (by omega)
  have hv5 := field_split v 10 5 1 (by omega) (by omega)
  have hv15 := field_split v 19 15 12 (by omega) (by omega)
  have hw30 : field w 30 25 < 64 := field_lt w 30 25
  have hv10 : field v 10 5 < 64 := field_lt v 10 5
  have hw20 : field w 20 20 < 2 := field_lt w 20 20
  have hv11 : field v 11 11 < 2 := field_lt v 11 11
  simp only [Nat.reduceSub] at hw31 hw21 hw25 hw15 hv5 hv15
  have e20 : field w 31 31 = field v 20 20 := by omega
  have e19 : field w 19 12 = field v 19 12 := by omega
  have e11 : field w 20 20 = field v 11 11 := by omega
  have e10 : field w 30 21 = field v 10 1 := by omega
  rw [immediate, e20, e19, e11, e10, jump_pieces]
  exact Int.emod_sub_bmod _ _

theorem immediate_word (hf : f.Bounded) (hi : Role.imm ∈ op.format.roles) :
    immediate (op.word f) op.format = op.format.wrap f.imm := by
  have h := ofWord_word op hf
  have h7 := congrArg Slots.funct7 h
  have h2 := congrArg Slots.rs2 h
  have h1 := congrArg Slots.rs1 h
  have h3 := congrArg Slots.funct3 h
  have hd := congrArg Slots.rd h
  simp only [Slots.ofWord, slots] at h7 h2 h1 h3 hd
  -- From here on a word is known only by the six parts that it shows.
  generalize op.word f = n at *
  unfold format at *
  cases hs : op.spec.format <;> simp only [hs] at h7 h2 h1 h3 hd hi ⊢
  case register => simp [Format.roles] at hi
  case immediate => exact immediate_low h7 h2
  case shift => rw [immediate, h2, natCast_field_zero]; rfl
  case memory => exact immediate_low h7 h2
  case store => rw [immediate, h7, hd, store_pieces]; exact Int.emod_bmod _ _
  case branch => exact immediate_branch h7 hd
  case upper => exact immediate_upper h7 h2 h1 h3
  case jump => exact immediate_jump h7 h2 h1 h3

theorem get_fieldsOf_word (hf : f.Bounded) {role : Role} (hr : role ∈ op.format.roles) :
    (fieldsOf (op.word f) op.format).get role
      = if role = .imm then op.format.wrap f.imm else f.get role := by
  have h := ofWord_word op hf
  have h2 := congrArg Slots.rs2 h
  have h1 := congrArg Slots.rs1 h
  have hd := congrArg Slots.rd h
  simp only [Slots.ofWord, slots] at h2 h1 hd
  cases role with
  | imm => rw [if_pos rfl]; exact immediate_word hf hr
  | rd =>
    unfold format at *
    cases hs : op.spec.format <;> simp [hs, Format.roles, Fields.get, fieldsOf] at hr hd ⊢ <;> omega
  | rs1 =>
    unfold format at *
    cases hs : op.spec.format <;> simp [hs, Format.roles, Fields.get, fieldsOf] at hr h1 ⊢ <;> omega
  | rs2 =>
    unfold format at *
    cases hs : op.spec.format <;> simp [hs, Format.roles, Fields.get, fieldsOf] at hr h2 ⊢ <;> omega

theorem fieldsOf_bounded (w : Int) (format : Format) : (fieldsOf w format).Bounded :=
  ⟨field_lt w 11 7, field_lt w 19 15, field_lt w 24 20⟩

theorem field_immediate_low (w : Int) {high low : Nat} (hh : high < 12) (hl : low ≤ high) :
    field (signExtend (field w 31 20) 12) high low = field w (20 + high) (20 + low) := by
  rw [field_signExtend _ hh hl, field_field w (Nat.le_of_lt_succ hh) hl]

theorem field_immediate_upper (w : Int) {high low : Nat} (hh : high < 20) (hl : low ≤ high) :
    field (immediate w .upper) high low = field w (12 + high) (12 + low) := by
  rw [immediate, field_signExtend _ hh hl, field_field w (Nat.le_of_lt_succ hh) hl]

theorem store_fields (w : Int) :
    field (immediate w .store) 11 5 = field w 31 25 ∧
    field (immediate w .store) 4 0 = field w 11 7 := by
  have h7 : field w 31 25 < 128 := field_lt w 31 25
  have hd : field w 11 7 < 32 := field_lt w 11 7
  simp (disch := omega) only [immediate, field_signExtend]
  generalize field w 31 25 = a at *
  generalize field w 11 7 = b at *
  simp only [field, rowCount, Nat.shiftLeft_eq, Nat.reducePow, Nat.reduceSub, Nat.reduceAdd,
    Nat.one_mul]
  omega

theorem branch_fields (w : Int) :
    field (immediate w .branch) 12 12 = field w 31 31 ∧
    field (immediate w .branch) 11 11 = field w 7 7 ∧
    field (immediate w .branch) 10 5 = field w 30 25 ∧
    field (immediate w .branch) 4 1 = field w 11 8 := by
  have h12 : field w 31 31 < 2 := field_lt w 31 31
  have h11 : field w 7 7 < 2 := field_lt w 7 7
  have h10 : field w 30 25 < 64 := field_lt w 30 25
  have h4 : field w 11 8 < 16 := field_lt w 11 8
  simp (disch := omega) only [immediate, field_signExtend]
  generalize field w 31 31 = a at *
  generalize field w 7 7 = b at *
  generalize field w 30 25 = c at *
  generalize field w 11 8 = d at *
  simp only [field, rowCount, Nat.shiftLeft_eq, Nat.reducePow, Nat.reduceSub, Nat.reduceAdd,
    Nat.one_mul]
  omega

theorem jump_fields (w : Int) :
    field (immediate w .jump) 20 20 = field w 31 31 ∧
    field (immediate w .jump) 19 12 = field w 19 12 ∧
    field (immediate w .jump) 11 11 = field w 20 20 ∧
    field (immediate w .jump) 10 1 = field w 30 21 := by
  have h20 : field w 31 31 < 2 := field_lt w 31 31
  have h19 : field w 19 12 < 256 := field_lt w 19 12
  have h11 : field w 20 20 < 2 := field_lt w 20 20
  have h10 : field w 30 21 < 1024 := field_lt w 30 21
  simp (disch := omega) only [immediate, field_signExtend]
  generalize field w 31 31 = a at *
  generalize field w 19 12 = b at *
  generalize field w 20 20 = c at *
  generalize field w 30 21 = d at *
  simp only [field, rowCount, Nat.shiftLeft_eq, Nat.reducePow, Nat.reduceSub, Nat.reduceAdd,
    Nat.one_mul]
  omega

theorem slots_jump (w : Int) :
    let v := immediate w .jump
    field w 31 25 = field v 20 20 <<< 6 + field v 10 5 ∧
    field w 24 20 = field v 4 1 <<< 1 + field v 11 11 ∧
    field w 19 15 = field v 19 15 ∧ field w 14 12 = field v 14 12 := by
  obtain ⟨e20, e19, e11, e10⟩ := jump_fields w
  generalize immediate w .jump = v at *
  have hw31 := field_split w 31 31 25 (by omega) (by omega)
  have hw21 := field_split w 24 21 20 (by omega) (by omega)
  have hw25 := field_split w 30 25 21 (by omega) (by omega)
  have hw15 := field_split w 19 15 12 (by omega) (by omega)
  have hv5 := field_split v 10 5 1 (by omega) (by omega)
  have hv15 := field_split v 19 15 12 (by omega) (by omega)
  have hw24 : field w 24 21 < 16 := field_lt w 24 21
  have hv4 : field v 4 1 < 16 := field_lt v 4 1
  have hw14 : field w 14 12 < 8 := field_lt w 14 12
  have hv14 : field v 14 12 < 8 := field_lt v 14 12
  simp only [Nat.reduceSub] at hw31 hw21 hw25 hw15 hv5 hv15
  omega

theorem slots_fieldsOf {w : Int} (h : Matches w op) :
    op.slots (fieldsOf w op.format) = Slots.ofWord w := by
  obtain ⟨hm, h3, h7⟩ := h
  unfold format at *
  unfold slots fieldsOf Slots.ofWord
  cases hs : op.spec.format <;>
    simp only [hs, reduceCtorEq, false_or, ne_eq, not_true_eq_false, not_false_eq_true, true_or,
      or_true, and_true, and_false] at h3 h7 ⊢ <;>
    rw [← hm]
  case register => rw [← h3, ← h7]
  case immediate =>
    rw [← h3]
    simp (disch := omega) only [immediate, field_immediate_low]
  case shift =>
    rw [← h3, ← h7]
    simp (disch := omega) only [immediate, field_field]
  case memory =>
    rw [← h3]
    simp (disch := omega) only [immediate, field_immediate_low]
  case store => rw [← h3, (store_fields w).1, (store_fields w).2]
  case branch =>
    obtain ⟨e12, e11, e10, e4⟩ := branch_fields w
    have hw31 := field_split w 31 31 25 (by omega) (by omega)
    have hw8 := field_split w 11 8 7 (by omega) (by omega)
    rw [← h3, e12, e11, e10, e4, hw31, hw8]
  case upper =>
    simp (disch := omega) only [field_immediate_upper]
  case jump =>
    obtain ⟨e7, e2, e1, e3⟩ := slots_jump w
    rw [← e7, ← e2, ← e1, ← e3]

/-- A word is its opcode and its fields, with no bit left over. -/
theorem word_fieldsOf {w : Int} (h : Matches w op) :
    (op.word (fieldsOf w op.format) : Int) = w % 0x100000000 := by
  rw [word_eq_slots, slots_fieldsOf h, Slots.word_ofWord]

end Opcode

end Datapath
