import Mathlib.Data.Int.Bitwise
import Datapath.Machine.Registers
import Datapath.Proofs.BitRow

set_option autoImplicit false

namespace Datapath.Bits

/-- The bits of an integer under a mask of `width` ones. -/
def masked (v : Int) (width : Nat) : Int := v.land (rowCount width - 1)

/-- The masked bits as a binary numeral that is filled up with zeros. -/
def maskedText (v : Int) (width : Nat) : Text :=
  Text.padLeft '0' width (Nat.toDigits 2 (masked v width).toNat)

/-- The masked bits, less the weight of the bit above them if the highest of them is set. -/
def maskedSign (v : Int) (width : Nat) : Int :=
  let low := masked v width
  if low.land (rowCount (width - 1)) = 0 then low else low - rowCount width

theorem natCast_rowCount (width : Nat) : (rowCount width : Int) = 2 ^ width := by
  rw [rowCount_eq_pow, Int.natCast_pow]
  rfl

theorem rowCount_half {width : Nat} (h : 0 < width) :
    rowCount width = rowCount (width - 1) * 2 := by
  obtain ⟨w, rfl⟩ := Nat.exists_eq_add_one.2 h
  exact rowCount_add w 1

theorem ldiff_ones (n width : Nat) :
    (rowCount width - 1).ldiff n = rowCount width - (n % rowCount width + 1) := by
  rw [rowCount_eq_pow]
  apply Nat.eq_of_testBit_eq
  intro k
  rw [Nat.testBit_ldiff, Nat.testBit_two_pow_sub_one,
    Nat.testBit_two_pow_sub_succ (Nat.mod_lt n (Nat.two_pow_pos width)), Nat.testBit_mod_two_pow]
  cases decide (k < width) <;> rfl

theorem masked_eq_emod (v : Int) (width : Nat) : masked v width = v % rowCount width := by
  have hp := rowCount_pos width
  have hmask : (rowCount width : Int) - 1 = ((rowCount width - 1 : Nat) : Int) := by omega
  rw [masked, hmask]
  cases v with
  | ofNat n =>
    have hand : n &&& (rowCount width - 1) = n % rowCount width := by
      rw [rowCount_eq_pow]
      exact Nat.and_two_pow_sub_one_eq_mod n width
    exact congrArg Int.ofNat hand
  | negSucc n =>
    have hland : (Int.negSucc n).land (rowCount width - 1 : Nat)
        = ((rowCount width - 1).ldiff n : Nat) := rfl
    have hlt := Nat.mod_lt n hp
    rw [hland, ldiff_ones, Int.negSucc_emod n (Int.natCast_pos.2 hp)]
    omega

theorem padLeft_concat (fill c : Char) (width : Nat) (t : Text) :
    Text.padLeft fill (width + 1) (t ++ [c]) = Text.padLeft fill width t ++ [c] := by
  simp [Text.padLeft]

theorem row_one {n : Nat} (h : n < 2) : row 1 n = [n.digitChar] := by
  cases n with
  | zero => rfl
  | succ n =>
    have hn : n = 0 := by omega
    subst hn
    rfl

theorem row_concat (width n : Nat) :
    row (width + 1) n = row width (n / 2) ++ [(n % 2).digitChar] := by
  have hn : n = (n / 2) <<< 1 + n % 2 := by
    rw [Nat.shiftLeft_eq]
    omega
  have hlt : n % 2 < rowCount 1 := Nat.mod_lt n (by decide)
  rw [← row_one hlt, ← row_append width hlt, ← hn]

theorem row_eq_padLeft (width : Nat) {n : Nat} (h : n < rowCount (width + 1)) :
    row (width + 1) n = Text.padLeft '0' (width + 1) (Nat.toDigits 2 n) := by
  induction width generalizing n with
  | zero =>
    have hn : n < 2 := h
    rw [row_one hn, Nat.toDigits_of_lt_base hn]
    rfl
  | succ w ih =>
    have hhalf : n / 2 < rowCount (w + 1) := by
      rw [rowCount_half (Nat.succ_pos _)] at h
      exact Nat.div_lt_of_lt_mul (by rwa [Nat.mul_comm])
    rw [row_concat, ih hhalf, ← padLeft_concat]
    -- A numeral of one digit has no digits above it, so the fill reaches one place further.
    rcases Nat.lt_or_ge n 2 with hn | hn
    · have hzero : n / 2 = 0 := Nat.div_eq_of_lt hn
      rw [hzero, Nat.mod_eq_of_lt hn, Nat.toDigits_of_lt_base hn]
      simp [Text.padLeft, List.replicate_succ']
    · rw [Nat.toDigits_of_base_le (by decide) hn]

theorem toText?_natCast (v : Int) (width : Nat) : toText? v width = .ok (toText v width) := by
  rw [toText?, if_neg (by omega), Int.toNat_natCast]

theorem toText_eq_maskedText (v : Int) {width : Nat} (h : 0 < width) :
    toText v width = maskedText v width := by
  obtain ⟨w, rfl⟩ := Nat.exists_eq_add_one.2 h
  obtain ⟨n, hn, hlt⟩ := exists_remainder v (w + 1)
  rw [toText_of_pos v h, maskedText, masked_eq_emod, hn, Int.toNat_natCast, row_eq_padLeft w hlt]

theorem value_toText (v : Int) {width : Nat} (h : 0 < width) :
    (value (toText v width) : Int) = v % rowCount width := by
  obtain ⟨n, hn, hlt⟩ := exists_remainder v width
  rw [toText_of_pos v h, hn, Int.toNat_natCast, value_row, Nat.mod_eq_of_lt hlt]

theorem land_rowCount_eq_zero_iff {n k : Nat} (h : n < rowCount (k + 1)) :
    n &&& rowCount k = 0 ↔ n < rowCount k := by
  rw [rowCount_eq_pow] at h
  rw [rowCount_eq_pow, Nat.and_two_pow]
  rcases Nat.lt_or_ge n (2 ^ k) with hlt | hge
  · simp [hlt, Nat.testBit_lt_two_pow hlt]
  · have hbit : n.testBit k = true := Nat.testBit_of_two_pow_le_and_two_pow_add_one_gt hge h
    simp [hbit, hge]

theorem signExtend_eq_maskedSign (v : Int) {width : Nat} (h : 0 < width) :
    signExtend v width = maskedSign v width := by
  obtain ⟨n, hn, hlt⟩ := exists_remainder v width
  have hhalf := rowCount_half h
  have hland : (n : Int).land (rowCount (width - 1)) = ((n &&& rowCount (width - 1) : Nat) : Int) :=
    rfl
  have hbit : n &&& rowCount (width - 1) = 0 ↔ n < rowCount (width - 1) :=
    land_rowCount_eq_zero_iff (by rwa [Nat.sub_add_cancel h])
  rw [signExtend, Int.bmod_def, maskedSign, masked_eq_emod, hn, hland]
  split <;> split <;> omega

theorem signExtend_eq_iff {v u : Int} {width : Nat} (h : 0 < width) :
    signExtend v width = u ↔ u % 2 ^ width = v % 2 ^ width ∧
      -2 ^ (width - 1) ≤ u ∧ u < 2 ^ (width - 1) := by
  have hhalf := rowCount_half h
  have hdvd : (rowCount width : Int) ∣ u - v ↔ u % rowCount width = v % rowCount width := by
    rw [Int.dvd_iff_emod_eq_zero, Int.emod_eq_emod_iff_emod_sub_eq_zero]
  rw [signExtend, Int.bmod_eq_iff (rowCount_pos width), hdvd, ← natCast_rowCount,
    ← natCast_rowCount]
  omega

theorem signExtend_value_toText (v : Int) {width : Nat} (h : 0 < width) :
    signExtend (value (toText v width)) width = signExtend v width := by
  rw [value_toText v h, signExtend, Int.emod_bmod, signExtend]

theorem signExtend?_of_pos (v : Int) {width : Nat} (h : 0 < width) :
    signExtend? v width = .ok (signExtend v width) := by
  rw [signExtend?, if_neg (by omega), Int.toNat_natCast]

theorem signed_eq_signExtend (v : Int) : Word.signed v = signExtend v 32 := rfl

/-- For every integer and every width of at least one bit, the row is the numeral of the masked bits
and has exactly its width, and it reads as the integer modulo `2 ^ width`. With a sign it reads as
the one integer of this remainder in the range of the width, which is the integer itself exactly if
that lies in the range. At 32 bits this is the value of a word. -/
theorem twos_complement (v : Int) {width : Nat} (h : 0 < width) :
    ∃ t s, toText? v width = .ok t ∧ signExtend? v width = .ok s ∧
      t = maskedText v width ∧ s = maskedSign v width ∧
      t.length = width ∧ (∀ c ∈ t, c = '0' ∨ c = '1') ∧ (value t : Int) = v % 2 ^ width ∧
      (∀ u : Int, u = s ↔ u % 2 ^ width = v % 2 ^ width ∧
        -2 ^ (width - 1) ≤ u ∧ u < 2 ^ (width - 1)) ∧
      (signExtend? (value t) width = .ok v ↔ -2 ^ (width - 1) ≤ v ∧ v < 2 ^ (width - 1)) ∧
      signExtend? v 32 = .ok (Word.signed v) ∧ Word.signed v = maskedSign v 32 := by
  have hpos : 0 < 32 := by decide
  refine ⟨toText v width, signExtend v width, toText?_natCast v width, signExtend?_of_pos v h,
    toText_eq_maskedText v h, signExtend_eq_maskedSign v h, ?_, ?_, ?_, ?_, ?_, ?_, ?_⟩
  · rw [toText_of_pos v h, length_row]
  · rw [toText_of_pos v h]
    exact fun _ => mem_row
  · rw [value_toText v h, natCast_rowCount]
  · intro u
    rw [← signExtend_eq_iff h, eq_comm]
  · rw [signExtend?_of_pos _ h, signExtend_value_toText v h, Except.ok.injEq, signExtend_eq_iff h]
    exact and_iff_right rfl
  · exact signExtend?_of_pos v hpos
  · rw [signed_eq_signExtend, signExtend_eq_maskedSign v hpos]

theorem twos_complement_below_range : 0 < 12 ∧ ∃ t s,
    toText? (-2049) 12 = .ok t ∧ signExtend? (-2049) 12 = .ok s ∧
    t = "011111111111".toList ∧ s = 2047 ∧ signExtend? (value t) 12 ≠ .ok (-2049) := by
  obtain ⟨t, s, ht, hs, -, -, -, -, -, hu, hb, -⟩ := twos_complement (-2049) (by decide : 0 < 12)
  have htext : toText? (-2049) 12 = .ok "011111111111".toList := by rfl
  refine ⟨by decide, t, s, ht, hs, ?_, ?_, ?_⟩
  · exact Except.ok.inj (ht.symm.trans htext)
  · exact ((hu 2047).2 (by decide)).symm
  · exact fun h => absurd (hb.1 h) (by decide)

end Datapath.Bits
