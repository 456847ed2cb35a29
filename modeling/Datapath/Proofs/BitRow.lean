import Mathlib.Data.Int.Bitwise
import Datapath.Isa

set_option autoImplicit false

namespace Datapath

namespace Bits

theorem rowCount_add (m n : Nat) : rowCount (m + n) = rowCount m * rowCount n := by
  simp only [rowCount, Nat.shiftLeft_eq, Nat.one_mul, Nat.pow_add]

theorem shiftLeft_eq_rowCount_mul (n k : Nat) : n <<< k = rowCount k * n := by
  simp only [rowCount, Nat.shiftLeft_eq, Nat.one_mul, Nat.mul_comm]

theorem exists_remainder (v : Int) (width : Nat) :
    ∃ n : Nat, v % rowCount width = n ∧ n < rowCount width := by
  have hp : (0 : Int) < rowCount width := Int.natCast_pos.2 (rowCount_pos width)
  have hlt := Int.emod_lt_of_pos v hp
  obtain ⟨n, hn⟩ := Int.eq_ofNat_of_zero_le (Int.emod_nonneg v (Int.ne_of_gt hp))
  exact ⟨n, hn, by omega⟩

theorem emod_mul_eq (u : Int) {p q : Nat} (hp : 0 < p) (hq : 0 < q) :
    u % ((p * q : Nat) : Int) = p * (u / p % q) + u % p := by
  have hp' : (0 : Int) < p := Int.natCast_pos.2 hp
  have hq' : (0 : Int) < q := Int.natCast_pos.2 hq
  have hu := Int.mul_ediv_add_emod u p
  have hv := Int.mul_ediv_add_emod (u / p) q
  have hr := Int.emod_lt_of_pos u hp'
  have hr0 := Int.emod_nonneg u (Int.ne_of_gt hp')
  have hs := Int.emod_lt_of_pos (u / p) hq'
  have hs0 := Int.emod_nonneg (u / p) (Int.ne_of_gt hq')
  have hm : (p : Int) * (u / p % q) ≤ p * (q - 1) :=
    Int.mul_le_mul_of_nonneg_left (by omega) (by omega)
  have hm0 : 0 ≤ (p : Int) * (u / p % q) := Int.mul_nonneg (by omega) hs0
  have hb : (0 : Int) < ((p * q : Nat) : Int) := Int.natCast_pos.2 (Nat.mul_pos hp hq)
  refine ((Int.ediv_emod_unique hb (q := u / p / q)).2 ⟨?_, ?_, ?_⟩).2
  · calc
      (p : Int) * (u / p % q) + u % p + ((p * q : Nat) : Int) * (u / p / q)
          = p * (q * (u / p / q) + u / p % q) + u % p := by
            rw [Int.natCast_mul, Int.mul_add, Int.mul_assoc]; omega
      _ = u := by rw [hv, hu]
  · omega
  · have hpq : (p : Int) * (q - 1) = p * q - p := by rw [Int.mul_sub, Int.mul_one]
    rw [Int.natCast_mul]
    omega

theorem natCast_field (v : Int) (high low : Nat) :
    (field v high low : Int) = v / rowCount low % rowCount (high - low + 1) :=
  Int.toNat_of_nonneg (Int.emod_nonneg _ (Int.ne_of_gt (Int.natCast_pos.2 (rowCount_pos _))))

theorem natCast_field_zero (v : Int) (high : Nat) :
    (field v high 0 : Int) = v % rowCount (high + 1) := by
  simp [natCast_field, rowCount]

theorem field_split (v : Int) (high mid low : Nat) (hl : low < mid) (hm : mid ≤ high) :
    field v high low = field v high mid <<< (mid - low) + field v (mid - 1) low := by
  have hd : rowCount mid = rowCount low * rowCount (mid - low) := by
    rw [← rowCount_add, Nat.add_sub_cancel' (Nat.le_of_lt hl)]
  have hc : rowCount (high - low + 1) = rowCount (mid - low) * rowCount (high - mid + 1) := by
    rw [← rowCount_add]; congr 1; omega
  have hw : mid - 1 - low + 1 = mid - low := by omega
  apply Int.ofNat_inj.1
  rw [Int.natCast_add, shiftLeft_eq_rowCount_mul, Int.natCast_mul, natCast_field, natCast_field,
    natCast_field, hw, hc, hd, emod_mul_eq _ (rowCount_pos _) (rowCount_pos _), Int.natCast_mul,
    Int.ediv_mul_of_nonneg (Int.natCast_nonneg _)]

theorem field_eq_div (v : Int) {high low : Nat} (h : low ≤ high) :
    field v high low = field v high 0 / rowCount low := by
  cases low with
  | zero => simp [rowCount]
  | succ low =>
    have hl : field v low 0 < rowCount (low + 1) := field_lt v low 0
    have hs := field_split v high (low + 1) 0 (Nat.succ_pos low) h
    simp only [Nat.sub_zero, Nat.add_sub_cancel] at hs
    rw [hs, shiftLeft_eq_rowCount_mul, Nat.mul_add_div (rowCount_pos _), Nat.div_eq_of_lt hl]
    omega

theorem field_congr {v w : Int} {high low n : Nat} (hn : high < n) (hl : low ≤ high)
    (h : v % rowCount n = w % rowCount n) : field v high low = field w high low := by
  have hd : ((rowCount (high + 1) : Nat) : Int) ∣ rowCount n := by
    obtain ⟨k, rfl⟩ := Nat.exists_eq_add_of_le (Nat.succ_le_of_lt hn)
    exact ⟨rowCount k, by rw [rowCount_add, Int.natCast_mul]⟩
  have hz : field v high 0 = field w high 0 := by
    apply Int.ofNat_inj.1
    rw [natCast_field_zero, natCast_field_zero, ← Int.emod_emod_of_dvd v hd, h,
      Int.emod_emod_of_dvd w hd]
  rw [field_eq_div v hl, field_eq_div w hl, hz]

theorem signExtend_emod (v : Int) (width : Nat) :
    signExtend v width % rowCount width = v % rowCount width := Int.bmod_emod

theorem natAbs_signExtend_le (v : Int) (width : Nat) :
    (signExtend v width).natAbs ≤ rowCount width := by
  have hl := Int.le_bmod (x := v) (rowCount_pos width)
  have hu := Int.bmod_lt (x := v) (rowCount_pos width)
  unfold signExtend
  omega

theorem field_signExtend (v : Int) {width high low : Nat} (hw : high < width)
    (hl : low ≤ high) : field (signExtend v width) high low = field v high low :=
  field_congr hw hl (signExtend_emod v width)

theorem field_field (v : Int) {high low h l : Nat} (hh : h ≤ high - low) (hl : l ≤ h) :
    field (field v high low) h l = field v (low + h) (low + l) := by
  have hc : field (field v high low) h l = field (v / rowCount low) h l := by
    apply field_congr (Nat.lt_succ_of_le hh) hl
    rw [natCast_field, Int.emod_emod_of_dvd _ (Int.dvd_refl _)]
  have hw : low + h - (low + l) + 1 = h - l + 1 := by omega
  rw [hc, field, field, hw, rowCount_add low, Int.natCast_mul,
    Int.ediv_mul_of_nonneg (Int.natCast_nonneg _)]

theorem rowCount_mul_bit (w n : Nat) :
    rowCount w * (if bit (n.testBit w) = '1' then 1 else 0) + n % rowCount w
      = n % rowCount (w + 1) := by
  have hb : (if bit (n.testBit w) = '1' then 1 else 0) = n / rowCount w % 2 := by
    have h := Nat.mod_two_eq_zero_or_one (n / rowCount w)
    rw [Nat.testBit_eq_decide_div_mod_eq, ← Nat.one_shiftLeft]
    rcases h with h | h <;> simp [bit, rowCount] at h ⊢ <;> simp [h]
  rw [hb, rowCount_add, Nat.mod_mul, Nat.add_comm]
  simp [rowCount]

theorem foldl_row (width n start : Nat) :
    (row width n).foldl (fun n c => 2 * n + if c = '1' then 1 else 0) start
      = rowCount width * start + n % rowCount width := by
  induction width generalizing start with
  | zero => simp [row, rowCount, Nat.mod_one]
  | succ w ih =>
    have hp : rowCount (w + 1) = rowCount w * 2 := by rw [rowCount_add]; rfl
    rw [row, List.foldl_cons, ih, Nat.mul_add, Nat.add_assoc, rowCount_mul_bit, hp, Nat.mul_assoc]

/-- Reading a row gives back what was written, modulo its width. -/
theorem value_row (width n : Nat) : value (row width n) = n % rowCount width := by
  simp [value, foldl_row]

theorem toText_of_pos (v : Int) {width : Nat} (h : 0 < width) :
    toText v width = row width (v % rowCount width).toNat := if_neg (Nat.ne_of_gt h)

theorem mem_row {width n : Nat} {c : Char} (h : c ∈ row width n) : c = '0' ∨ c = '1' := by
  induction width with
  | zero => simp [row] at h
  | succ w ih =>
    simp only [row, List.mem_cons] at h
    cases h with
    | inl h => cases hb : n.testBit w <;> simp [h, hb, bit]
    | inr h => exact ih h

theorem rowCount_eq_pow (width : Nat) : rowCount width = 2 ^ width := Nat.one_shiftLeft width

theorem negSucc_ediv_rowCount (n k : Nat) :
    Int.negSucc n / rowCount k = Int.negSucc (n / rowCount k) := by
  rw [Int.negSucc_ediv _ (Int.natCast_pos.2 (rowCount_pos k)), Int.negSucc_eq, Int.natCast_ediv]
  rfl

theorem testBit_eq_field (v : Int) (k : Nat) : v.testBit k = decide (field v k k = 1) := by
  have hone : rowCount (k - k + 1) = 2 := by rw [Nat.sub_self]; rfl
  unfold field
  rw [hone]
  cases v with
  | ofNat n =>
    rw [Int.testBit, Nat.testBit_eq_decide_div_mod_eq, ← rowCount_eq_pow, Int.ofNat_eq_natCast,
      ← Int.natCast_ediv]
    apply decide_eq_decide.2
    omega
  | negSucc n =>
    -- A negative integer has the opposite bits of the number below its distance from zero.
    rw [Int.testBit, Nat.testBit_eq_decide_div_mod_eq, ← rowCount_eq_pow, negSucc_ediv_rowCount,
      ← decide_not]
    apply decide_eq_decide.2
    omega

theorem testBit_field (v : Int) {high low k : Nat} (hk : k ≤ high - low) :
    (field v high low).testBit k = v.testBit (low + k) := by
  have hcast : (field v high low).testBit k = (field v high low : Int).testBit k := rfl
  rw [hcast, testBit_eq_field, testBit_eq_field, field_field v hk (Nat.le_refl k)]

theorem row_eq_map (width n : Nat) :
    row width n = (List.range width).reverse.map fun k => bit (n.testBit k) := by
  induction width with
  | zero => rfl
  | succ w ih => simp [row, ih, List.range_succ]

theorem row_append (a : Nat) {b x y : Nat} (hy : y < rowCount b) :
    row (a + b) (x <<< b + y) = row a x ++ row b y := by
  have hbit : ∀ k, (x <<< b + y).testBit k = if k < b then y.testBit k else x.testBit (k - b) := by
    intro k
    rw [rowCount_eq_pow] at hy
    rw [shiftLeft_eq_rowCount_mul, rowCount_eq_pow]
    exact Nat.testBit_two_pow_mul_add x hy k
  induction a with
  | zero =>
    rw [Nat.zero_add, row, List.nil_append, row_eq_map, row_eq_map]
    apply List.map_congr_left
    intro k hk
    simp at hk
    rw [hbit, if_pos hk]
  | succ a ih =>
    have htop : ¬ a + b < b := by omega
    rw [Nat.add_right_comm, row, ih, hbit, if_neg htop, Nat.add_sub_cancel, row, List.cons_append]

def slice (v : Int) (high low : Nat) : Text :=
  (List.range (high - low + 1)).reverse.map fun k => bit (v.testBit (low + k))

theorem row_field {width high low : Nat} (v : Int) (hw : width = high - low + 1) :
    row width (field v high low) = slice v high low := by
  rw [hw, row_eq_map, slice]
  apply List.map_congr_left
  intro k hk
  simp at hk
  rw [testBit_field v (by omega)]

theorem row_fields {width shift high mid next low : Nat} (v : Int) (hs : shift = next - low + 1)
    (hw : width = (high - mid + 1) + shift) :
    row width (field v high mid <<< shift + field v next low)
      = slice v high mid ++ slice v next low := by
  rw [hw, hs, row_append _ (field_lt v next low), row_field v rfl, row_field v rfl]

theorem slice_append {high mid next low : Nat} (v : Int) (rest : Text) (hn : next + 1 = mid)
    (hl : low ≤ next) (hm : mid ≤ high) :
    slice v high mid ++ (slice v next low ++ rest) = slice v high low ++ rest := by
  subst hn
  have hw : high - low + 1 = (high - (next + 1) + 1) + (next - low + 1) := by omega
  have hs : next + 1 - low = next - low + 1 := by omega
  rw [← List.append_assoc, ← row_fields v rfl hw, ← row_field v rfl,
    field_split v high (next + 1) low (Nat.lt_succ_of_le hl) hm, Nat.add_sub_cancel, hs]

end Bits

namespace Format

/-- An immediate after it went through its field. Only the lowest five bits of a shift amount count,
and the offset of a branch or a jump has no lowest bit. -/
def wrap : Format → Int → Int
  | .register, v => v
  | .immediate, v => v.bmod 0x1000
  | .shift, v => v % 32
  | .memory, v => v.bmod 0x1000
  | .store, v => v.bmod 0x1000
  | .branch, v => (v - v % 2).bmod 0x2000
  | .upper, v => v.bmod 0x100000
  | .jump, v => (v - v % 2).bmod 0x200000

def Fits : Format → Int → Prop
  | .register, _ => True
  | .immediate, v => -2048 ≤ v ∧ v ≤ 2047
  | .shift, v => 0 ≤ v ∧ v ≤ 31
  | .memory, v => -2048 ≤ v ∧ v ≤ 2047
  | .store, v => -2048 ≤ v ∧ v ≤ 2047
  | .branch, v => -4096 ≤ v ∧ v ≤ 4094 ∧ v % 2 = 0
  | .upper, v => -0x80000 ≤ v ∧ v ≤ 0x7FFFF
  | .jump, v => -0x100000 ≤ v ∧ v ≤ 0xFFFFE ∧ v % 2 = 0

instance (format : Format) (v : Int) : Decidable (format.Fits v) :=
  match format with
  | .register => inferInstanceAs (Decidable True)
  | .immediate | .memory | .store => inferInstanceAs (Decidable (-2048 ≤ v ∧ v ≤ 2047))
  | .shift => inferInstanceAs (Decidable (0 ≤ v ∧ v ≤ 31))
  | .branch => inferInstanceAs (Decidable (-4096 ≤ v ∧ v ≤ 4094 ∧ v % 2 = 0))
  | .upper => inferInstanceAs (Decidable (-0x80000 ≤ v ∧ v ≤ 0x7FFFF))
  | .jump => inferInstanceAs (Decidable (-0x100000 ≤ v ∧ v ≤ 0xFFFFE ∧ v % 2 = 0))

theorem bmod_of_bounds {v : Int} {m n : Nat} (hm : m = 2 * n) (hl : -(n : Int) ≤ v)
    (hu : v < n) : v.bmod m = v := by
  rw [Int.bmod_eq_of_le_mul_two] <;> omega

theorem wrap_of_fits {f : Format} {v : Int} (h : f.Fits v) : f.wrap v = v := by
  cases f <;> simp only [Fits] at h <;> simp only [wrap]
  case immediate => exact bmod_of_bounds (n := 0x800) rfl (by omega) (by omega)
  case shift => omega
  case memory => exact bmod_of_bounds (n := 0x800) rfl (by omega) (by omega)
  case store => exact bmod_of_bounds (n := 0x800) rfl (by omega) (by omega)
  case branch =>
    rw [h.2.2, Int.sub_zero]
    exact bmod_of_bounds (n := 0x1000) rfl (by omega) (by omega)
  case upper => exact bmod_of_bounds (n := 0x80000) rfl (by omega) (by omega)
  case jump =>
    rw [h.2.2, Int.sub_zero]
    exact bmod_of_bounds (n := 0x100000) rfl (by omega) (by omega)

end Format

end Datapath
