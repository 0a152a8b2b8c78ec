import Stepwise.Proofs.Binary64

/-!
# Floats as rational numbers

A finite float stands for a rational number, and floats are compared as these numbers are.

- `Canonical`, `IsRounded`: mantissas and exponents as floats have them
- `unpack_pack_finite`: packing such a number loses nothing, unless it is too great
- `pack_unpack`, `eq_of_unpack_eq`: taking a number apart loses nothing
- `value`: the number that a finite float stands for
- `lt_iff`, `le_iff`, `beq_iff`: the order of floats
-/

namespace Stepwise.Binary64

open Float.Model UnpackedFloat

theorem unpackSign_packComponents {format : Format} {sign : Sign}
    {exponent : BitVec format.exponentBits}
    {mantissa : BitVec format.mantissaBitsWithoutImplicit} :
    unpackSign (packComponents format sign exponent mantissa) = sign.toBitVec := by
  ext i hi
  simp [unpackSign, packComponents, BitVec.getLsbD_eq_getElem, BitVec.getLsbD_append,
    Nat.add_assoc, hi]

theorem ofBitVec_toBitVec (s : Sign) : Sign.ofBitVec s.toBitVec = s := by cases s <;> rfl

/-- The leading digit of a mantissa, which is not stored. -/
theorem toNat_append_implicit (mantissa : BitVec 52) :
    (1#1 ++ mantissa).toNat = 2 ^ 52 + mantissa.toNat := by
  rw [BitVec.toNat_append, ← Nat.shiftLeft_add_eq_or_of_lt mantissa.isLt]
  rfl

theorem unpack_packComponents {sign : Sign} {exponent : BitVec 11} {mantissa : BitVec 52} :
    UnpackedFloat.unpack .binary64 (packComponents .binary64 sign exponent mantissa) =
     if exponent = -1#_ then
       if mantissa = 0#_ then .infinity sign else .notANumber
     else if exponent = 0#_ then
       if h : mantissa = 0#_ then .zero sign
       else
         .finite sign mantissa.toNat (-1074) (by simpa [BitVec.toNat_pos, BitVec.pos_iff_ne_zero])
     else .finite sign (2 ^ 52 + mantissa.toNat) (exponent.toNat - 1075) (by omega) := by
  simp only [UnpackedFloat.unpack, unpackMantissa_packComponents, unpackExponent_packComponents,
    unpackSign_packComponents, ofBitVec_toBitVec]
  split
  · rfl
  split
  · split
    · rfl
    · subst_vars
      rfl
  · congr 1
    exact toNat_append_implicit mantissa

/-- A mantissa and an exponent as they stand in a float: as many digits as there is room for, unless
the exponent is the least one. -/
structure Canonical (m : ℕ) (e : ℤ) : Prop where
  lt : m < 2 ^ 53
  minExponent_le : -1074 ≤ e
  le_of_ne : e ≠ -1074 → 2 ^ 52 ≤ m

theorem unpack_pack (u : UnpackedFloat) :
    (pack u).unpack = UnpackedFloat.unpack .binary64 (UnpackedFloat.pack .binary64 u) := rfl

theorem unpack_pack_notANumber : (pack .notANumber).unpack = .notANumber := by
  rw [unpack_pack, UnpackedFloat.pack, packedNaN, unpack_packComponents]
  rfl

theorem unpack_pack_infinity (s : Sign) : (pack (.infinity s)).unpack = .infinity s := by
  rw [unpack_pack, UnpackedFloat.pack, packedInfinity, unpack_packComponents]
  rfl

theorem unpack_pack_zero (s : Sign) : (pack (.zero s)).unpack = .zero s := by
  rw [unpack_pack, UnpackedFloat.pack, packedZero, unpack_packComponents]
  rfl

theorem unpack_normal {s : Sign} {k m : ℕ} (nonzero : 0 < k) (small : k < 2047)
    (least : 2 ^ 52 ≤ m) (lt : m < 2 ^ 53) :
    UnpackedFloat.unpack .binary64 (packComponents .binary64 s (.ofNat 11 k) (.ofNat 52 m)) =
      .finite s m (k - 1075) (by omega) := by
  have stored : (BitVec.ofNat 11 k).toNat = k := by
    rw [BitVec.toNat_ofNat]
    omega
  have rest : (BitVec.ofNat 52 m).toNat = m - 2 ^ 52 := by
    rw [BitVec.toNat_ofNat]
    omega
  have notAll : BitVec.ofNat 11 k ≠ -1#_ := by
    refine BitVec.toNat_ne.2 ?_
    rw [stored]
    exact small.ne
  have notZero : BitVec.ofNat 11 k ≠ 0#_ := by
    refine BitVec.toNat_ne.2 ?_
    rw [stored]
    exact nonzero.ne'
  rw [unpack_packComponents, if_neg notAll, if_neg notZero]
  congr 1 <;> omega

theorem unpack_subnormal {s : Sign} {m : ℕ} (pos : 0 < m) (lt : m < 2 ^ 52) :
    UnpackedFloat.unpack .binary64 (packComponents .binary64 s 0#11 (.ofNat 52 m)) =
      .finite s m (-1074) pos := by
  have stored : (BitVec.ofNat 52 m).toNat = m := by
    rw [BitVec.toNat_ofNat]
    omega
  have notZero : BitVec.ofNat 52 m ≠ 0#_ := by
    refine BitVec.toNat_ne.2 ?_
    rw [stored]
    exact pos.ne'
  rw [unpack_packComponents, if_neg (by decide), if_pos rfl, dif_neg notZero]
  congr 1

theorem unpack_pack_finite {s : Sign} {m : ℕ} {e : ℤ} {pos : 0 < m} (canonical : Canonical m e) :
    (pack (.finite s m e pos)).unpack = if e ≤ 971 then .finite s m e pos else .infinity s := by
  rw [unpack_pack, UnpackedFloat.pack]
  dsimp only
  have bias : e + (Format.binary64.exponentBias : ℤ) + (52 : ℕ) = e + 1075 := by
    rw [show (Format.binary64.exponentBias : ℤ) = 1023 from rfl]
    omega
  have width : Format.binary64.mantissaBits = 53 := rfl
  have digits : m.log2 < 53 := (Nat.log2_lt pos.ne').2 canonical.lt
  have lower := canonical.minExponent_le
  rw [bias, width]
  split
  next large =>
    have large : 2048 ≤ (e + 1075).toNat + 1 := large
    have overflows : ¬ e ≤ 971 := by omega
    rw [if_neg overflows, packedInfinity, unpack_packComponents]
    rfl
  next small =>
    have small : ¬ 2048 ≤ (e + 1075).toNat + 1 := small
    have fits : e ≤ 971 := by omega
    rw [if_pos fits]
    -- Whether all 53 digits are there decides whether the leading one is left out of the encoding.
    split
    next full =>
      have least : 2 ^ 52 ≤ m := (Nat.le_log2 pos.ne').1 (by omega)
      rw [unpack_normal (by omega) (by omega) least canonical.lt]
      congr 1
      omega
    next short =>
      have lt : m < 2 ^ 52 := (Nat.log2_lt pos.ne').1 (by omega)
      have least : e = -1074 := by
        by_contra ne
        have := canonical.le_of_ne ne
        omega
      rw [unpack_subnormal pos lt]
      congr 1
      exact least.symm

theorem canonical_of_unpack {x : Float.Model} {s : Sign} {m : ℕ} {e : ℤ} {pos : 0 < m}
    (parts : x.unpack = .finite s m e pos) : Canonical m e ∧ e ≤ 971 := by
  have bias : (Format.binary64.exponentBias : ℤ) + (52 : ℕ) = 1075 := rfl
  rw [Float.Model.unpack, UnpackedFloat.unpack] at parts
  simp only [bias] at parts
  generalize @unpackExponent .binary64 x.toBits.toBitVec = exponent at parts
  have short : (@unpackMantissa .binary64 x.toBits.toBitVec).toNat < 2 ^ 52 := BitVec.isLt _
  -- The greatest exponent is kept for what is not finite, and zero for the least place.
  split at parts
  next => split at parts <;> cases parts
  next notAll =>
    have bounded : exponent.toNat < 2047 := by
      have lt : exponent.toNat < 2048 := exponent.isLt
      have ne : exponent.toNat ≠ 2047 := BitVec.toNat_ne.1 notAll
      omega
    split at parts
    next least =>
      split at parts
      · cases parts
      · cases parts
        rw [least]
        exact ⟨⟨by omega, by simp, by simp⟩, by simp⟩
    next notZero =>
      have positive : 0 < exponent.toNat := by
        have ne : exponent.toNat ≠ 0 := BitVec.toNat_ne.1 notZero
        omega
      cases parts
      rw [toNat_append_implicit]
      exact ⟨⟨by omega, by omega, by omega⟩, by omega⟩

/-! ## Packing what was taken apart -/

theorem packComponents_unpack (bits : BitVec 64) :
    packComponents .binary64 (Sign.ofBitVec (@unpackSign .binary64 bits))
      (@unpackExponent .binary64 bits) (@unpackMantissa .binary64 bits) = bits := by
  have sign (b : BitVec 1) : (Sign.ofBitVec b).toBitVec = b := by
    revert b
    decide
  rw [packComponents, sign]
  ext i hi
  simp [unpackSign, unpackExponent, unpackMantissa]
  grind

theorem pack_normal {s : Sign} {exponent : BitVec 11} {mantissa : BitVec 52}
    (notAll : exponent ≠ -1#_) (pos : 0 < 2 ^ 52 + mantissa.toNat) :
    UnpackedFloat.pack .binary64
      (.finite s (2 ^ 52 + mantissa.toNat) (exponent.toNat - 1075) pos) =
      packComponents .binary64 s exponent mantissa := by
  have bias (k : ℤ) : k - 1075 + (Format.binary64.exponentBias : ℤ) + (52 : ℕ) = k := by
    rw [show (Format.binary64.exponentBias : ℤ) = 1023 from rfl]
    omega
  have width : 52 + 1 = Format.binary64.mantissaBits := rfl
  have lt := mantissa.isLt
  have digits : (2 ^ 52 + mantissa.toNat).log2 = 52 :=
    (Nat.log2_eq_iff pos.ne').2 ⟨by omega, by omega⟩
  have small : ¬ 2048 ≤ exponent.toNat + 1 := by
    have ne : exponent.toNat ≠ 2047 := BitVec.toNat_ne.1 notAll
    have := exponent.isLt
    omega
  rw [UnpackedFloat.pack]
  simp only [bias, digits, Int.toNat_natCast]
  rw [if_neg small, if_pos width, BitVec.ofNat_toNat]
  congr 1
  refine BitVec.eq_of_toNat_eq ?_
  rw [BitVec.toNat_ofNat]
  omega

theorem pack_subnormal {s : Sign} {mantissa : BitVec 52} (pos : 0 < mantissa.toNat) :
    UnpackedFloat.pack .binary64 (.finite s mantissa.toNat (-1074) pos) =
      packComponents .binary64 s 0#11 mantissa := by
  have digits : ¬ mantissa.toNat.log2 + 1 = Format.binary64.mantissaBits := by
    have width : Format.binary64.mantissaBits = 53 := rfl
    have := (Nat.log2_lt pos.ne').2 mantissa.isLt
    omega
  rw [UnpackedFloat.pack]
  dsimp only
  rw [if_neg (by decide), if_neg digits, BitVec.ofNat_toNat, BitVec.setWidth_eq]

theorem pack_unpack_packComponents {s : Sign} {exponent : BitVec 11} {mantissa : BitVec 52}
    (number : UnpackedFloat.unpack .binary64 (packComponents .binary64 s exponent mantissa) ≠
      .notANumber) :
    UnpackedFloat.pack .binary64
      (UnpackedFloat.unpack .binary64 (packComponents .binary64 s exponent mantissa)) =
      packComponents .binary64 s exponent mantissa := by
  rw [unpack_packComponents] at number ⊢
  split
  next all =>
    split
    next none => rw [all, none]; rfl
    next some => rw [if_pos all, if_neg some] at number; exact absurd rfl number
  next notAll =>
    split
    next zero =>
      split
      next none => rw [zero, none]; rfl
      next => rw [zero, pack_subnormal]
    next => rw [pack_normal notAll]

/-- A number is told by its sign, its exponent and its mantissa. -/
theorem pack_unpack {m : Float.Model} (number : m.unpack ≠ .notANumber) : pack m.unpack = m := by
  obtain ⟨word, valid⟩ := m
  have whole := packComponents_unpack word.toBitVec
  have same : UnpackedFloat.pack .binary64 (UnpackedFloat.unpack .binary64 word.toBitVec) =
      word.toBitVec := by
    change UnpackedFloat.unpack .binary64 word.toBitVec ≠ .notANumber at number
    rw [← whole] at number ⊢
    exact pack_unpack_packComponents number
  rw [Float.Model.mk.injEq]
  exact UInt64.toBitVec_inj.1 same

theorem eq_of_unpack_eq {x y : Float} (number : x.isNaN = false)
    (same : x.toModel.unpack = y.toModel.unpack) : x = y := by
  have some : x.toModel.unpack ≠ .notANumber := by
    intro none
    change x.toModel.unpack.isNaN = false at number
    rw [none] at number
    cases number
  have packed := pack_unpack some
  rw [same, pack_unpack (same ▸ some)] at packed
  cases x
  cases y
  exact congrArg Float.ofModel packed.symm

/-! ## Rational numbers -/

/-- A number with a sign. -/
def signed : Sign → ℚ → ℚ
  | .positive, x => x
  | .negative, x => -x

/-- The rational number that a finite float stands for. -/
def rational : UnpackedFloat → ℚ
  | .finite s m e _ => signed s (m * 2 ^ e)
  | _ => 0

/-- Numbers as rounding makes them. -/
def IsRounded : UnpackedFloat → Prop
  | .finite _ m e _ => Canonical m e
  | u => u.isFinite = true

/-- A greater exponent makes a greater number, whatever the mantissas. -/
theorem lt_of_exponent_lt {m n : ℕ} {e f : ℤ} (first : Canonical m e) (second : Canonical n f)
    (lt : e < f) : (m * 2 ^ e : ℚ) < n * 2 ^ f := by
  have below : (m : ℚ) < 2 ^ 53 := by exact_mod_cast first.lt
  have above : (2 ^ 52 : ℚ) ≤ n := by
    have := second.le_of_ne (by have := first.minExponent_le; omega)
    exact_mod_cast this
  calc (m * 2 ^ e : ℚ) < 2 ^ 53 * 2 ^ e := by gcongr
    _ = 2 ^ 52 * 2 ^ (e + 1) := by rw [zpow_add_one₀ two_ne_zero]; ring
    _ ≤ n * 2 ^ f := by
      gcongr
      · norm_num
      · omega

theorem compare_magnitude {m n : ℕ} {e f : ℤ} (first : Canonical m e) (second : Canonical n f) :
    (compare e f).then (compare m n) = compare (m * 2 ^ e : ℚ) (n * 2 ^ f) := by
  obtain lt | rfl | gt := lt_trichotomy e f
  · rw [compare_lt_iff_lt.2 lt, compare_lt_iff_lt.2 (lt_of_exponent_lt first second lt)]
    rfl
  · have unit : (0 : ℚ) < 2 ^ e := by positivity
    rw [compare_eq_iff_eq.2 rfl]
    obtain lt | rfl | gt := lt_trichotomy m n
    · have scaled : (m * 2 ^ e : ℚ) < n * 2 ^ e := by gcongr
      rw [compare_lt_iff_lt.2 lt, compare_lt_iff_lt.2 scaled]
      rfl
    · rw [compare_eq_iff_eq.2 rfl, compare_eq_iff_eq.2 rfl]
      rfl
    · have scaled : (n * 2 ^ e : ℚ) < m * 2 ^ e := by gcongr
      rw [compare_gt_iff_gt.2 gt, compare_gt_iff_gt.2 scaled]
      rfl
  · rw [compare_gt_iff_gt.2 gt, compare_gt_iff_gt.2 (lt_of_exponent_lt second first gt)]
    rfl

theorem Canonical.eq_of_magnitude_eq {m n : ℕ} {e f : ℤ} (first : Canonical m e)
    (second : Canonical n f) (same : (m * 2 ^ e : ℚ) = n * 2 ^ f) : m = n ∧ e = f := by
  have order := compare_magnitude first second
  rw [compare_eq_iff_eq.2 same, Ordering.then_eq_eq, compare_eq_iff_eq, compare_eq_iff_eq] at order
  exact order.symm

theorem magnitude_pos {m : ℕ} {e : ℤ} (pos : 0 < m) : (0 : ℚ) < m * 2 ^ e := by
  have : (0 : ℚ) < m := by exact_mod_cast pos
  positivity

@[simp] theorem rational_zero (s : Sign) : rational (.zero s) = 0 := rfl

@[simp] theorem rational_positive {m : ℕ} {e : ℤ} {pos : 0 < m} :
    rational (.finite .positive m e pos) = m * 2 ^ e := rfl

@[simp] theorem rational_negative {m : ℕ} {e : ℤ} {pos : 0 < m} :
    rational (.finite .negative m e pos) = -(m * 2 ^ e) := rfl

theorem swap_compare_neg (x y : ℚ) : compare (-x) (-y) = (compare x y).swap := by
  obtain lt | rfl | gt := lt_trichotomy x y
  · rw [compare_lt_iff_lt.2 lt, compare_gt_iff_gt.2 (neg_lt_neg lt)]
    rfl
  · rw [compare_eq_iff_eq.2 rfl, compare_eq_iff_eq.2 rfl]
    rfl
  · rw [compare_gt_iff_gt.2 gt, compare_lt_iff_lt.2 (neg_lt_neg gt)]
    rfl

/-- Floats are compared as the numbers that they stand for. -/
theorem compare_eq {u v : UnpackedFloat} (first : IsRounded u) (second : IsRounded v) :
    u.compare v = some (compare (rational u) (rational v)) := by
  match u, v with
  | .zero _, .zero _ => simp [UnpackedFloat.compare]
  | .zero _, .finite .positive n f pos =>
    rw [rational_zero, rational_positive, compare_lt_iff_lt.2 (magnitude_pos pos)]
    rfl
  | .zero _, .finite .negative n f pos =>
    rw [rational_zero, rational_negative, compare_gt_iff_gt.2 (neg_lt_zero.2 (magnitude_pos pos))]
    rfl
  | .finite .positive m e pos, .zero _ =>
    rw [rational_zero, rational_positive, compare_gt_iff_gt.2 (magnitude_pos pos)]
    rfl
  | .finite .negative m e pos, .zero _ =>
    rw [rational_zero, rational_negative, compare_lt_iff_lt.2 (neg_lt_zero.2 (magnitude_pos pos))]
    rfl
  | .finite .positive m e pos, .finite .positive n f pos' =>
    rw [rational_positive, rational_positive, ← compare_magnitude first second]
    rfl
  | .finite .positive m e pos, .finite .negative n f pos' =>
    have gt : -(n * 2 ^ f) < (m * 2 ^ e : ℚ) :=
      (neg_lt_zero.2 (magnitude_pos pos')).trans (magnitude_pos pos)
    rw [rational_positive, rational_negative, compare_gt_iff_gt.2 gt]
    rfl
  | .finite .negative m e pos, .finite .positive n f pos' =>
    have lt : -(m * 2 ^ e) < (n * 2 ^ f : ℚ) :=
      (neg_lt_zero.2 (magnitude_pos pos)).trans (magnitude_pos pos')
    rw [rational_positive, rational_negative, compare_lt_iff_lt.2 lt]
    rfl
  | .finite .negative m e pos, .finite .negative n f pos' =>
    rw [rational_negative, rational_negative, swap_compare_neg, ← compare_magnitude first second]
    rfl

/-- Whatever is a number can be compared, and compared the other way round. -/
theorem exists_compare {u v : UnpackedFloat} (first : u.isNaN = false) (second : v.isNaN = false) :
    ∃ order, u.compare v = some order ∧ v.compare u = some order.swap := by
  cases u with
  | notANumber => cases first
  | zero s =>
    cases v with
    | notANumber => cases second
    | zero => exact ⟨_, rfl, rfl⟩
    | infinity t | finite t => cases t <;> exact ⟨_, rfl, rfl⟩
  | infinity s =>
    cases v with
    | notANumber => cases second
    | zero | finite => cases s <;> exact ⟨_, rfl, rfl⟩
    | infinity t => cases s <;> cases t <;> exact ⟨_, rfl, rfl⟩
  | finite s m e pos =>
    cases v with
    | notANumber => cases second
    | zero => cases s <;> exact ⟨_, rfl, rfl⟩
    | infinity t => cases t <;> exact ⟨_, rfl, rfl⟩
    | finite t n f pos' =>
      have back : (compare f e).then (compare n m) = ((compare e f).then (compare m n)).swap := by
        rw [Ordering.swap_then, ← Std.OrientedOrd.eq_swap, ← Std.OrientedOrd.eq_swap]
      cases s <;> cases t
      · exact ⟨_, rfl, congrArg (fun order : Ordering => some order.swap) back⟩
      · exact ⟨_, rfl, rfl⟩
      · exact ⟨_, rfl, rfl⟩
      · exact ⟨_, rfl, congrArg some back⟩

/-! ## Floats -/

/-- The number that a finite float stands for. -/
def value (x : Float) : ℚ := rational x.toModel.unpack

theorem isRounded_of_isFinite {x : Float} (finite : x.isFinite = true) :
    IsRounded x.toModel.unpack := by
  obtain ⟨s, parts⟩ | ⟨s, m, e, pos, parts⟩ := unpack_of_isFinite finite
  · rw [parts]
    rfl
  · rw [parts]
    exact (canonical_of_unpack parts).1

variable {x y : Float}

theorem lt_iff_compare : x < y ↔ x.toModel.unpack.compare y.toModel.unpack = some .lt :=
  decide_eq_true_iff.trans beq_iff_eq

theorem beq_iff_compare :
    (x == y) = true ↔ x.toModel.unpack.compare y.toModel.unpack = some .eq := by
  change (x.toModel.unpack.compare y.toModel.unpack == some .eq) = true ↔ _
  exact beq_iff_eq

theorem le_iff_compare :
    x ≤ y ↔ (x.toModel.unpack.compare y.toModel.unpack).any (·.isLE) = true :=
  decide_eq_true_iff

theorem not_le_iff_lt (first : x.isNaN = false) (second : y.isNaN = false) : ¬ x ≤ y ↔ y < x := by
  obtain ⟨order, forth, back⟩ := exists_compare first second
  rw [le_iff_compare, lt_iff_compare, forth, back]
  cases order <;> simp

theorem lt_or_gt_of_not_beq (first : x.isNaN = false) (second : y.isNaN = false)
    (distinct : (x == y) = false) : x < y ∨ y < x := by
  obtain ⟨order, forth, back⟩ := exists_compare first second
  rw [← Bool.not_eq_true, beq_iff_compare, forth] at distinct
  rw [lt_iff_compare, lt_iff_compare, forth, back]
  cases order <;> simp at distinct ⊢

theorem not_lt_of_gt (first : x.isNaN = false) (second : y.isNaN = false) (gt : y < x) :
    ¬ x < y := by
  obtain ⟨order, forth, back⟩ := exists_compare first second
  rw [lt_iff_compare, back] at gt
  rw [lt_iff_compare, forth]
  cases order <;> simp at gt ⊢

theorem lt_iff (first : x.isFinite = true) (second : y.isFinite = true) :
    x < y ↔ value x < value y := by
  rw [lt_iff_compare, compare_eq (isRounded_of_isFinite first) (isRounded_of_isFinite second),
    Option.some_inj, compare_lt_iff_lt]
  rfl

theorem beq_iff (first : x.isFinite = true) (second : y.isFinite = true) :
    (x == y) = true ↔ value x = value y := by
  rw [beq_iff_compare, compare_eq (isRounded_of_isFinite first) (isRounded_of_isFinite second),
    Option.some_inj, compare_eq_iff_eq]
  rfl

theorem le_iff (first : x.isFinite = true) (second : y.isFinite = true) :
    x ≤ y ↔ value x ≤ value y := by
  rw [le_iff_compare, compare_eq (isRounded_of_isFinite first) (isRounded_of_isFinite second),
    Option.any_some, ← compare_le_iff_le, Ordering.isLE_iff_ne_gt]
  rfl

/-- What lies below a finite float lies below all greater ones. -/
theorem lt_trans_le {z : Float} (second : y.isFinite = true) (third : z.isFinite = true)
    (lt : x < y) (le : y ≤ z) : x < z := by
  cases first : x.isFinite with
  | true =>
    refine (lt_iff first third).2 ?_
    exact ((lt_iff first second).1 lt).trans_le ((le_iff second third).1 le)
  | false =>
    rw [lt_iff_compare] at lt ⊢
    obtain parts | ⟨s, parts⟩ := unpack_of_not_isFinite first
    · rw [parts] at lt
      cases lt
    · rw [parts] at lt ⊢
      cases s with
      | positive =>
        obtain ⟨s, other⟩ | ⟨s, m, e, pos, other⟩ := unpack_of_isFinite second
        all_goals
          rw [other] at lt
          cases lt
      | negative =>
        obtain ⟨s, other⟩ | ⟨s, m, e, pos, other⟩ := unpack_of_isFinite third
        all_goals
          rw [other]
          rfl

end Stepwise.Binary64
