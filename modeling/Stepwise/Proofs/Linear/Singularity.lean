import Mathlib.Data.Rat.Lemmas
import Stepwise.Proofs.Fraction.Threshold
import Stepwise.Proofs.Linear.DirectMethods
import Stepwise.Proofs.Linear.Engine

/-!
# What Cramer's rule takes for singular

A determinant counts as zero if its float lies below the tolerance. Far from the tolerance this goes
by the exact determinant, unless its numerator or its denominator is out of the range of floats.

- `isSingular_iff_of_small`, `isSingular_iff_of_great`: the test of a determinant
- `Engine.Sound.solve_singular`: what a solution makes of it
- `singular_iff`: the same, whatever the solver has been through
-/

namespace Stepwise.Linear

open Matrix
open Binary64 (InRange)

variable {n : ℕ}

/-! ## The test -/

section

variable {setup : Setup} {det : Fraction}

theorem inRange_num_abs : InRange det.abs.num ↔ InRange det.num := by
  rw [InRange, InRange, Fraction.abs, Int.cast_natCast, Nat.abs_cast, Nat.cast_natAbs, Int.cast_abs]

theorem isSingular_iff_of_small (finite : setup.tolerance.isFinite = true)
    (small : |det.value| < Binary64.value setup.tolerance / 2) :
    isSingular setup det = true ↔ InRange det.num := by
  rw [← det.value_abs] at small
  rw [isSingular, decide_eq_true_iff, ← inRange_num_abs]
  exact Fraction.toFloat_lt_iff_of_small finite (det.value_abs ▸ abs_nonneg _) small

theorem isSingular_iff_of_great (finite : setup.tolerance.isFinite = true)
    (pos : 0 < Binary64.value setup.tolerance)
    (great : 2 * Binary64.value setup.tolerance < |det.value|) :
    isSingular setup det = true ↔ InRange det.num ∧ ¬ InRange det.den := by
  rw [← det.value_abs] at great
  rw [isSingular, decide_eq_true_iff, ← inRange_num_abs]
  exact Fraction.toFloat_lt_iff_of_great finite pos great

end

/-! ## Solutions -/

section

variable {A : Matrix (Fin n) (Fin n) ℚ} {v : Fin n → ℚ} {a : Matrix (Fin n) (Fin n) Float}
  {b : Fin n → Float}

/-- Cramer's rule fails for a singular system exactly if the determinant does not pass the test. -/
theorem cramer_singular_iff (image : ExactImage a b A v) (enough : 2 ≤ n) (setup : Setup) :
    ∃ det : Fraction, det.value = A.det ∧
      let r := Method.cramer.report setup (listed a) (List.ofFn b)
      (isSingular setup det = true → r.error? = some (.singular det)) ∧
      ∀ d, r.error? = some (.singular d) →
        isSingular setup det = true ∧ r.outcome = .failed ∧ r.solution = [] ∧ d = det := by
  obtain ⟨det, value, refused, undivided, solved⟩ := cramer_result image enough setup
  dsimp only at refused undivided solved ⊢
  refine ⟨det, value, fun below => ?_, fun d failed => ?_⟩
  · rw [Report.error?, refused below]
  · rw [Report.error?] at failed
    cases below : isSingular setup det with
    | true =>
      rw [refused below] at failed
      rw [Report.outcome, Report.solution, refused below]
      cases failed
      exact ⟨rfl, rfl, rfl, rfl⟩
    | false =>
      rcases eq_or_ne A.det 0 with zero | regular
      · rw [undivided below zero] at failed
        cases failed
      · obtain ⟨found, result, -⟩ := solved below regular
        rw [result] at failed
        cases failed

/-- A tolerance that comes with a system replaces the one before. -/
theorem Engine.tolerance_opened {method : Method} (e : Engine method) (tolerance? : Option Float) :
    (e.opened tolerance?).setup.tolerance = tolerance?.getD e.settings.tolerance := by
  cases tolerance? <;> rfl

theorem Engine.Sound.solve_singular {e : Engine .cramer} (sound : e.Sound)
    (image : ExactImage a b A v) (enough : 2 ≤ n) {tolerance? : Option Float}
    (accepted : tolerance?.all isTolerance = true) :
    let r := e.solve (listed a) (List.ofFn b) tolerance?
    let t := Binary64.value (tolerance?.getD e.settings.tolerance)
    0 < t ∧
    (∀ d, r.2.error? = some (.singular d) →
      r.1 = .failed ∧ r.2.solution = [] ∧ d.value = A.det) ∧
    (|A.det| < t / 2 → ((∃ d, r.2.error? = some (.singular d)) ↔ InRange A.det.num)) ∧
    (2 * t < |A.det| →
      ((∃ d, r.2.error? = some (.singular d)) ↔ InRange A.det.num ∧ ¬ InRange A.det.den)) := by
  have fresh : (e.opened tolerance?).Sound := sound.opened accepted
  have finite : (e.opened tolerance?).setup.tolerance.isFinite = true :=
    fresh.settings.tolerance_isFinite
  have pos := (Binary64.zero_lt_iff finite).1 fresh.settings.tolerance_pos
  obtain ⟨det, value, refused, only⟩ :=
    cramer_singular_iff image enough (e.opened tolerance?).setup
  have num : det.num = A.det.num := by rw [← value, det.num_value]
  have den : det.den = A.det.den := by rw [← value, det.den_value]
  rw [solve_of_all_accepted accepted]
  have below_iff : (∃ d, (Method.cramer.report (e.opened tolerance?).setup (listed a)
      (List.ofFn b)).error? = some (.singular d)) ↔
        isSingular (e.opened tolerance?).setup det = true :=
    ⟨fun ⟨d, failed⟩ => (only d failed).1, fun below => ⟨det, refused below⟩⟩
  rw [← e.tolerance_opened]
  refine ⟨pos, fun d failed => ?_, fun small => below_iff.trans ?_, fun great => below_iff.trans ?_⟩
  · obtain ⟨-, outcome, none, rfl⟩ := only d failed
    exact ⟨outcome, none, value⟩
  · rw [← num]
    exact isSingular_iff_of_small finite (value ▸ small)
  · rw [← num, ← den]
    exact isSingular_iff_of_great finite pos (value ▸ great)

/-- Whatever a solver has been through, Cramer's rule takes a determinant below half of the
tolerance for zero, unless its numerator is out of the range of floats, and one above the double of
the tolerance just if its denominator is and its numerator is not. -/
theorem singular_iff (image : ExactImage a b A v) (enough : 2 ≤ n) (choices : List Settings.Call)
    (calls : List Engine.Call) {tolerance? : Option Float}
    (accepted : tolerance?.all isTolerance = true) :
    let e : Engine .cramer := .after (.make (({} : Settings).after choices)) calls
    let r := e.solve (listed a) (List.ofFn b) tolerance?
    let t := Binary64.value (tolerance?.getD e.settings.tolerance)
    0 < t ∧
    (∀ d, r.2.error? = some (.singular d) →
      r.1 = .failed ∧ r.2.solution = [] ∧ d.value = A.det) ∧
    (|A.det| < t / 2 → ((∃ d, r.2.error? = some (.singular d)) ↔ InRange A.det.num)) ∧
    (2 * t < |A.det| →
      ((∃ d, r.2.error? = some (.singular d)) ↔ InRange A.det.num ∧ ¬ InRange A.det.den)) :=
  (Engine.sound_after (Settings.sound_default.after choices) calls).solve_singular image enough
    accepted

theorem value_default : Binary64.value defaultTolerance = 7378697629483821 * 2 ^ (-66 : ℤ) := by
  have parts : (1e-4 : Float).toModel.unpack =
      .finite .positive 7378697629483821 (-66) (by decide) := by
    rfl
  rw [defaultTolerance, Binary64.value, parts, Binary64.rational_positive]
  norm_num

theorem value_sixteen : Binary64.value 16.0 = 16 := by
  have parts : (16.0 : Float).toModel.unpack =
      .finite .positive (2 ^ 52) (-48) (by decide) := by
    rfl
  rw [Binary64.value, parts, Binary64.rational_positive]
  norm_num

theorem singular_iff_two_by_two :
    let e : Engine .cramer := .after (.make (({} : Settings).after [])) []
    let r := e.solve (listed !![2.0, 1.0; 1.0, 3.0]) (List.ofFn ![3.0, 5.0]) none
    let r' := e.solve (listed !![2.0, 1.0; 1.0, 3.0]) (List.ofFn ![3.0, 5.0]) (some 16.0)
    (¬ ∃ d, r.2.error? = some (.singular d)) ∧ r'.1 = .failed ∧
      ∃ d, r'.2.error? = some (.singular d) ∧ d.value = 5 := by
  dsimp only
  have accepted : (some 16.0).all isTolerance = true := by decide +kernel
  have num : InRange ((5 : ℚ).num) := Binary64.inRange_intCast (k := 5) (by norm_num)
  have den : InRange ((5 : ℚ).den) := Binary64.inRange_intCast (k := 1) (by norm_num)
  obtain ⟨-, -, -, great⟩ := singular_iff exactImage_two_by_two le_rfl [] []
    (rfl : (none : Option Float).all isTolerance = true)
  obtain ⟨-, only, small, -⟩ := singular_iff exactImage_two_by_two le_rfl [] [] accepted
  rw [det_two_by_two] at great only small
  change 2 * Binary64.value defaultTolerance < |5| → _ at great
  change |5| < Binary64.value 16.0 / 2 → _ at small
  obtain ⟨d, failed⟩ := (small (by rw [value_sixteen]; norm_num)).2 num
  obtain ⟨outcome, -, value⟩ := only d failed
  have far : 2 * Binary64.value defaultTolerance < |5| := by
    rw [value_default]
    norm_num
  exact ⟨fun refused => ((great far).1 refused).2 den, outcome, d, failed, value⟩

/-! ### Long parts -/

/-- The same decimal all along the diagonal. -/
def decimalDiagonal (n : ℕ) : Matrix (Fin n) (Fin n) Float :=
  .of fun i j => if i = j then 0.92001 else 0.0

theorem exactImage_decimalDiagonal (n : ℕ) :
    ExactImage (decimalDiagonal n) (fun _ => 0.0) (diagonal fun _ => 92001 / 100000) 0 := by
  have zero : Converts 0.0 0 := by
    have cut : (Binary64.ofFloat (0.0 * Fraction.scale.toFloat)).truncate? = some 0 := by
      decide +kernel
    refine ⟨0, ?_, Fraction.value_zero⟩
    rw [Fraction.ofFloat, cut]
    rfl
  have decimal : Converts 0.92001 (92001 / 100000) := by
    refine ⟨.reduce 92001 Fraction.scale (by decide), rfl, ?_⟩
    rw [Fraction.value_reduce, Fraction.scale]
    norm_num
  refine ⟨fun i j => ?_, fun _ => zero⟩
  rw [decimalDiagonal, of_apply, diagonal_apply]
  split
  · exact decimal
  · exact zero

/-- The parts of the determinant have no common factor, so they grow with the size. -/
theorem det_decimalDiagonal (n : ℕ) :
    let d := (diagonal fun _ : Fin n => (92001 / 100000 : ℚ)).det
    d = (92001 / 100000) ^ n ∧ d.num = 92001 ^ n ∧ d.den = 100000 ^ n := by
  intro d
  have power : d = (92001 / 100000) ^ n := by
    refine det_diagonal.trans ?_
    rw [Finset.prod_const, Finset.card_univ, Fintype.card_fin]
  have parts : (92001 / 100000 : ℚ).num = 92001 ∧ (92001 / 100000 : ℚ).den = 100000 := by
    decide +kernel
  rw [power, Rat.num_pow, Rat.den_pow, parts.1, parts.2]
  exact ⟨rfl, rfl, rfl⟩

theorem not_inRange_hundredThousand_pow : ¬ InRange (100000 ^ 62 : ℕ) := by
  refine Binary64.not_inRange_of_two_pow_le ?_
  rw [Nat.abs_cast, Nat.cast_pow, Nat.cast_ofNat]
  calc (2 : ℚ) ^ 1024 ≤ 2 ^ 1025 := pow_le_pow_right₀ one_le_two (by norm_num)
    _ = (2 ^ 205) ^ 5 := pow_mul _ 205 5
    _ ≤ (10 ^ 62) ^ 5 := pow_le_pow_left₀ (by norm_num) (by norm_num) _
    _ = (10 ^ 5) ^ 62 := by rw [← pow_mul, ← pow_mul]
    _ = 100000 ^ 62 := by norm_num

theorem inRange_decimal_pow : InRange (92001 ^ 62 : ℤ) := by
  refine Binary64.inRange_of_le_two_pow ?_
  rw [Int.cast_pow, Int.cast_ofNat, abs_of_pos (by positivity)]
  calc (92001 : ℚ) ^ 62 = (92001 ^ 2) ^ 31 := pow_mul _ 2 31
    _ ≤ (2 ^ 33) ^ 31 := pow_le_pow_left₀ (by norm_num) (by norm_num) _
    _ = 2 ^ 1023 := (pow_mul _ 33 31).symm

theorem not_inRange_decimal_pow : ¬ InRange (92001 ^ 63 : ℤ) := by
  refine Binary64.not_inRange_of_two_pow_le ?_
  rw [Int.cast_pow, Int.cast_ofNat, abs_of_pos (by positivity)]
  calc (2 : ℚ) ^ 1024 ≤ 2 ^ 1029 := pow_le_pow_right₀ one_le_two (by norm_num)
    _ = (2 ^ 49) ^ 21 := pow_mul _ 49 21
    _ ≤ (92001 ^ 3) ^ 21 := pow_le_pow_left₀ (by norm_num) (by norm_num) _
    _ = 92001 ^ 63 := (pow_mul _ 3 21).symm

/-- With 62 rows the denominator has become an infinity and the determinant is taken for zero, though
it is fifty times the tolerance; with 63 rows the numerator has as well, and nothing is below a
tolerance any more. -/
theorem singular_of_long_parts :
    let e : Engine .cramer := .make {}
    let r := e.solve (listed (decimalDiagonal 62)) (List.ofFn fun _ : Fin 62 => 0.0) none
    let r' := e.solve (listed (decimalDiagonal 63)) (List.ofFn fun _ : Fin 63 => 0.0) (some 16.0)
    let A (n : ℕ) : Matrix (Fin n) (Fin n) ℚ := diagonal fun _ => 92001 / 100000
    (∀ n, ExactImage (decimalDiagonal n) (fun _ => 0.0) (A n) 0) ∧
    (50 * Binary64.value e.settings.tolerance < |(A 62).det| ∧
      ∃ d, r.2.error? = some (.singular d)) ∧
    |(A 63).det| < Binary64.value 16.0 / 2 ∧ ¬ ∃ d, r'.2.error? = some (.singular d) := by
  have sound : (Engine.make {} : Engine .cramer).Sound :=
    Engine.sound_after Settings.sound_default []
  obtain ⟨det, num, den⟩ := det_decimalDiagonal 62
  obtain ⟨det', num', -⟩ := det_decimalDiagonal 63
  obtain ⟨pos, -, -, refused⟩ := sound.solve_singular (exactImage_decimalDiagonal 62)
    (by norm_num) (rfl : (none : Option Float).all isTolerance = true)
  obtain ⟨-, -, passed, -⟩ := sound.solve_singular (exactImage_decimalDiagonal 63)
    (by norm_num) (by decide +kernel : (some 16.0).all isTolerance = true)
  rw [num, den, Option.getD_none] at refused
  rw [num', Option.getD_some] at passed
  rw [Option.getD_none] at pos
  have great : 50 * Binary64.value (Engine.make {} : Engine .cramer).settings.tolerance <
      |(diagonal fun _ : Fin 62 => (92001 / 100000 : ℚ)).det| := by
    change 50 * Binary64.value defaultTolerance < _
    rw [value_default, det]
    norm_num
  have small : |(diagonal fun _ : Fin 63 => (92001 / 100000 : ℚ)).det| <
      Binary64.value 16.0 / 2 := by
    rw [value_sixteen, det']
    norm_num
  dsimp only
  refine ⟨exactImage_decimalDiagonal, ⟨great, ?_⟩, small, ?_⟩
  · exact (refused (by linarith)).2 ⟨inRange_decimal_pow, not_inRange_hundredThousand_pow⟩
  · exact fun failed => not_inRange_decimal_pow ((passed small).1 failed)

end

end Stepwise.Linear
