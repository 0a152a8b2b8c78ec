import Stepwise.Proofs.Fraction.Conversion
import Stepwise.Proofs.Fraction.Text

/-!
# Computations with fractions

A computation is a sequence of operations, each on results of the ones before it. It can be carried
out on fractions and on rational numbers.

- `Operation`, `Computation`: what is computed
- `Operation.perform`: an operation on fractions
- `Operation.exact`: the same operation on rational numbers
- `faithful`: fractions stand for the exact results, in the one form that each of these has
-/

namespace Stepwise.Fraction

/-- The whole part of a rational number. -/
def wholePart (q : ℚ) : ℤ := if 0 ≤ q then ⌊q⌋ else ⌈q⌉

instance : DecidablePred Fits := fun x => inferInstanceAs (Decidable (|Binary64.value x| < limit))

/-- An operation, its operands of any kind. -/
inductive Operation (α : Type) where
  | make (num den : ℤ)
  | ofInt (n : ℤ)
  | ofFloat (x : Float)
  | add (a b : α)
  | sub (a b : α)
  | mul (a b : α)
  | divide (a b : α)
  | neg (a : α)
  | abs (a : α)
  | max (a b : α)
  | min (a b : α)

namespace Operation

variable {α β γ : Type}

/-- The operation on the operands that `find` gives, unless it fails on one of them. -/
def lookUp (find : α → Except Error β) : Operation α → Except Error (Operation β)
  | .make num den => .ok (.make num den)
  | .ofInt n => .ok (.ofInt n)
  | .ofFloat x => .ok (.ofFloat x)
  | .add a b => return .add (← find a) (← find b)
  | .sub a b => return .sub (← find a) (← find b)
  | .mul a b => return .mul (← find a) (← find b)
  | .divide a b => return .divide (← find a) (← find b)
  | .neg a => return .neg (← find a)
  | .abs a => return .abs (← find a)
  | .max a b => return .max (← find a) (← find b)
  | .min a b => return .min (← find a) (← find b)

/-- The operation on other operands. -/
def map (f : α → β) : Operation α → Operation β
  | .make num den => .make num den
  | .ofInt n => .ofInt n
  | .ofFloat x => .ofFloat x
  | .add a b => .add (f a) (f b)
  | .sub a b => .sub (f a) (f b)
  | .mul a b => .mul (f a) (f b)
  | .divide a b => .divide (f a) (f b)
  | .neg a => .neg (f a)
  | .abs a => .abs (f a)
  | .max a b => .max (f a) (f b)
  | .min a b => .min (f a) (f b)

/-- The operation on fractions. -/
def perform : Operation Fraction → Except Error Fraction
  | .make num den => Fraction.make num den
  | .ofInt n => .ok (Fraction.ofInt n)
  | .ofFloat x => Fraction.ofFloat x
  | .add a b => .ok (a + b)
  | .sub a b => .ok (a - b)
  | .mul a b => .ok (a * b)
  | .divide a b => a.divide b
  | .neg a => .ok (-a)
  | .abs a => .ok a.abs
  | .max a b => .ok (Max.max a b)
  | .min a b => .ok (Min.min a b)

/-- The operation on rational numbers, where it has a result. The product of a float and the scale
is a float as well, and the float may be too great for it. -/
def exact : Operation ℚ → Except Error ℚ
  | .make num den => if den = 0 then .error .zeroDenominator else .ok (num / den)
  | .ofInt n => .ok n
  | .ofFloat x =>
    if x.isFinite ∧ Fits x then .ok (wholePart (Binary64.value (x * scale.toFloat)) / scale)
    else .error (.notFinite x)
  | .add a b => .ok (a + b)
  | .sub a b => .ok (a - b)
  | .mul a b => .ok (a * b)
  | .divide a b => if b = 0 then .error .divideByZero else .ok (a / b)
  | .neg a => .ok (-a)
  | .abs a => .ok |a|
  | .max a b => .ok (Max.max a b)
  | .min a b => .ok (Min.min a b)

end Operation

/-- A sequence of operations, each on earlier results. -/
inductive Computation : ℕ → Type where
  | start : Computation 0
  | next {k : ℕ} (earlier : Computation k) (op : Operation (Fin k)) : Computation (k + 1)

/-- The results of all operations, in their order. An operation fails on an operand that failed. -/
def Computation.results {α : Type} (perform : Operation α → Except Error α) {k : ℕ} :
    Computation k → Fin k → Except Error α
  | .start => Fin.elim0
  | .next earlier op =>
    @Fin.snoc _ (fun _ => Except Error α) (earlier.results perform)
      (op.lookUp (earlier.results perform) >>= perform)

/-! ## Single operations -/

theorem isLE_compare_iff {a b : Fraction} :
    (compare a b).isLE = true ↔ a.value ≤ b.value := by
  rw [compare_eq, ← compare_le_iff_le]
  cases compare a.value b.value <;> decide

theorem value_max (a b : Fraction) : (max a b).value = max a.value b.value := by
  change (if (compare a b).isLE then b else a).value = _
  split
  next le => rw [max_eq_right (isLE_compare_iff.1 le)]
  next gt => rw [max_eq_left (le_of_not_ge (mt isLE_compare_iff.2 gt))]

theorem value_min (a b : Fraction) : (min a b).value = min a.value b.value := by
  change (if (compare a b).isLE then a else b).value = _
  split
  next le => rw [min_eq_left (isLE_compare_iff.1 le)]
  next gt => rw [min_eq_right (le_of_not_ge (mt isLE_compare_iff.2 gt))]

theorem map_make (num den : ℤ) : (make num den).map value = Operation.exact (.make num den) := by
  rw [make, Operation.exact]
  split
  next => rfl
  next nonzero =>
    have sign : (den.sign : ℚ) ≠ 0 := by
      exact_mod_cast mt Int.sign_eq_zero_iff_zero.1 nonzero
    have magnitude : ((den.natAbs : ℕ) : ℚ) = den * den.sign := by
      rw [← Int.cast_natCast, ← Int.cast_mul, Int.mul_sign_self]
    rw [Except.map, value_reduce, magnitude, Int.cast_mul,
      mul_div_mul_right _ _ sign]

theorem map_divide (a b : Fraction) :
    (a.divide b).map value = Operation.exact (.divide a.value b.value) := by
  rw [Operation.exact]
  split
  next zero => rw [divide_of_eq_zero zero, Except.map]
  next nonzero =>
    obtain ⟨q, quotient, exact⟩ := exists_divide a nonzero
    rw [quotient, Except.map, exact]

theorem wholePart_neg (q : ℚ) : wholePart (-q) = -wholePart q := by
  rw [wholePart, wholePart, Int.floor_neg, Int.ceil_neg]
  rcases lt_trichotomy q 0 with neg | rfl | pos
  · rw [if_pos (by linarith), if_neg (by linarith)]
  · simp
  · rw [if_neg (by linarith), if_pos pos.le]

/-- A finite float is cut off toward zero. -/
theorem truncate?_eq_wholePart {x : Float} (finite : x.isFinite = true) :
    (Binary64.ofFloat x).truncate? = some (wholePart (Binary64.value x)) := by
  rw [Binary64.ofFloat, Binary64.value]
  obtain ⟨s, parts⟩ | ⟨s, m, e, pos, parts⟩ := Binary64.unpack_of_isFinite finite
  · rw [parts]
    simp [Binary64.truncate?, Magnitude.num, wholePart]
  · rw [parts]
    have magnitude : (m * 2 ^ e : ℚ) =
        (Magnitude.num ⟨m, e⟩ : ℕ) / (Magnitude.den ⟨m, e⟩ : ℕ) := by
      have exponent : e = (e.toNat : ℤ) - ((-e).toNat : ℤ) := by omega
      rw [Magnitude.num, Magnitude.den, Nat.cast_mul, Nat.cast_pow, Nat.cast_pow, Nat.cast_ofNat,
        mul_div_assoc, ← zpow_natCast, ← zpow_natCast, ← zpow_sub₀ two_ne_zero, ← exponent]
    have whole : wholePart (m * 2 ^ e) = (Magnitude.num ⟨m, e⟩ / Magnitude.den ⟨m, e⟩ : ℕ) := by
      rw [magnitude, wholePart, if_pos (by positivity), Rat.floor_natCast_div_natCast]
      exact (Int.natCast_ediv _ _).symm
    cases s with
    | positive => simp [Binary64.truncate?, whole]
    | negative => simp [Binary64.truncate?, whole, wholePart_neg]

theorem map_ofFloat (x : Float) : (ofFloat x).map value = Operation.exact (.ofFloat x) := by
  rw [ofFloat, Operation.exact]
  split
  next refused =>
    rw [truncate?_eq_none_iff, ← Bool.not_eq_true, isFinite_scaled_iff] at refused
    rw [if_neg refused, Except.map]
  next whole cut =>
    have finite := Binary64.isFinite_of_truncate cut
    rw [truncate?_eq_wholePart finite, Option.some.injEq] at cut
    rw [if_pos (isFinite_scaled_iff.1 finite), Except.map, value_reduce, cut]

/-! ## Computations -/

namespace Operation

/-- An operation on fractions has the exact result on their values. -/
theorem exact_map (op : Operation Fraction) : (op.map value).exact = op.perform.map value := by
  cases op with
  | make num den => exact (map_make num den).symm
  | ofFloat x => exact (map_ofFloat x).symm
  | divide a b => exact (map_divide a b).symm
  | ofInt n => simp [map, exact, perform, Except.map]
  | add a b | sub a b | mul a b => simp [map, exact, perform, Except.map]
  | neg a | abs a => simp [map, exact, perform, Except.map]
  | max a b => simp [map, exact, perform, Except.map, value_max]
  | min a b => simp [map, exact, perform, Except.map, value_min]

/-- Operands can be looked up before or after they are evaluated. -/
theorem lookUp_map {α β γ : Type} (find : α → Except Error β) (f : β → γ) (op : Operation α) :
    op.lookUp (fun a => (find a).map f) = (op.lookUp find).map (map f) := by
  cases op with
  | make | ofInt | ofFloat => rfl
  | add a b | sub a b | mul a b | divide a b | max a b | min a b =>
    cases first : find a <;> cases second : find b <;> simp [lookUp, first, second] <;> rfl
  | neg a | abs a => cases found : find a <;> simp [lookUp, found] <;> rfl

end Operation

/-- The numerator and denominator of a rational number, as there is only one. -/
structure Canonical (a : Fraction) : Prop where
  den_pos : 0 < a.den
  coprime : a.num.natAbs.Coprime a.den
  zero : a.value = 0 → a.num = 0 ∧ a.den = 1

theorem canonical (a : Fraction) : a.Canonical where
  den_pos := a.den_pos
  coprime := a.coprime
  zero zero := by
    have coprime := a.coprime
    rw [num_eq_zero_iff.2 zero, Int.natAbs_zero, Nat.coprime_zero_left] at coprime
    exact ⟨num_eq_zero_iff.2 zero, coprime⟩

/-- Every result is exact. -/
theorem Computation.results_exact {k : ℕ} (c : Computation k) :
    c.results Operation.exact = fun i => (c.results Operation.perform i).map value := by
  induction c with
  | start => exact funext fun i => i.elim0
  | next earlier op ih =>
    funext i
    simp only [results]
    induction i using Fin.lastCases with
    | cast i => rw [Fin.snoc_castSucc, Fin.snoc_castSucc, ih]
    | last =>
      rw [Fin.snoc_last, Fin.snoc_last, ih, Operation.lookUp_map]
      cases op.lookUp (earlier.results Operation.perform) with
      | error cause => rfl
      | ok found => exact found.exact_map

/-! ## Pairs of results -/

/-- Division, text, equality and order of two fractions are those of their values. -/
structure Alike (a b : Fraction) : Prop where
  divide : (∃ cause, a.divide b = .error cause) ↔ b.value = 0
  text : a.text = b.text ↔ (a == b) = true
  beq : (a == b) = true ↔ a.value = b.value
  order : compare a b = compare a.value b.value
  equal : compare a b = .eq ↔ (a == b) = true

theorem divide_fails_iff {a b : Fraction} :
    (∃ cause, a.divide b = .error cause) ↔ b.value = 0 := by
  constructor
  · rintro ⟨cause, failed⟩
    by_contra nonzero
    obtain ⟨q, quotient, -⟩ := exists_divide a nonzero
    rw [quotient] at failed
    cases failed
  · exact fun zero => ⟨_, divide_of_eq_zero zero⟩

theorem alike (a b : Fraction) : Alike a b where
  divide := divide_fails_iff
  text := by rw [beq_iff_eq, text_injective.eq_iff]
  beq := by rw [beq_iff_eq, value_injective.eq_iff]
  order := compare_eq a b
  equal := by rw [compare_eq, compare_eq_iff_eq, beq_iff_eq, value_injective.eq_iff]

/-- Whatever is computed, fractions stand for the rational numbers: every operation has the exact
result, and fails where that does not exist; results have one form each, and division, text,
equality and order are those of the values. -/
theorem faithful {k : ℕ} (c : Computation k) :
    (c.results Operation.exact = fun i => (c.results Operation.perform i).map value) ∧
      (∀ i a, c.results Operation.perform i = .ok a → a.Canonical) ∧
      ∀ i j a b, c.results Operation.perform i = .ok a → c.results Operation.perform j = .ok b →
        Alike a b :=
  ⟨c.results_exact, fun _ a _ => a.canonical, fun _ _ a b _ _ => alike a b⟩

/-- Minus three halves, and the same again as a sum less a term of it. -/
theorem faithful_difference :
    let c : Computation 4 :=
      .next (.next (.next (.next .start (.make 6 (-4))) (.ofInt 5)) (.add 0 1)) (.sub 2 1)
    let a : Fraction := ⟨-3, 2, by decide, by decide⟩
    c.results Operation.perform 0 = .ok a ∧ c.results Operation.perform 3 = .ok a ∧
      c.results Operation.exact 3 = .ok (-3 / 2) ∧ a.Canonical ∧ Alike a a := by
  intro c a
  have first : c.results Operation.perform 0 = .ok a := rfl
  have last : c.results Operation.perform 3 = .ok a := rfl
  obtain ⟨exact, canonical, alike⟩ := faithful c
  refine ⟨first, last, ?_, canonical 3 a last, alike 0 3 a a first last⟩
  rw [exact]
  dsimp only
  rw [last]
  norm_num [Except.map, value, a]

end Stepwise.Fraction
