import Mathlib.Data.List.Forall2
import Stepwise.Proofs.Linear.Singularity
import Stepwise.Proofs.Transcript

/-!
# What the tolerance does to a direct method

It says how many digits are shown, and which determinants count as zero. Elimination does not ask
for it at all.

- `Trail.Related`: computations that differ in what they write only
- `Alike`, `Report.Alike`: lines and reports that differ in the digits of their decimals only
- `gaussian_alike`, `cramer_alike`: the reports of a method under different tolerances
- `direct_methods_up_to_tolerance`: what a change of the tolerance can do to a solution
-/

namespace Stepwise

namespace Trail

variable {α β γ δ ε ζ : Type} {R : β → γ → Prop} {t : Trail β ε α} {u : Trail γ ε α}

/-- Two computations end alike, and what they write is related entry by entry. -/
structure Related (R : β → γ → Prop) (t : Trail β ε α) (u : Trail γ ε α) : Prop where
  entries : List.Forall₂ R t.entries u.entries
  ending : t.ending = u.ending

theorem Related.bind {f : α → Trail β ε δ} {g : α → Trail γ ε δ} (first : t.Related R u)
    (rest : ∀ a, t.ending = .ok a → (f a).Related R (g a)) : (t >>= f).Related R (u >>= g) := by
  cases ended : t.ending with
  | error e =>
    rw [bind_of_error f ended, bind_of_error g (first.ending ▸ ended)]
    exact ⟨first.entries, rfl⟩
  | ok a =>
    rw [bind_of_ok f ended, bind_of_ok g (first.ending ▸ ended)]
    exact ⟨List.rel_append first.entries (rest a ended).entries, (rest a ended).ending⟩

theorem related_ofExcept (r : Except ε α) : (ofExcept r).Related R (ofExcept r) := ⟨.nil, rfl⟩

theorem related_write {entries : List β} {entries' : List γ}
    (related : List.Forall₂ R entries entries') :
    (write entries : Trail β ε Unit).Related R (write entries') := ⟨related, rfl⟩

theorem related_expand {f : ζ → List β} {g : ζ → List γ} (each : ∀ a, List.Forall₂ R (f a) (g a))
    (t : Trail ζ ε α) : (t.expand f).Related R (t.expand g) where
  entries := List.rel_flatMap (List.forall₂_same.2 fun _ _ => rfl) fun _ _ same => same ▸ each _
  ending := rfl

theorem takeWhile_bind_congr {p : β → Bool} {f g : α → Trail β ε δ}
    (rest : ∀ a, t.ending = .ok a → (f a).entries.takeWhile p = (g a).entries.takeWhile p) :
    (t >>= f).entries.takeWhile p = (t >>= g).entries.takeWhile p := by
  cases ended : t.ending with
  | error e => rw [bind_of_error f ended, bind_of_error g ended]
  | ok a =>
    rw [bind_of_ok f ended, bind_of_ok g ended, List.takeWhile_append, List.takeWhile_append,
      rest a ended]

end Trail

theorem takeWhile_append_of_length_eq {α : Type} {p : α → Bool} {as bs : List α}
    (length : as.length = bs.length) (same : as.takeWhile p = bs.takeWhile p) (cs : List α) :
    (as ++ cs).takeWhile p = (bs ++ cs).takeWhile p := by
  rw [List.takeWhile_append, List.takeWhile_append, same, length]
  split
  next all =>
    have second := (List.takeWhile_prefix p).eq_of_length all
    rw [← same, ← length] at all
    have first := (List.takeWhile_prefix p).eq_of_length all
    rw [first.symm.trans (same.trans second)]
  next => rfl

namespace Linear

/-! ## Lines -/

/-- Two lines are the same but for a number at their end, which each has in a format of its own. -/
inductive Alike (f f' : FixedPlaces) : String → String → Prop
  | same (line : String) : Alike f f' line line
  | decimal (words : String) (x : Float) : Alike f f' (words ++ f.text x) (words ++ f'.text x)

variable {f f' : FixedPlaces}

theorem forall₂_alike_same (lines : List String) : List.Forall₂ (Alike f f') lines lines :=
  List.forall₂_same.2 fun line _ => .same line

theorem forall₂_mapIdx {α β γ : Type} {R : β → γ → Prop} {g : ℕ → α → β} {g' : ℕ → α → γ}
    (each : ∀ i a, R (g i a) (g' i a)) (as : List α) :
    List.Forall₂ R (as.mapIdx g) (as.mapIdx g') := by
  rw [List.forall₂_iff_get]
  refine ⟨by simp, fun i inside inside' => ?_⟩
  simpa using each i _

/-! ## Reports -/

/-- Two reports differ in the digits of their decimals only. -/
structure Report.Alike {α : Type} (f f' : FixedPlaces) (r r' : Report α) : Prop where
  result : r.result = r'.result
  iterations : r.iterations = r'.iterations
  steps : List.Forall₂ (Linear.Alike f f') r.transcript.steps r'.transcript.steps
  answers : List.Forall₂ (Linear.Alike f f') r.transcript.answers r'.transcript.answers

theorem Report.alike_refl {α : Type} (r : Report α) : r.Alike f f' r :=
  ⟨rfl, rfl, forall₂_alike_same _, forall₂_alike_same _⟩

theorem Report.alike_ofTrail {α : Type} {title : String} {t u : Trail String Error (List α)}
    {answers answers' : List α → List String} (trails : t.Related (Linear.Alike f f') u)
    (told : ∀ values, List.Forall₂ (Linear.Alike f f') (answers values) (answers' values)) :
    (ofTrail title t answers).Alike f f' (ofTrail title u answers') := by
  obtain ⟨entries, ending⟩ := trails
  rw [ofTrail, ofTrail, ← ending]
  cases t.ending with
  | error e => exact ⟨rfl, rfl, List.rel_append entries (forall₂_alike_same _), .nil⟩
  | ok values => exact ⟨rfl, rfl, entries, told values⟩

/-! ## Elimination -/

variable {n : ℕ} {setup setup' : Setup}

theorem gaussianTrail_related (s : System Float n) :
    (gaussianTrail setup s).Related (Alike setup.formats.shown setup'.formats.shown)
      (gaussianTrail setup' s) := by
  refine (Trail.related_ofExcept _).bind fun exact _ => ?_
  refine (Trail.related_write (forall₂_alike_same _)).bind fun _ _ => ?_
  refine (Trail.related_expand (fun _ => forall₂_alike_same _) _).bind fun triangular _ => ?_
  refine (Trail.related_write (forall₂_alike_same _)).bind fun _ _ => ?_
  refine (Trail.related_expand (fun _ => ?_) _).bind fun solution _ => Trail.related_ofExcept _
  exact .cons (.decimal _ _) .nil

theorem gaussianAnswers_alike (values : List Fraction) :
    List.Forall₂ (Alike setup.formats.shown setup'.formats.shown) (gaussianAnswers setup values)
      (gaussianAnswers setup' values) := by
  refine .cons (.same _) (List.rel_append (List.rel_append ?_ ?_) ?_)
  · exact forall₂_mapIdx (fun _ _ => .decimal _ _) values
  · exact forall₂_alike_same _
  · exact forall₂_alike_same _

theorem fractions_gaussianAnswers (values : List Fraction) :
    (gaussianAnswers setup values).dropWhile (· ≠ "Fraction Form:") =
      "Fraction Form:" :: values.mapIdx fun i value => unknown i ++ " = " ++ value.text := by
  have decimals (lines : List String) (others : ∀ line ∈ lines, line ≠ "Fraction Form:")
      (rest : List String) : (lines ++ "Fraction Form:" :: rest).dropWhile (· ≠ "Fraction Form:") =
        "Fraction Form:" :: rest := by
    rw [List.dropWhile_append_of_pos (by simpa using others)]
    simp
  have split : gaussianAnswers setup values = ("Decimal Form:" :: values.mapIdx (fun i value =>
      unknown i ++ " = " ++ setup.number value.toFloat) ++ [""]) ++
        "Fraction Form:" :: values.mapIdx fun i value => unknown i ++ " = " ++ value.text := by
    simp [gaussianAnswers]
  rw [split]
  refine decimals _ (fun line mem => ?_) _
  simp only [List.cons_append, List.mem_cons, List.mem_append, List.mem_mapIdx, List.not_mem_nil,
    or_false] at mem
  obtain rfl | ⟨i, inside, rfl⟩ | rfl := mem
  · decide
  · rw [unknown, String.append_assoc, String.append_assoc]
    exact Transcript.literal_append_ne rfl _
  · decide

/-- The steps of the report of a direct method are those of its trail, with one more if it fails. -/
theorem Report.steps_ofTrail {α : Type} {title : String} {t : Trail String Error (List α)}
    {answers : List α → List String} : (ofTrail title t answers).transcript.steps =
      t.entries ++ match t.ending with
        | .error e => [title ++ " cannot continue: " ++ e.message]
        | .ok _ => [] := by
  rw [ofTrail]
  cases t.ending with
  | error e => rfl
  | ok values => exact (List.append_nil _).symm

/-- The answers of the report of a direct method are those for the values found. -/
theorem Report.answers_ofTrail {α : Type} {title : String} {t : Trail String Error (List α)}
    {answers : List α → List String} : (ofTrail title t answers).transcript.answers =
      match t.ending with
      | .error _ => []
      | .ok values => answers values := by
  rw [ofTrail]
  cases t.ending <;> rfl

theorem takeWhile_gaussianTrail {p : String → Bool} (stops : p "Back Substitution:" = false)
    (s : System Float n) : (gaussianTrail setup s).entries.takeWhile p =
      (gaussianTrail setup' s).entries.takeWhile p := by
  refine Trail.takeWhile_bind_congr fun exact _ => Trail.takeWhile_bind_congr fun _ _ =>
    Trail.takeWhile_bind_congr fun triangular _ => ?_
  rw [Trail.bind_of_ok _ (Trail.ending_write _), Trail.bind_of_ok _ (Trail.ending_write _)]
  simp only [Trail.write, List.cons_append, List.takeWhile_cons, stops, Bool.false_eq_true,
    if_false]

/-- Up to the back substitution not even the digits differ. -/
theorem takeWhile_gaussian {p : String → Bool} (stops : p "Back Substitution:" = false)
    (title : String) (s : System Float n) :
    (gaussian title setup s).transcript.steps.takeWhile p =
      (gaussian title setup' s).transcript.steps.takeWhile p := by
  have related := @gaussianTrail_related n setup setup' s
  rw [gaussian, gaussian, Report.steps_ofTrail, Report.steps_ofTrail, related.ending]
  exact takeWhile_append_of_length_eq related.entries.length_eq (takeWhile_gaussianTrail stops s) _

/-- From the fractions on not even the digits differ. -/
theorem dropWhile_gaussian (title : String) (s : System Float n) :
    (gaussian title setup s).transcript.answers.dropWhile (· ≠ "Fraction Form:") =
      (gaussian title setup' s).transcript.answers.dropWhile (· ≠ "Fraction Form:") := by
  have related := @gaussianTrail_related n setup setup' s
  rw [gaussian, gaussian, Report.answers_ofTrail, Report.answers_ofTrail, related.ending]
  cases (gaussianTrail setup' s).ending with
  | error => rfl
  | ok values =>
    exact (fractions_gaussianAnswers values).trans (fractions_gaussianAnswers values).symm

/-! ## Determinants -/

theorem mapError_fraction_ne_singular {α : Type} {r : Except Fraction.Error α} {d : Fraction} :
    r.mapError Error.fraction ≠ .error (.singular d) := by
  cases r <;> nofun

/-- Once the determinant has passed, the method fails for no determinant. -/
theorem cramerSteps_ne_singular {e : System Fraction n} {det d : Fraction}
    {columns : List (Fin n)} : (cramerSteps e det columns).ending ≠ .error (.singular d) := by
  induction columns with
  | nil => nofun
  | cons column columns ih =>
    intro failed
    obtain failed | ⟨step, -, failed⟩ := Trail.ending_bind_eq_error_iff.1 failed
    · obtain refused | ⟨_, -, made⟩ := bind_eq_error_iff.1 failed
      · exact mapError_fraction_ne_singular refused
      · cases made
    · obtain failed | ⟨_, -, failed⟩ := Trail.ending_bind_eq_error_iff.1 failed
      · cases failed
      · obtain failed | ⟨_, -, failed⟩ := Trail.ending_bind_eq_error_iff.1 failed
        · exact ih failed
        · cases failed

theorem cramerTrail_related {s : System Float n}
    (same : ∀ e, s.exact = .ok e → isSingular setup (determinant e.coefficients) =
      isSingular setup' (determinant e.coefficients)) :
    (cramerTrail setup s).Related (Alike setup.formats.shown setup'.formats.shown)
      (cramerTrail setup' s) := by
  refine (Trail.related_ofExcept _).bind fun exact converted => ?_
  refine (Trail.related_write (forall₂_alike_same _)).bind fun _ _ => ?_
  refine (Trail.related_write (forall₂_alike_same _)).bind fun _ _ => ?_
  refine (Trail.related_write (.cons (.same _) (.cons (.decimal _ _)
    (.cons (.same _) .nil)))).bind fun _ _ => ?_
  rw [same exact converted]
  split
  · exact Trail.related_ofExcept _
  · refine Trail.related_expand (fun step => ?_) _
    refine .cons (.same _) (List.rel_append (forall₂_alike_same _) ?_)
    exact .cons (.decimal _ _) (.cons (.decimal _ _) (.cons (.same _) .nil))

theorem isSingular_mono (first : setup.tolerance.isFinite = true)
    (second : setup'.tolerance.isFinite = true) (le : setup.tolerance ≤ setup'.tolerance)
    {det : Fraction} (below : isSingular setup det = true) : isSingular setup' det = true :=
  decide_eq_true (Binary64.lt_trans_le first second (of_decide_eq_true below) le)

theorem Report.error?_ofTrail {α : Type} {title : String} {t : Trail String Error (List α)}
    {answers : List α → List String} {e : Error} :
    (ofTrail title t answers).error? = some e ↔ t.ending = .error e := by
  rw [error?, result_ofTrail]
  cases t.ending <;> simp [Except.map]

/-- The reports of Cramer's rule under two tolerances: if they are not alike, the greater tolerance
makes a determinant count as zero that the smaller one does not. -/
theorem cramer_alike (first : setup.tolerance.isFinite = true)
    (second : setup'.tolerance.isFinite = true) (le : setup.tolerance ≤ setup'.tolerance)
    (title : String) (s : System Float n) :
    let r := cramer title setup s
    let r' := cramer title setup' s
    r.Alike setup.formats.shown setup'.formats.shown r' ∨
      (∀ d, r.error? ≠ some (.singular d)) ∧ ∃ d, r'.error? = some (.singular d) := by
  by_cases same : ∀ e, s.exact = .ok e → isSingular setup (determinant e.coefficients) =
    isSingular setup' (determinant e.coefficients)
  · exact .inl (Report.alike_ofTrail (cramerTrail_related same) fun values =>
      forall₂_mapIdx (fun _ _ => .decimal _ _) values)
  · push Not at same
    obtain ⟨e, converted, differ⟩ := same
    have regular : isSingular setup (determinant e.coefficients) ≠ true := fun below =>
      differ (below.trans (isSingular_mono first second le below).symm)
    have singular : isSingular setup' (determinant e.coefficients) = true := by
      rw [← Bool.not_eq_false]
      exact fun above => differ ((Bool.eq_false_of_not_eq_true regular).trans above.symm)
    refine .inr ⟨fun d failed => ?_, determinant e.coefficients, ?_⟩
    · have ended := Report.error?_ofTrail.1 failed
      rw [ending_cramerTrail _ converted, if_neg regular] at ended
      exact cramerSteps_ne_singular ended
    · refine Report.error?_ofTrail.2 ?_
      rw [ending_cramerTrail _ converted, if_pos singular]

/-! ## Solutions -/

/-- Two solutions differ in the digits of their decimals only. -/
structure Agree {method : Method} (r r' : Outcome × Engine method) : Prop where
  outcome : r.1 = r'.1
  error : r.2.error? = r'.2.error?
  solution : r.2.solution = r'.2.solution
  iterations : r.2.iterations = r'.2.iterations
  steps : List.Forall₂ (Alike r.2.formats.shown r'.2.formats.shown)
    r.2.transcript.steps r'.2.transcript.steps
  answers : List.Forall₂ (Alike r.2.formats.shown r'.2.formats.shown)
    r.2.transcript.answers r'.2.transcript.answers

variable {method : Method} {rows : List (List Float)} {constants : List Float}

theorem Report.Alike.agree {e e' : Engine method} {r r' : Report method.Value}
    (alike : r.Alike e.formats.shown e'.formats.shown r') :
    Agree (r.outcome, e.showing r) (r'.outcome, e'.showing r') where
  outcome := by rw [Report.outcome, Report.outcome, alike.result]
  error := by
    change r.error? = r'.error?
    rw [Report.error?, Report.error?, alike.result]
  solution := by
    change r.solution = r'.solution
    rw [Report.solution, Report.solution, alike.result]
  iterations := alike.iterations
  steps := alike.steps
  answers := alike.answers

theorem report_gaussian_alike :
    let r := Method.gaussian.report setup rows constants
    let r' := Method.gaussian.report setup' rows constants
    r.Alike setup.formats.shown setup'.formats.shown r' ∧
      r.transcript.steps.takeWhile (· ≠ "Back Substitution:") =
        r'.transcript.steps.takeWhile (· ≠ "Back Substitution:") ∧
      r.transcript.answers.dropWhile (· ≠ "Fraction Form:") =
        r'.transcript.answers.dropWhile (· ≠ "Fraction Form:") := by
  cases checked : System.check Method.gaussian.required rows constants with
  | error cause =>
    simp only [Method.report, checked]
    exact ⟨Report.alike_refl _, trivial, trivial⟩
  | ok s =>
    simp only [Method.report, checked]
    exact ⟨Report.alike_ofTrail (gaussianTrail_related s) gaussianAnswers_alike,
      takeWhile_gaussian (by simp) _ s, dropWhile_gaussian _ s⟩

theorem report_cramer_alike (first : setup.tolerance.isFinite = true)
    (second : setup'.tolerance.isFinite = true) (le : setup.tolerance ≤ setup'.tolerance) :
    let r := Method.cramer.report setup rows constants
    let r' := Method.cramer.report setup' rows constants
    r.Alike setup.formats.shown setup'.formats.shown r' ∨
      (∀ d, r.error? ≠ some (.singular d)) ∧ ∃ d, r'.error? = some (.singular d) := by
  cases checked : System.check Method.cramer.required rows constants with
  | error cause =>
    simp only [Method.report, checked]
    exact .inl (Report.alike_refl _)
  | ok s =>
    simp only [Method.report, checked]
    exact cramer_alike first second le _ s

theorem Engine.failed_of_error {e : Engine method} {tolerance? : Option Float}
    (accepted : tolerance?.all isTolerance = true) {cause : Error}
    (told : (e.solve rows constants tolerance?).2.error? = some cause) :
    (e.solve rows constants tolerance?).1 = .failed := by
  rw [solve_of_all_accepted accepted] at told ⊢
  change Report.error? _ = _ at told
  change Report.outcome _ = _
  rw [Report.error?] at told
  rw [Report.outcome]
  split at told
  · cases told
  · rfl

/-- What a change of the tolerance can do to a direct method. The digits of the decimals follow it,
and elimination is otherwise the same, with the same steps up to the back substitution and the same
fractions in its answers. With a greater tolerance, Cramer's rule may take a determinant for zero
that it did not take for zero before, and is otherwise the same as well. -/
theorem direct_methods_up_to_tolerance (rows : List (List Float)) (constants : List Float)
    {tolerance? tolerance'? : Option Float} (accepted : tolerance?.all isTolerance = true)
    (accepted' : tolerance'?.all isTolerance = true) :
    (∀ e e' : Engine .gaussian,
      let r := e.solve rows constants tolerance?
      let r' := e'.solve rows constants tolerance'?
      Agree r r' ∧
      r.2.transcript.steps.takeWhile (· ≠ "Back Substitution:") =
        r'.2.transcript.steps.takeWhile (· ≠ "Back Substitution:") ∧
      r.2.transcript.answers.dropWhile (· ≠ "Fraction Form:") =
        r'.2.transcript.answers.dropWhile (· ≠ "Fraction Form:")) ∧
    ∀ e e' : Engine .cramer,
      let t := tolerance?.getD e.settings.tolerance
      let t' := tolerance'?.getD e'.settings.tolerance
      let r := e.solve rows constants tolerance?
      let r' := e'.solve rows constants tolerance'?
      isTolerance t = true → isTolerance t' = true → t ≤ t' →
        (r'.1 = .converged → r.1 = .converged ∧ r.2.solution = r'.2.solution) ∧
        (∀ d, r.2.error? = some (.singular d) → r'.2.error? = some (.singular d)) ∧
        (Agree r r' ∨
          (∀ d, r.2.error? ≠ some (.singular d)) ∧ ∃ d, r'.2.error? = some (.singular d)) := by
  refine ⟨fun e e' => ?_, fun e e' => ?_⟩
  · rw [Engine.solve_of_all_accepted accepted, Engine.solve_of_all_accepted accepted']
    obtain ⟨alike, steps, answers⟩ := @report_gaussian_alike (e.opened tolerance?).setup
      (e'.opened tolerance'?).setup rows constants
    exact ⟨alike.agree, steps, answers⟩
  · intro t t' r r' valid valid' le
    have alike : Agree r r' ∨
        (∀ d, r.2.error? ≠ some (.singular d)) ∧ ∃ d, r'.2.error? = some (.singular d) := by
      dsimp only [r, r']
      rw [Engine.solve_of_all_accepted accepted, Engine.solve_of_all_accepted accepted']
      have apart := @report_cramer_alike (e.opened tolerance?).setup (e'.opened tolerance'?).setup
        rows constants
      rw [Engine.tolerance_opened, Engine.tolerance_opened] at apart
      exact (apart (isTolerance_iff.1 valid).1 (isTolerance_iff.1 valid').1 le).imp_left
        Report.Alike.agree
    obtain agree | ⟨regular, d', singular⟩ := alike
    · refine ⟨fun converged => ⟨agree.outcome.trans converged, agree.solution⟩, fun d failed => ?_,
        .inl agree⟩
      exact agree.error.symm.trans failed
    · refine ⟨fun converged => ?_, fun d failed => absurd failed (regular d),
        .inr ⟨regular, d', singular⟩⟩
      cases converged.symm.trans (Engine.failed_of_error accepted' singular)

/-- The determinant is five, so Cramer's rule gives up under a tolerance of sixteen. -/
theorem direct_methods_up_to_tolerance_two_by_two :
    let rows := listed !![2.0, 1.0; 1.0, 3.0]
    let constants := List.ofFn ![3.0, 5.0]
    let gaussian : Engine .gaussian := .make {}
    let cramer : Engine .cramer := .make {}
    let r := cramer.solve rows constants none
    let r' := cramer.solve rows constants (some 16.0)
    (none : Option Float).all isTolerance = true ∧ (some 16.0).all isTolerance = true ∧
      isTolerance cramer.settings.tolerance = true ∧ isTolerance 16.0 = true ∧
      cramer.settings.tolerance ≤ 16.0 ∧
      Agree (gaussian.solve rows constants none) (gaussian.solve rows constants (some 16.0)) ∧
      (∀ d, r.2.error? ≠ some (.singular d)) ∧ ∃ d, r'.2.error? = some (.singular d) := by
  intro rows constants gaussian cramer r r'
  have accepted : (none : Option Float).all isTolerance = true := rfl
  have accepted' : (some 16.0).all isTolerance = true := by decide +kernel
  have valid : isTolerance cramer.settings.tolerance = true := by decide +kernel
  have valid' : isTolerance 16.0 = true := by decide +kernel
  have le : cramer.settings.tolerance ≤ 16.0 := by decide +kernel
  obtain ⟨agree, apart⟩ := direct_methods_up_to_tolerance rows constants accepted accepted'
  refine ⟨accepted, accepted', valid, valid', le, (agree gaussian gaussian).1, ?_⟩
  obtain ⟨-, -, same | apart⟩ := apart cramer cramer valid valid' le
  · have sound : cramer.Sound := Engine.sound_after Settings.sound_default []
    obtain ⟨-, -, -, passed⟩ := sound.solve_singular exactImage_two_by_two le_rfl accepted
    obtain ⟨-, -, refused, -⟩ := sound.solve_singular exactImage_two_by_two le_rfl accepted'
    rw [det_two_by_two] at passed refused
    have singular := (refused (by rw [Option.getD_some, value_sixteen]; norm_num)).2
      (Binary64.inRange_intCast (k := 5) (by norm_num))
    have regular := (passed (by
      change 2 * Binary64.value defaultTolerance < |5|
      rw [value_default]
      norm_num)).not.2 fun out => out.2 (Binary64.inRange_intCast (k := 1) (by norm_num))
    rw [← same.error] at singular
    exact absurd singular regular
  · exact apart

end Linear

end Stepwise
