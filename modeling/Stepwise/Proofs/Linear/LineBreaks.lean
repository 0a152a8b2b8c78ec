import Stepwise.Proofs.Linear.Engine
import Stepwise.Proofs.Transcript

/-!
# Line breaks of a solution of a linear system

There are none: all that a solver writes are numbers and words of its own.

- `Error.oneLine_message`: so for all errors
- `clean_gaussianTrail`, `clean_cramerTrail`, `clean_sweepStart`, `clean_runLines`: for the steps
- `legible_gaussianAnswers`, `legible_cramerAnswers`, `legible_sweepAnswers`: for the answers
- `Method.readable_report`, `Engine.readable_solve`: so that every transcript can be read back
-/

namespace Stepwise

theorem Fraction.Error.oneLine_message (cause : Fraction.Error) : OneLine cause.message := by
  cases cause with
  | zeroDenominator | divideByZero => exact oneLine_literal rfl
  | notFinite value => exact oneLine_append.2 ⟨oneLine_literal rfl, Decimal.oneLine_plainText _⟩

namespace Linear

variable {n : Nat} {setup : Setup}

/-! ## Errors -/

theorem SettingError.oneLine_message (cause : SettingError) : OneLine cause.message := by
  cases cause
  exact oneLine_append.2 ⟨oneLine_literal rfl, Decimal.oneLine_plainText _⟩

theorem Error.oneLine_message (e : Error) : OneLine e.message := by
  cases e with
  | invalidSetting cause =>
    exact oneLine_append.2 ⟨oneLine_literal rfl, cause.oneLine_message⟩
  | fraction cause => exact cause.oneLine_message
  | empty => exact oneLine_literal rfl
  | notSquare | tooFewEquations | constantsLength | nonFiniteCoefficient
  | nonFiniteConstant | singular | zeroPivot | zeroDiagonal | diverged =>
    dsimp only [message]
    simp only [oneLine_append, Nat.toString_eq_repr, oneLine_nat, oneLine_fraction,
      Decimal.oneLine_plainText, and_true]
    and_intros <;> exact oneLine_literal rfl

/-! ## Steps -/

@[simp] theorem Setup.oneLine_number (x : Float) : OneLine (setup.number x) :=
  setup.formats.shown.oneLine_text x

@[simp] theorem Table.clean_lines {rows columns : Nat} (t : Table Fraction rows columns) :
    Clean t.lines := by
  intro line mem
  obtain ⟨row, _, rfl⟩ := List.mem_map.1 mem
  refine oneLine_intercalate (oneLine_literal rfl) fun entry inside => ?_
  obtain ⟨a, _, rfl⟩ := List.mem_map.1 inside
  exact oneLine_fraction a

theorem oneLine_unknown (i : Nat) : OneLine (unknown i) :=
  oneLine_append.2 ⟨oneLine_literal rfl, oneLine_nat _⟩

theorem RowOperation.oneLine_heading (operation : RowOperation n) : OneLine operation.heading := by
  cases operation <;> dsimp only [heading]
  all_goals
    simp only [oneLine_append, Nat.toString_eq_repr, oneLine_nat, oneLine_fraction, and_true]
  all_goals and_intros <;> exact oneLine_literal rfl

theorem Snapshot.clean_lines (s : Snapshot n) : Clean s.lines := by
  simp [lines, s.operation.oneLine_heading, (oneLine_literal rfl : OneLine "")]

theorem clean_gaussianTrail {s : System Float n} : Clean (gaussianTrail setup s).entries := by
  have texts : OneLine "Augmented Matrix (Initial):" ∧ OneLine "" ∧ OneLine "Back Substitution:" ∧
      OneLine " = " ∧ OneLine " ≈ " := by
    and_intros <;> exact oneLine_literal rfl
  simp only [gaussianTrail, Trail.clean_bind_iff]
  refine ⟨clean_nil, fun exact _ => ⟨by simp [Trail.write, texts], fun _ _ => ?_⟩⟩
  refine ⟨Trail.clean_expand Snapshot.clean_lines, fun triangular _ => ?_⟩
  refine ⟨by simp [Trail.write, texts], fun _ _ => ⟨?_, fun _ _ => clean_nil⟩⟩
  exact Trail.clean_expand fun found => by simp [oneLine_unknown, texts]

theorem CramerStep.clean_lines (s : CramerStep n) : Clean (s.lines setup) := by
  have texts : OneLine "Step " ∧ OneLine ": Matrix A" ∧ OneLine " (replace column " ∧
      OneLine " with constants)" ∧ OneLine "det(A" ∧ OneLine ") = " ∧ OneLine " ≈ " ∧
      OneLine "x" ∧ OneLine " = det(A" ∧ OneLine ")/det(A) = " ∧ OneLine "" := by
    and_intros <;> exact oneLine_literal rfl
  unfold lines
  simp [texts]

theorem clean_cramerTrail {s : System Float n} : Clean (cramerTrail setup s).entries := by
  have texts : OneLine "Original Coefficient Matrix:" ∧ OneLine "" ∧
      OneLine "Constant Terms Vector:" ∧ OneLine "Step 1: Calculate determinant of A" ∧
      OneLine "det(A) = " ∧ OneLine " ≈ " ∧ OneLine "b[" ∧ OneLine "] = " := by
    and_intros <;> exact oneLine_literal rfl
  have constants (values : List Fraction) : Clean (values.mapIdx fun i value =>
      "b[" ++ (i + 1).repr ++ "] = " ++ value.text) := by
    intro line mem
    obtain ⟨i, _, rfl⟩ := List.mem_mapIdx.1 mem
    simp [texts]
  simp only [cramerTrail, Trail.clean_bind_iff]
  refine ⟨clean_nil, fun exact _ => ⟨by simp [Trail.write, texts], fun _ _ => ?_⟩⟩
  refine ⟨by simp [Trail.write, texts, constants], fun _ _ => ?_⟩
  refine ⟨by simp [Trail.write, texts], fun _ _ => ?_⟩
  split
  · exact clean_nil
  · exact Trail.clean_expand CramerStep.clean_lines

theorem System.clean_equations (s : System Float n) : Clean s.equations := by
  have texts : OneLine " - " ∧ OneLine " + " ∧ OneLine " x" ∧ OneLine " = " := by
    and_intros <;> exact oneLine_literal rfl
  have term (j : Fin n) (value : Float) : OneLine (termText j value) := by
    unfold termText
    split
    · simp [texts]
    · split <;> simp [texts]
  intro line mem
  obtain ⟨i, _, rfl⟩ := List.mem_map.1 mem
  simp only [oneLine_append, FixedPlaces.oneLine_text, texts, and_true]
  refine oneLine_join.2 fun part inside => ?_
  obtain ⟨j, _, rfl⟩ := List.mem_map.1 inside
  exact term j _

theorem Sweep.oneLine_name (kind : Sweep) : OneLine kind.name := by
  cases kind <;> exact oneLine_literal rfl

theorem clean_sweepStart {s : System Float n} {kind : Sweep} :
    Clean (sweepStart setup s kind).entries := by
  have texts : OneLine "Linear System:" ∧ OneLine "" ∧
      OneLine "System is already diagonally dominant" ∧
      OneLine "System was rearranged to be diagonally dominant" ∧
      OneLine "Warning: System is not diagonally dominant - convergence not guaranteed" ∧
      OneLine "Starting " ∧ OneLine " Iteration:" ∧ OneLine "Using tolerance: " := by
    and_intros <;> exact oneLine_literal rfl
  rw [sweepStart, Trail.clean_bind_iff]
  refine ⟨by simp [Trail.write, System.clean_equations, texts], fun _ _ => ?_⟩
  -- Whichever way the system is arranged, an empty line and the heading of the passes follow.
  split
  on_goal 1 => split
  all_goals
    rw [Trail.clean_bind_iff]
    refine ⟨by simp [Trail.write, System.clean_equations, texts], fun _ _ => ?_⟩
    rw [Trail.clean_bind_iff]
    refine ⟨by simp, fun arranged _ => ?_⟩
    dsimp only
    rw [Trail.clean_bind_iff]
    refine ⟨by simp [Trail.write, texts], fun _ _ => ?_⟩
    split <;> simp [Trail.clean_bind_iff, Trail.write, Trail.fail, kind.oneLine_name, texts]

variable {s : System Float n} {count : Nat}

theorem oneLine_updateText (u : Update n) : OneLine (updateText setup s u) := by
  have texts : OneLine "*x" ∧ OneLine " [" ∧ OneLine "]" ∧ OneLine "x" ∧ OneLine " = (" ∧
      OneLine " - (" ∧ OneLine " + " ∧ OneLine ")) / " ∧ OneLine " = " := by
    and_intros <;> exact oneLine_literal rfl
  unfold updateText
  simp only [oneLine_append, Setup.oneLine_number, Nat.toString_eq_repr, oneLine_nat, texts,
    and_true, true_and]
  refine oneLine_intercalate texts.2.2.2.2.2.2.1 fun part mem => ?_
  obtain ⟨j, _, rfl⟩ := List.mem_map.1 mem
  simp [texts]

theorem clean_updateLines (p : Pass n) : Clean (updateLines setup s count p) := by
  have texts : OneLine "" ∧ OneLine "Iteration " ∧ OneLine ":" := by
    and_intros <;> exact oneLine_literal rfl
  have updates : Clean (p.updates.map (updateText setup s)) :=
    List.forall_mem_map.2 fun u _ => oneLine_updateText u
  unfold updateLines
  simp [texts, updates]

theorem clean_passLines (p : Pass n) : Clean (passLines setup s count p) := by
  have texts : OneLine "Iteration " ∧ OneLine ": [" ∧ OneLine ", " ∧ OneLine "]" ∧ OneLine " " := by
    and_intros <;> exact oneLine_literal rfl
  have values : OneLine (", ".intercalate (p.result.toList.map setup.number)) := by
    refine oneLine_intercalate texts.2.2.1 fun part mem => ?_
    obtain ⟨x, _, rfl⟩ := List.mem_map.1 mem
    exact setup.oneLine_number x
  unfold passLines
  split <;> simp [clean_updateLines, texts, values]

theorem clean_runLines (run : Run (Vector Float n) (Pass n) Error) :
    Clean (runLines setup s run) := by
  rw [runLines, clean_append, clean_flatten]
  refine ⟨fun lines mem => ?_, ?_⟩
  · obtain ⟨i, _, rfl⟩ := List.mem_mapIdx.1 mem
    exact clean_passLines _
  · split
    · exact clean_updateLines _
    · exact clean_nil

/-! ## Answers -/

/-- A line that gives the value of an unknown. -/
theorem legible_unknown (i : Nat) {rest : String} (free : OneLine rest) :
    OneLine (unknown i ++ rest) ∧ unknown i ++ rest ≠ "Final Answers:" := by
  refine ⟨oneLine_append.2 ⟨oneLine_unknown i, free⟩, ?_⟩
  rw [unknown, String.append_assoc]
  exact Transcript.literal_append_ne rfl _

theorem legible_gaussianAnswers (values : List Fraction) :
    Transcript.Legible (gaussianAnswers setup values) := by
  have texts : OneLine " = " ∧ OneLine "Decimal Form:" ∧ OneLine "Fraction Form:" ∧ OneLine "" := by
    and_intros <;> exact oneLine_literal rfl
  have decimals : Transcript.Legible
      (values.mapIdx fun i value => unknown i ++ " = " ++ setup.number value.toFloat) :=
    Transcript.legible_mapIdx fun i value => by
      rw [String.append_assoc]
      exact legible_unknown i (by simp [texts])
  have fractions : Transcript.Legible
      (values.mapIdx fun i value => unknown i ++ " = " ++ value.text) :=
    Transcript.legible_mapIdx fun i value => by
      rw [String.append_assoc]
      exact legible_unknown i (by simp [texts])
  simp [gaussianAnswers, decimals, fractions, texts]

theorem legible_cramerAnswers (values : List Fraction) :
    Transcript.Legible (cramerAnswers setup values) := by
  have texts : OneLine " = " ∧ OneLine " ≈ " := by
    and_intros <;> exact oneLine_literal rfl
  refine Transcript.legible_mapIdx fun i value => ?_
  rw [String.append_assoc, String.append_assoc, String.append_assoc]
  exact legible_unknown i (by simp [texts])

theorem legible_sweepAnswers (solution : Solution Float) :
    Transcript.Legible (sweepAnswers setup count solution) := by
  have texts : OneLine " = " ∧ OneLine "Solution converged after " ∧ OneLine " iterations" ∧
      OneLine "Final tolerance: " ∧ OneLine "" ∧ OneLine "Final Solution:" ∧
      OneLine "Warning: Maximum iterations (" ∧ OneLine ") reached without convergence" ∧
      OneLine "Best Estimate:" := by
    and_intros <;> exact oneLine_literal rfl
  have values : Transcript.Legible (valueLines setup solution.values) :=
    Transcript.legible_mapIdx fun i value => by
      rw [String.append_assoc]
      exact legible_unknown i (by simp [texts])
  rw [sweepAnswers]
  split
  · have first : "Solution converged after " ++ count.repr ++ " iterations" ≠
        "Final Answers:" := by
      rw [String.append_assoc]
      exact Transcript.literal_append_ne rfl _
    have second : "Final tolerance: " ++ setup.number setup.tolerance ≠ "Final Answers:" :=
      Transcript.literal_append_ne rfl _
    simp [values, texts, first, second]
  · have first : "Warning: Maximum iterations (" ++ maxPasses.repr ++
        ") reached without convergence" ≠ "Final Answers:" := by
      rw [String.append_assoc]
      exact Transcript.literal_append_ne rfl _
    simp [values, texts, first]

/-! ## Transcripts -/

theorem Method.oneLine_title (method : Method) : OneLine method.title := by
  cases method <;> exact oneLine_literal rfl

section

variable {α : Type} {title : String}

theorem Report.readable_conclude (free : OneLine title) {steps : List String}
    {iterations : List (List Float)} {result : Except Error (Solution α)} {answers : List String}
    (clean : Clean steps) (legible : Transcript.Legible answers) :
    (conclude title steps iterations result answers).transcript.Readable := by
  cases result with
  | error e =>
    have between : OneLine " cannot continue: " := oneLine_literal rfl
    refine ⟨?_, List.not_mem_nil⟩
    simp [conclude, Transcript.LineByLine, clean, e.oneLine_message, free, between]
  | ok solution => exact ⟨clean_append.2 ⟨clean, legible.1⟩, legible.2⟩

theorem Report.readable_ofTrail (free : OneLine title) {steps : Trail String Error (List α)}
    {answers : List α → List String} (clean : Clean steps.entries)
    (legible : ∀ values, Transcript.Legible (answers values)) :
    (ofTrail title steps answers).transcript.Readable := by
  rw [ofTrail]
  split
  · exact readable_conclude free clean Transcript.legible_nil
  · exact readable_conclude free clean (legible _)

theorem readable_sweep (free : OneLine title) {kind : Sweep} :
    (sweep title setup s kind).transcript.Readable := by
  rw [sweep]
  dsimp only
  split
  · exact Report.readable_conclude free clean_sweepStart Transcript.legible_nil
  · refine Report.readable_conclude free
      (clean_append.2 ⟨clean_sweepStart, clean_runLines _⟩) ?_
    split
    · exact legible_sweepAnswers _
    · exact Transcript.legible_nil

end

theorem Method.readable_report (method : Method) (setup : Setup) (rows : List (List Float))
    (constants : List Float) : (method.report setup rows constants).transcript.Readable := by
  rw [report]
  split
  · exact Report.readable_conclude method.oneLine_title clean_nil Transcript.legible_nil
  · cases method with
    | cramer =>
      exact Report.readable_ofTrail (oneLine_title _) clean_cramerTrail legible_cramerAnswers
    | gaussian =>
      exact Report.readable_ofTrail (oneLine_title _) clean_gaussianTrail legible_gaussianAnswers
    | jacobi | gaussSeidel => exact readable_sweep (oneLine_title _)

/-- Every solution leaves a transcript that can be read back. -/
theorem Engine.readable_solve {method : Method} (e : Engine method) (rows : List (List Float))
    (constants : List Float) (tolerance? : Option Float) :
    (e.solve rows constants tolerance?).2.transcript.Readable := by
  cases accepted : tolerance?.all isTolerance with
  | true =>
    rw [solve_of_all_accepted accepted]
    exact method.readable_report _ rows constants
  | false =>
    obtain ⟨tolerance, rfl, refused⟩ := (Option.all_eq_false _ _).1 accepted
    rw [solve_of_refused refused]
    exact Report.readable_conclude method.oneLine_title clean_nil Transcript.legible_nil

end Linear

end Stepwise
