import Stepwise.Proofs.Fraction.Text
import Stepwise.Proofs.Linear.DirectMethods
import Stepwise.Proofs.Linear.Engine
import Stepwise.Proofs.Linear.Replay
import Stepwise.Proofs.Transcript

/-!
# Reading what Gaussian elimination writes

- `Record.read`: the matrices, the moves and the unknowns that a transcript shows
- `read_heading`, `read_lines`: the text of a matrix or of a move shows it
- `Record.Proves`: what a record shows about the solutions of a system
- `gaussian_replays`: what elimination writes is such a record
-/

namespace Stepwise.Linear

variable {n : ℕ}

/-! ## Reading -/

/-- The index that a number counted from one stands for. -/
def readIndex (n : ℕ) (text : String) : Option (Fin n) := do
  let number ← text.toNat?
  if inside : 0 < number ∧ number ≤ n then some ⟨number - 1, by omega⟩ else none

/-- A list of the right length as a family. -/
def readFamily (n : ℕ) {α : Type} (entries : List α) : Option (Fin n → α) :=
  if size : entries.length = n then some fun i => entries[i] else none

/-- The row that a line shows. -/
def readRow (n : ℕ) (line : String) : Option (Fin (n + 1) → ℚ) := do
  readFamily (n + 1) (← (fields '\t' line).mapM Fraction.read)

/-- The matrix that lines show. -/
def readMatrix (n : ℕ) (lines : List String) : Option (Extended n) := do
  readFamily n (← lines.mapM (readRow n))

/-- The move that a sentence tells of. -/
def Move.read (n : ℕ) (sentence : String) : Option (Move n) :=
  match fields ' ' sentence with
  | ["Swapped", "rows", i, "and", j] => do
    return .swap (← readIndex n i) (← readIndex n j)
  | ["Row", target, "updated", "by", "subtracting", factor, "*", "Row", source] => do
    return .subtract (← readIndex n target) (← readIndex n source) (← Fraction.read factor)
  | _ => none

/-- The move and the matrix that a block of lines shows. -/
def Shown.read (n : ℕ) (block : List String) : Option (Shown n) := do
  let heading :: rows := block | none
  let [sentence, ""] := fields ':' heading | none
  return ⟨← Move.read n sentence, ← readMatrix n rows⟩

/-- The unknown that a name stands for. -/
def readUnknown (n : ℕ) (name : String) : Option (Fin n) :=
  match name.toList with
  | 'x' :: digits => readIndex n (String.ofList digits)
  | _ => none

/-- The unknown that a line tells of, and its value. -/
def readValue (n : ℕ) (line : String) : Option (Fin n × ℚ) :=
  match fields ' ' line with
  | name :: "=" :: value :: _ => do return (← readUnknown n name, ← Fraction.read value)
  | _ => none

/-- What a transcript of elimination shows. -/
structure Record (n : ℕ) where
  initial : Extended n
  shown : List (Shown n)
  /-- The unknowns in the order in which they are found. -/
  found : List (Fin n × ℚ)
  /-- The unknowns among the answers. -/
  answered : List (Fin n × ℚ)

/-- The unknowns that a block of lines tells of, if it is that of back substitution. -/
def readFound (n : ℕ) : List String → Option (List (Fin n × ℚ))
  | "Back Substitution:" :: lines => lines.mapM (readValue n)
  | _ => some []

/-- The unknowns that answers tell of in fractions. -/
def readAnswers (n : ℕ) (answers : List String) : Option (List (Fin n × ℚ)) :=
  match answers.splitOn "" with
  | ["Decimal Form:" :: _, "Fraction Form:" :: lines] => lines.mapM (readValue n)
  | _ => some []

/-- Reads the steps block by block, and then the answers. -/
def Record.read (n : ℕ) (t : Transcript) : Option (Record n) := do
  let ("Augmented Matrix (Initial):" :: rows) :: blocks := t.steps.splitOn "" | none
  return {
    initial := ← readMatrix n rows
    shown := ← blocks.dropLast.mapM (Shown.read n)
    found := ← readFound n (blocks.getLastD [])
    answered := ← readAnswers n t.answers }

/-! ## Numbers and rows -/

theorem readIndex_repr (i : Fin n) : readIndex n (i.val + 1).repr = some i := by
  have inside : 0 < i.val + 1 ∧ i.val + 1 ≤ n := ⟨Nat.succ_pos _, i.isLt⟩
  simp [readIndex, inside]

theorem readFamily_map {α β : Type} (v : Vector α n) (f : α → β) :
    readFamily n (v.toList.map f) = some fun i => f (v.get i) := by
  have size : (v.toList.map f).length = n := by simp
  rw [readFamily, dif_pos size]
  congr
  funext i
  simp
  rfl

/-- A list is read entry by entry. -/
theorem mapM_map_of_forall {α β : Type} {γ : Type} {write : α → β} {read : β → Option γ}
    {value : α → γ} (reads : ∀ a, read (write a) = some (value a)) (as : List α) :
    (as.map write).mapM read = some (as.map value) := by
  rw [List.mapM_map, show read ∘ write = fun a => some (value a) from funext reads]
  exact List.mapM_pure

theorem fields_row (row : Vector Fraction (n + 1)) :
    fields '\t' ("\t".intercalate (row.toList.map toString)) = row.toList.map toString := by
  refine fields_intercalate ?_ ?_
  · rw [Ne, List.map_eq_nil_iff, ← List.length_eq_zero_iff, Vector.length_toList]
    exact Nat.succ_ne_zero n
  · intro part mem
    obtain ⟨a, -, rfl⟩ := List.mem_map.1 mem
    intro member
    obtain same | same | digit := Fraction.mem_text member
    · cases same
    · cases same
    · cases digit

theorem readRow_line (row : Vector Fraction (n + 1)) :
    readRow n ("\t".intercalate (row.toList.map toString)) = some fun j => (row.get j).value := by
  have reads : ∀ a : Fraction, Fraction.read (toString a) = some a.value := Fraction.read_text
  rw [readRow, fields_row, mapM_map_of_forall reads]
  exact readFamily_map row Fraction.value

/-- The lines of a matrix show it. -/
theorem readMatrix_lines (m : Augmented n) : readMatrix n m.lines = some m.matrix := by
  rw [readMatrix, Table.lines, mapM_map_of_forall readRow_line]
  exact readFamily_map m fun row j => (row.get j).value

/-! ## Headings -/

section

variable {c : Char}

theorem notMem_repr (other : c.isDigit = false) (k : ℕ) : c ∉ k.repr.toList := fun member => by
  rw [Fraction.isDigit_of_mem_toString_nat member] at other
  cases other

theorem notMem_text (minus : c ≠ '-') (stroke : c ≠ '/') (other : c.isDigit = false)
    (a : Fraction) : c ∉ a.text.toList := fun member => by
  obtain same | same | digit := Fraction.mem_text member
  · exact minus same
  · exact stroke same
  · rw [digit] at other
    cases other

end

/-- An operation in words, without the colon behind them. -/
def RowOperation.words : RowOperation n → List String
  | .swap i j => ["Swapped", "rows", (i.val + 1).repr, "and", (j.val + 1).repr]
  | .subtract target source factor =>
    ["Row", (target.val + 1).repr, "updated", "by", "subtracting", factor.text, "*", "Row",
      (source.val + 1).repr]

theorem RowOperation.heading_eq (operation : RowOperation n) :
    operation.heading = " ".intercalate operation.words ++ (":" ++ "") := by
  cases operation with
  | swap i j =>
    have first : "Swapped rows " = "Swapped" ++ " " ++ "rows" ++ " " := rfl
    have second : " and " = " " ++ "and" ++ " " := rfl
    simp only [heading, words, String.intercalate_cons_cons, String.intercalate_singleton,
      String.append_assoc, first, second, Nat.toString_eq_repr, String.append_empty]
  | subtract target source factor =>
    have first : "Row " = "Row" ++ " " := rfl
    have second : " updated by subtracting " =
      " " ++ "updated" ++ " " ++ "by" ++ " " ++ "subtracting" ++ " " := rfl
    have third : " * Row " = " " ++ "*" ++ " " ++ "Row" ++ " " := rfl
    simp only [heading, words, String.intercalate_cons_cons, String.intercalate_singleton,
      String.append_assoc, first, second, third, Nat.toString_eq_repr, String.append_empty]

theorem RowOperation.notMem_words {c : Char} (operation : RowOperation n)
    (either : c = ' ' ∨ c = ':') : ∀ word ∈ operation.words, c ∉ word.toList := by
  have other : c ≠ '-' ∧ c ≠ '/' ∧ c.isDigit = false := by
    rcases either with rfl | rfl <;> decide
  have number := notMem_repr other.2.2
  have factor := notMem_text other.1 other.2.1 other.2.2
  rcases either with rfl | rfl <;> cases operation <;>
    simp only [words, List.forall_mem_cons, number, factor, not_false_eq_true, true_and]
  all_goals and_intros
  all_goals first | exact notMem_literal rfl | exact List.forall_mem_nil _

/-- The heading of an operation shows it. -/
theorem RowOperation.read_heading (operation : RowOperation n) :
    ∃ sentence, fields ':' operation.heading = [sentence, ""] ∧
      Move.read n sentence = some operation.move := by
  have nonempty : operation.words ≠ [] := by cases operation <;> nofun
  refine ⟨" ".intercalate operation.words, ?_, ?_⟩
  · have free : ':' ∉ (" ".intercalate operation.words).toList :=
      notMem_intercalate (notMem_literal rfl) (operation.notMem_words (.inr rfl))
    rw [heading_eq]
    exact (fields_cons free).trans (by rw [fields_of_notMem List.not_mem_nil])
  · have words : fields ' ' (" ".intercalate operation.words) = operation.words :=
      fields_intercalate nonempty (operation.notMem_words (.inl rfl))
    rw [Move.read, words]
    cases operation with
    | swap i j => simp [RowOperation.words, readIndex_repr, move]
    | subtract target source factor =>
      simp [RowOperation.words, readIndex_repr, Fraction.read_text, move]

/-! ## Blocks -/

theorem splitOn_blocks {blocks : List (List String)} {last : List String}
    (free : ∀ block ∈ blocks, "" ∉ block) (freeLast : "" ∉ last) :
    (blocks.flatMap (· ++ [""]) ++ last).splitOn "" = blocks ++ [last] := by
  induction blocks with
  | nil => exact List.splitOn_eq_singleton freeLast
  | cons block blocks ih =>
    obtain ⟨first, others⟩ := List.forall_mem_cons.1 free
    rw [List.flatMap_cons, List.append_assoc, List.append_assoc, List.singleton_append,
      List.splitOn_append_cons_self_of_not_mem first, ih others, List.cons_append]

/-- A row has at least two entries, hence a tabulator. -/
theorem blank_notMem_lines (nonempty : 0 < n) (m : Augmented n) : "" ∉ m.lines := fun mem => by
  obtain ⟨row, -, blank⟩ := List.mem_map.1 mem
  have parts := fields_row row
  rw [blank, fields_of_notMem List.not_mem_nil] at parts
  have length := congrArg List.length parts
  simp only [List.length_singleton, List.length_map, Vector.length_toList] at length
  omega

/-- The lines of a snapshot without the blank one behind them. -/
def Snapshot.block (s : Snapshot n) : List String := s.operation.heading :: s.matrix.lines

theorem Snapshot.blank_notMem_block (nonempty : 0 < n) (s : Snapshot n) : "" ∉ s.block := by
  refine mt List.mem_cons.1 (not_or.2 ⟨fun blank => ?_, blank_notMem_lines nonempty s.matrix⟩)
  obtain ⟨sentence, parted, -⟩ := s.operation.read_heading
  rw [← blank, fields_of_notMem List.not_mem_nil] at parted
  cases parted

theorem Snapshot.read_block (s : Snapshot n) : Shown.read n s.block = some s.shown := by
  obtain ⟨sentence, parted, read⟩ := s.operation.read_heading
  simp only [Shown.read, block, parted, read, readMatrix_lines]
  rfl

/-! ## Unknowns -/

theorem readUnknown_unknown (i : Fin n) : readUnknown n (unknown i.val) = some i := by
  have name : (unknown i.val).toList = 'x' :: (i.val + 1).repr.toList := by
    rw [unknown, String.toList_append]
    rfl
  rw [readUnknown, name]
  change readIndex n (String.ofList (i.val + 1).repr.toList) = some i
  rw [String.ofList_toList, readIndex_repr]

theorem fields_value (i : Fin n) (rest : String) :
    fields ' ' (unknown i.val ++ " = " ++ rest) = unknown i.val :: "=" :: fields ' ' rest := by
  have name : ' ' ∉ (unknown i.val).toList := by
    rw [unknown, String.toList_append, List.mem_append, not_or]
    exact ⟨notMem_literal rfl, notMem_repr rfl _⟩
  have equals : unknown i.val ++ " = " ++ rest =
      unknown i.val ++ (" " ++ ("=" ++ (" " ++ rest))) := by
    rw [show " = " = " " ++ ("=" ++ " ") from rfl]
    simp only [String.append_assoc]
  rw [equals]
  exact (fields_cons name).trans (congrArg _ (fields_cons (notMem_literal rfl)))

theorem notMem_space_text (a : Fraction) : ' ' ∉ a.text.toList :=
  notMem_text (by decide) (by decide) rfl a

theorem readValue_answer (i : Fin n) (a : Fraction) :
    readValue n (unknown i.val ++ " = " ++ a.text) = some (i, a.value) := by
  rw [readValue, fields_value, fields_of_notMem (notMem_space_text a)]
  simp [readUnknown_unknown, Fraction.read_text]

theorem readValue_step (i : Fin n) (a : Fraction) (rest : String) :
    readValue n (unknown i.val ++ " = " ++ a.text ++ " ≈ " ++ rest) = some (i, a.value) := by
  have parted : fields ' ' (a.text ++ " ≈ " ++ rest) = a.text :: fields ' ' ("≈ " ++ rest) := by
    rw [show " ≈ " = " " ++ "≈ " from rfl, String.append_assoc, String.append_assoc]
    exact fields_cons (notMem_space_text a)
  have assoc : unknown i.val ++ " = " ++ a.text ++ " ≈ " ++ rest =
      unknown i.val ++ " = " ++ (a.text ++ " ≈ " ++ rest) := by
    simp only [String.append_assoc]
  rw [assoc, readValue, fields_value, parted]
  simp [readUnknown_unknown, Fraction.read_text]

/-- Back substitution leaves the unknowns behind as it has them in the end. -/
theorem entries_backSubstitute {m : Augmented n} {rows : List (Fin n)} (distinct : rows.Nodup)
    {x x' : Vector Fraction n} (ended : (backSubstitute m rows x).ending = .ok x') :
    (backSubstitute m rows x).entries = rows.map (fun i => (i, x'.get i)) ∧
      ∀ i ∉ rows, x'.get i = x.get i := by
  induction rows generalizing x with
  | nil =>
    cases ended
    exact ⟨rfl, fun _ _ => rfl⟩
  | cons i rows ih =>
    obtain ⟨fresh, distinct⟩ := List.nodup_cons.1 distinct
    rw [backSubstitute] at ended ⊢
    obtain ⟨value, found, ended⟩ := Trail.ending_bind_eq_ok_iff.1 ended
    obtain ⟨-, -, ended⟩ := Trail.ending_bind_eq_ok_iff.1 ended
    obtain ⟨entries, kept⟩ := ih distinct ended
    have here : x'.get i = value := by
      rw [kept i fresh]
      exact Vector.getElem_set_self _
    rw [Trail.bind_of_ok _ found, Trail.bind_of_ok _ rfl, List.map_cons, here]
    refine ⟨congrArg ((i, value) :: ·) entries, fun j outside => ?_⟩
    obtain ⟨other, outside⟩ := not_or.1 (mt List.mem_cons.2 outside)
    rw [kept j outside]
    exact Vector.getElem_set_ne _ _ (fun same => other (Fin.ext same).symm)

/-! ## Transcripts -/

theorem unknown_append_ne_blank (i : ℕ) (rest : String) : unknown i ++ rest ≠ "" := by
  rw [unknown, String.append_assoc]
  exact Transcript.literal_append_ne rfl _

theorem mapIdx_toList {α β : Type} (x : Vector α n) (f : ℕ → α → β) :
    x.toList.mapIdx f = (List.finRange n).map fun i => f i.val (x.get i) := by
  apply List.ext_getElem
  · simp
  · intro i _ _
    simp
    rfl

theorem readAnswers_gaussianAnswers (setup : Setup) (x : Vector Fraction n) :
    readAnswers n (gaussianAnswers setup x.toList) =
      some ((List.finRange n).map fun i => (i, values x i)) := by
  have decimals : "" ∉ "Decimal Form:" :: x.toList.mapIdx fun i value =>
      unknown i ++ " = " ++ setup.number value.toFloat := by
    refine mt List.mem_cons.1 (not_or.2 ⟨by decide, fun mem => ?_⟩)
    obtain ⟨i, _, blank⟩ := List.mem_mapIdx.1 mem
    rw [String.append_assoc] at blank
    exact unknown_append_ne_blank _ _ blank
  have fractions : "" ∉ "Fraction Form:" :: x.toList.mapIdx fun i value =>
      unknown i ++ " = " ++ value.text := by
    refine mt List.mem_cons.1 (not_or.2 ⟨by decide, fun mem => ?_⟩)
    obtain ⟨i, _, blank⟩ := List.mem_mapIdx.1 mem
    rw [String.append_assoc] at blank
    exact unknown_append_ne_blank _ _ blank
  have parted : (gaussianAnswers setup x.toList).splitOn "" =
      ["Decimal Form:" :: x.toList.mapIdx fun i value =>
          unknown i ++ " = " ++ setup.number value.toFloat,
        "Fraction Form:" :: x.toList.mapIdx fun i value => unknown i ++ " = " ++ value.text] := by
    rw [← List.splitOn_eq_singleton fractions,
      ← List.splitOn_append_cons_self_of_not_mem decimals]
    simp [gaussianAnswers]
  rw [readAnswers, parted]
  change (x.toList.mapIdx _).mapM (readValue n) = _
  rw [mapIdx_toList]
  exact mapM_map_of_forall (fun i => readValue_answer i (x.get i)) _

theorem Record.read_eq (nonempty : 0 < n) {t : Transcript} {initial : Augmented n}
    {snapshots : List (Snapshot n)} {last : List String} {found answered : List (Fin n × ℚ)}
    (steps : t.steps = "Augmented Matrix (Initial):" :: initial.lines ++ [""] ++
      (snapshots.flatMap Snapshot.lines ++ last))
    (blank : "" ∉ last) (readsFound : readFound n last = some found)
    (readsAnswers : readAnswers n t.answers = some answered) :
    Record.read n t = some ⟨initial.matrix, snapshots.map Snapshot.shown, found, answered⟩ := by
  have first : "" ∉ "Augmented Matrix (Initial):" :: initial.lines :=
    mt List.mem_cons.1 (not_or.2 ⟨by decide, blank_notMem_lines nonempty initial⟩)
  have parted : t.steps.splitOn "" =
      ("Augmented Matrix (Initial):" :: initial.lines) ::
        (snapshots.map Snapshot.block ++ [last]) := by
    rw [steps, List.append_assoc, List.singleton_append,
      List.splitOn_append_cons_self_of_not_mem first, ← splitOn_blocks _ blank, List.flatMap_map]
    · rfl
    · exact List.forall_mem_map.2 fun s _ => s.blank_notMem_block nonempty
  rw [Record.read, parted]
  simp only [readMatrix_lines, List.dropLast_concat, List.getLastD_concat, readsFound, readsAnswers,
    mapM_map_of_forall Snapshot.read_block]
  rfl

/-! ## Elimination -/

section

variable {setup : Setup} {s : System Float n} {e : System Fraction n} {title : String}

/-- The steps of elimination. -/
def eliminationLines (e : System Fraction n) : List String :=
  "Augmented Matrix (Initial):" :: e.augmented.lines ++ [""] ++
    (eliminate (List.finRange n) e.augmented).entries.flatMap Snapshot.lines

/-- The line in which back substitution gives an unknown. -/
def foundLine (setup : Setup) (x : Vector Fraction n) (i : Fin n) : String :=
  unknown i ++ " = " ++ (x.get i).text ++ " ≈ " ++ setup.number (x.get i).toFloat

/-- The last block of steps, if back substitution has something to start from. -/
def foundLines (setup : Setup) (x : Vector Fraction n) : List String :=
  "Back Substitution:" :: (List.finRange n).reverse.map (foundLine setup x)

theorem gaussian_of_stuck (exact : s.exact = .ok e) {cause : Error}
    (stuck : (eliminate (List.finRange n) e.augmented).ending = .error cause) :
    gaussian title setup s =
      { transcript :=
          { steps := eliminationLines e ++ [title ++ " cannot continue: " ++ cause.message] }
        iterations := []
        result := .error cause } := by
  have trail : gaussianTrail setup s = ⟨eliminationLines e, .error cause⟩ := by
    rw [gaussianTrail, Trail.bind_of_ok _ exact, Trail.bind_of_ok _ rfl,
      Trail.bind_of_error _ ((Trail.ending_expand _ _).trans stuck)]
    rfl
  rw [gaussian, Report.ofTrail, trail]
  rfl

theorem gaussian_of_found (exact : s.exact = .ok e) {t : Augmented n} {x : Vector Fraction n}
    (eliminated : (eliminate (List.finRange n) e.augmented).ending = .ok t)
    (substituted : (backSubstitute t (List.finRange n).reverse (Vector.replicate n 0)).ending =
      .ok x) :
    gaussian title setup s =
      { transcript :=
          { steps := eliminationLines e ++ foundLines setup x
            answers := gaussianAnswers setup x.toList }
        iterations := []
        result := .ok ⟨x.toList, true⟩ } := by
  have distinct : (List.finRange n).reverse.Nodup := List.nodup_reverse.2 (List.nodup_finRange n)
  have entries := (entries_backSubstitute distinct substituted).1
  have trail : gaussianTrail setup s =
      ⟨eliminationLines e ++ foundLines setup x, .ok x.toList⟩ := by
    rw [gaussianTrail, Trail.bind_of_ok _ exact, Trail.bind_of_ok _ rfl,
      Trail.bind_of_ok _ ((Trail.ending_expand _ _).trans eliminated), Trail.bind_of_ok _ rfl,
      Trail.bind_of_ok _ ((Trail.ending_expand _ _).trans substituted)]
    simp only [Trail.expand, entries, List.flatMap_map, ← List.map_eq_flatMap]
    simp [Trail.ofExcept, Trail.write, eliminationLines, foundLines, foundLine]
  rw [gaussian, Report.ofTrail, trail]
  rfl

end

namespace Record

variable {A : Matrix (Fin n) (Fin n) ℚ} {v : Fin n → ℚ} {R : Record n}

/-- The matrices in the order in which they are shown. -/
def matrices (R : Record n) : List (Extended n) := R.initial :: R.shown.map Shown.matrix

/-- The matrix that is shown last. -/
def last (R : Record n) : Extended n := R.matrices.getLast (List.cons_ne_nil _ _)

/-- A record starts from the system, each matrix comes from the one before by the move that is shown
with it, and all of them have the solutions of the system. -/
structure Proves (R : Record n) (A : Matrix (Fin n) (Fin n) ℚ) (v : Fin n → ℚ) : Prop where
  initial : R.initial = .ofSides A v
  replays : Replays R.initial R.shown R.last
  solutions : ∀ M ∈ R.matrices, ∀ x, M.Solves x ↔ A.mulVec x = v

/-- The last matrix is upper triangular with a diagonal without zeros, and both times the unknowns
that are given solve it. -/
structure Solved (R : Record n) : Prop where
  triangular : R.last.Cleared n
  diagonal : ∀ i : Fin n, R.last i i.castSucc ≠ 0
  unknowns : ∃ x, R.last.Solves x ∧
    R.found = (List.finRange n).reverse.map (fun i => (i, x i)) ∧
    R.answered = (List.finRange n).map fun i => (i, x i)

/-- In the last matrix, the columns before one are cleared, and this one has nothing but zeros from
the diagonal downward. No unknown is given. -/
structure Stuck (R : Record n) (column : Fin n) : Prop where
  cleared : R.last.Cleared column
  zero : ∀ i, column ≤ i → R.last i column.castSucc = 0
  found : R.found = []
  answered : R.answered = []

theorem Proves.of_replays {last : Extended n} (initial : R.initial = .ofSides A v)
    (replays : Replays R.initial R.shown last) : R.Proves A v ∧ R.last = last := by
  have same : R.last = last := replays.getLast
  refine ⟨⟨initial, same ▸ replays, ?_⟩, same⟩
  have first (x : Fin n → ℚ) : R.initial.Solves x ↔ A.mulVec x = v :=
    initial ▸ Extended.solves_ofSides_iff
  refine List.forall_mem_cons.2 ⟨first, List.forall_mem_map.2 fun s mem x => ?_⟩
  exact (replays.solves_iff s mem x).trans (first x)

end Record

theorem System.matrix_augmented (e : System Fraction n) :
    e.augmented.matrix = Extended.ofSides e.matrix e.vector := by
  ext i j
  refine Fin.lastCases ?_ (fun j => ?_) j
  · rw [Extended.ofSides, Fin.snoc_last, ← e.right_augmented]
    rfl
  · rw [Extended.ofSides, Fin.snoc_castSucc, ← e.square_augmented]
    rfl

theorem Augmented.solves_matrix_iff {m : Augmented n} {x : Fin n → ℚ} :
    Extended.Solves m.matrix x ↔ m.Solves x := by
  simp only [Extended.Solves, Augmented.Solves, funext_iff]
  rfl

section

variable {m : ℕ} {A : Matrix (Fin n) (Fin n) ℚ} {v : Fin n → ℚ} {setup : Setup}
  {s : System Float m} {e : System Fraction m}

/-- The line of a failure is not taken for anything else. -/
theorem readFound_failure (n : ℕ) (cause : Error) :
    let line := Method.title .gaussian ++ " cannot continue: " ++ cause.message
    "" ∉ [line] ∧ readFound n [line] = some [] := by
  have other {cs : List Char} (differs : "Gaussian Elimination".toList.isPrefixOf cs = false) :
      "Gaussian Elimination" ++ " cannot continue: " ++ cause.message ≠ String.ofList cs := by
    rw [String.append_assoc]
    exact Transcript.literal_append_ne differs _
  refine ⟨mt List.mem_singleton.1 (other rfl).symm, ?_⟩
  rw [readFound.eq_def]
  split
  next same => exact absurd (List.cons.inj same).1 (other rfl)
  next => rfl

theorem readFound_foundLines (x : Vector Fraction n) : readFound n (foundLines setup x) =
    some ((List.finRange n).reverse.map fun i => (i, values x i)) :=
  mapM_map_of_forall (fun i => readValue_step i (x.get i) _) _

theorem blank_notMem_foundLines (x : Vector Fraction n) : "" ∉ foundLines setup x := by
  refine mt List.mem_cons.1 (not_or.2 ⟨by decide, fun mem => ?_⟩)
  obtain ⟨i, -, empty⟩ := List.mem_map.1 mem
  rw [foundLine, String.append_assoc, String.append_assoc, String.append_assoc] at empty
  exact unknown_append_ne_blank _ _ empty

/-- The record that a system leaves when elimination is stuck in it. -/
theorem read_of_stuck (exact : s.exact = .ok e) (nonempty : 0 < m) {cause : Error}
    (stuck : (eliminate (List.finRange m) e.augmented).ending = .error cause) :
    Record.read m (gaussian (Method.title .gaussian) setup s).transcript =
      some ⟨e.augmented.matrix,
        (eliminate (List.finRange m) e.augmented).entries.map Snapshot.shown, [], []⟩ := by
  obtain ⟨blank, unfound⟩ := readFound_failure m cause
  rw [gaussian_of_stuck exact stuck]
  exact Record.read_eq nonempty (List.append_assoc _ _ _) blank unfound
    (rfl : readAnswers m [] = some [])

/-- The record that a system leaves when it is solved. -/
theorem read_of_found (exact : s.exact = .ok e) (nonempty : 0 < m) {t : Augmented m}
    {x : Vector Fraction m}
    (eliminated : (eliminate (List.finRange m) e.augmented).ending = .ok t)
    (substituted : (backSubstitute t (List.finRange m).reverse (Vector.replicate m 0)).ending =
      .ok x) :
    Record.read m (gaussian (Method.title .gaussian) setup s).transcript =
      some ⟨e.augmented.matrix,
        (eliminate (List.finRange m) e.augmented).entries.map Snapshot.shown,
        (List.finRange m).reverse.map fun i => (i, values x i),
        (List.finRange m).map fun i => (i, values x i)⟩ := by
  rw [gaussian_of_found exact eliminated substituted]
  exact Record.read_eq nonempty (List.append_assoc _ _ _) (blank_notMem_foundLines x)
    (readFound_foundLines x) (readAnswers_gaussianAnswers setup x)

/-- The record that elimination leaves. -/
theorem exists_record (exact : s.exact = .ok e) (holds : e.Holds A v) (nonempty : 0 < n) :
    let r := gaussian (Method.title .gaussian) setup s
    ∃ R : Record n, Record.read n r.transcript = some R ∧ R.Proves A v ∧
      (r.outcome = .converged ∧ R.Solved ∨
        ∃ column : Fin n, r.outcome = .failed ∧
          r.error? = some (.zeroPivot (column.val + 1)) ∧ R.Stuck column) := by
  obtain rfl := holds.size
  obtain ⟨rfl, rfl⟩ := holds.eq
  obtain ⟨t, replays, ended⟩ := eliminate_replays (.zero e.augmented)
  rw [List.drop_zero] at replays ended
  have proves (found answered : List (Fin m × ℚ)) :=
    Record.Proves.of_replays (R := ⟨Table.matrix e.augmented, _, found, answered⟩)
      e.matrix_augmented replays
  dsimp only
  obtain ⟨eliminated, reduced⟩ | ⟨column, stuck, reduced, zeros⟩ := ended
  · obtain ⟨x, substituted, solves⟩ := backSubstitute_solves reduced (Vector.replicate m 0)
    refine ⟨_, read_of_found exact nonempty eliminated substituted, ?_⟩
    rw [gaussian_of_found exact eliminated substituted]
    obtain ⟨proves, last⟩ := proves _ _
    refine ⟨proves, .inl ⟨rfl, ?_, ?_, values x, ?_, rfl, rfl⟩⟩
    all_goals rw [last]
    · exact reduced.cleared
    · exact fun i => reduced.pivot i i.isLt
    · exact Augmented.solves_matrix_iff.2 solves
  · refine ⟨_, read_of_stuck exact nonempty stuck, ?_⟩
    rw [gaussian_of_stuck exact stuck]
    obtain ⟨proves, last⟩ := proves _ _
    refine ⟨proves, .inr ⟨column, rfl, rfl, ?_, ?_, rfl, rfl⟩⟩
    all_goals rw [last]
    · exact reduced.cleared
    · exact zeros

end

/-- What elimination writes proves what it finds: read back as numbers, the matrices start from the
converted system, follow each other by the moves named above them, and have the solutions of the
system; a move in a column comes when all columns before it are cleared. In the end the last matrix
is triangular and solved by the unknowns that are given, or it shows a column without a pivot. -/
theorem gaussian_replays {a : Matrix (Fin n) (Fin n) Float} {b : Fin n → Float}
    {A : Matrix (Fin n) (Fin n) ℚ} {v : Fin n → ℚ} (image : ExactImage a b A v)
    (nonempty : 1 ≤ n) (e : Engine .gaussian) {tolerance? : Option Float}
    (accepted : tolerance?.all isTolerance = true) :
    let r := e.solve (listed a) (List.ofFn b) tolerance?
    ∃ R : Record n, Record.read n r.2.transcript = some R ∧ R.Proves A v ∧
      (r.1 = .converged ∧ R.Solved ∨
        ∃ column : Fin n, r.1 = .failed ∧
          r.2.error? = some (.zeroPivot (column.val + 1)) ∧ R.Stuck column) := by
  obtain ⟨s, _, checked, converted, holds⟩ := image.exists_exact nonempty nonempty
  rw [Engine.solve_of_all_accepted accepted]
  dsimp only
  rw [report_of_check_gaussian checked]
  exact exists_record converted holds nonempty

theorem gaussian_replays_two_by_two :
    let e : Engine .gaussian := .make {}
    let r := e.solve (listed !![2.0, 1.0; 1.0, 3.0]) (List.ofFn ![3.0, 5.0]) none
    ∃ R : Record 2, Record.read 2 r.2.transcript = some R ∧
      R.Proves !![2, 1; 1, 3] ![3, 5] ∧ R.Solved := by
  intro e r
  obtain ⟨R, read, proves, ended⟩ :=
    gaussian_replays exactImage_two_by_two (by decide) e (rfl : (none : Option Float).all _ = true)
  refine ⟨R, read, proves, ?_⟩
  obtain ⟨-, solved⟩ | ⟨column, failed, -⟩ := ended
  · exact solved
  · have converged : r.1 = .converged := by decide +kernel
    exact absurd (converged.symm.trans failed) nofun

end Stepwise.Linear
