import Mathlib.Data.List.DropRight
import Stepwise.Proofs.Text.Fields

/-!
# Ledgers

The blocks of a transcript under their headings, and the estimates that are read off them.

- `point?`, `result?`: the numbers of a line
- `blocks`: the lines from each heading up to the next one
- `Layout`: where a method writes the points that it starts from and its new estimate
- `Ledger`: lines and estimates that belong together, block by block
- `Ledger.length_blocks`, `Ledger.headings`, `Ledger.estimates`, `Ledger.openings`: what the blocks
  of a ledger show
-/

namespace Stepwise.Root

/-! ## Readers -/

/-- The label and the first number of a line such as `  x1 = 2.50, f(x1) = 0.25`. -/
def point? (line : String) : Option (String × String) :=
  match fields ' ' line with
  | "" :: "" :: label :: "=" :: value :: _ => (fields ',' value).head?.map (label, ·)
  | _ => none

/-- The label and the last number of a line such as `  x1 = 2.50 - 0.25/5.00 = 2.45`. -/
def result? (line : String) : Option (String × String) :=
  match fields ' ' line with
  | "" :: "" :: label :: "=" :: values => values.getLast?.map (label, ·)
  | _ => none

section

variable {label how text rest : String}

theorem fields_labelled (free : ' ' ∉ label.toList) (rest : String) :
    fields ' ' ("  " ++ label ++ " = " ++ rest) = "" :: "" :: label :: "=" :: fields ' ' rest := by
  have spaced : "  " ++ label ++ " = " ++ rest = "" ++ (String.singleton ' ' ++ ("" ++
      (String.singleton ' ' ++ (label ++ (String.singleton ' ' ++ ("=" ++
        (String.singleton ' ' ++ rest))))))) := by
    apply String.toList_injective
    simp
  rw [spaced, fields_cons (by decide), fields_cons (by decide), fields_cons free,
    fields_cons (by decide)]

theorem point?_line (label_free : ' ' ∉ label.toList) (space_free : ' ' ∉ text.toList)
    (comma_free : ',' ∉ text.toList) :
    point? ("  " ++ label ++ " = " ++ text) = some (label, text) := by
  rw [point?, fields_labelled label_free, fields_of_notMem space_free]
  simp [fields_of_notMem comma_free]

theorem point?_sample (label_free : ' ' ∉ label.toList) (space_free : ' ' ∉ text.toList)
    (comma_free : ',' ∉ text.toList) :
    point? ("  " ++ label ++ " = " ++ (text ++ ("," ++ (String.singleton ' ' ++ rest)))) =
      some (label, text) := by
  have value_free : ' ' ∉ (text ++ ",").toList := by simpa using space_free
  have single : "," = String.singleton ',' ++ "" := rfl
  rw [point?, fields_labelled label_free, ← String.append_assoc, fields_cons value_free]
  simp only [single, fields_cons comma_free, List.head?_cons, Option.map_some]

theorem result?_line (label_free : ' ' ∉ label.toList) (text_free : ' ' ∉ text.toList) :
    result? ("  " ++ label ++ " = " ++ (how ++ (String.singleton ' ' ++ text))) =
      some (label, text) := by
  rw [result?, fields_labelled label_free]
  simp only [getLast?_fields text_free, Option.map_some]

example : result? "  x1 = x - f(x)/f'(x) = 2.50 - 0.25/5.00 = 2.45" = some ("x1", "2.45") := by
  decide +kernel

end

/-! ## Blocks -/

/-- The heading of an iteration. -/
def heading (count : ℕ) : String := "Iteration " ++ toString count ++ ":"

/-- Whether a line begins like a heading. -/
def isHeading (line : String) : Bool := "Iteration ".toList.isPrefixOf line.toList

/-- The lines from each heading up to the next one. -/
def blocks : List String → List (List String)
  | [] => []
  | line :: lines =>
    if isHeading line then (line :: lines.takeWhile (!isHeading ·)) :: blocks lines
    else blocks lines

/-- No line is a heading. -/
def Plain (lines : List String) : Prop := ∀ line ∈ lines, isHeading line = false

@[simp] theorem plain_nil : Plain [] := List.forall_mem_nil _

@[simp] theorem plain_cons {line : String} {lines : List String} :
    Plain (line :: lines) ↔ isHeading line = false ∧ Plain lines := List.forall_mem_cons

@[simp] theorem plain_append {first second : List String} :
    Plain (first ++ second) ↔ Plain first ∧ Plain second := List.forall_mem_append

theorem isHeading_heading (count : ℕ) : isHeading (heading count) = true := by
  rw [isHeading, List.isPrefixOf_iff_prefix, heading, String.append_assoc, String.toList_append]
  exact List.prefix_append _ _

/-- Whether no text that begins with these words begins like a heading. -/
def setsApart (words : List Char) : Bool :=
  !("Iteration ".toList.isPrefixOf words || words.isPrefixOf "Iteration ".toList)

theorem isHeading_append {words : List Char} (apart : setsApart words = true) (rest : String) :
    isHeading (String.ofList words ++ rest) = false := by
  have text : (String.ofList words ++ rest).toList = words ++ rest.toList := by
    rw [String.toList_append, String.toList_ofList]
  rw [setsApart, Bool.not_eq_true', Bool.or_eq_false_iff] at apart
  rw [isHeading, text, ← Bool.not_eq_true, List.isPrefixOf_iff_prefix]
  intro starts
  obtain longer | shorter := List.prefix_or_prefix_of_prefix starts (List.prefix_append _ _)
  · rw [List.isPrefixOf_iff_prefix.2 longer] at apart
    cases apart.1
  · rw [List.isPrefixOf_iff_prefix.2 shorter] at apart
    cases apart.2

theorem isHeading_literal {words : List Char} (apart : setsApart words = true) :
    isHeading (String.ofList words) = false := by
  simpa using isHeading_append apart ""

theorem isHeading_blank : isHeading "" = false := rfl

theorem Plain.filter {lines : List String} (plain : Plain lines) : lines.filter isHeading = [] :=
  List.filter_eq_nil_iff.2 fun line mem => by simp [plain line mem]

theorem blocks_cons_plain {line : String} {lines : List String}
    (plain : isHeading line = false) : blocks (line :: lines) = blocks lines := by
  rw [blocks, if_neg (by simp [plain])]

theorem Plain.blocks_append {plainLines lines : List String} (plain : Plain plainLines) :
    blocks (plainLines ++ lines) = blocks lines := by
  induction plainLines with
  | nil => rfl
  | cons line rest ih =>
    obtain ⟨first, others⟩ := plain_cons.1 plain
    rw [List.cons_append, blocks_cons_plain first, ih others]

theorem Plain.blocks_eq_nil {lines : List String} (plain : Plain lines) : blocks lines = [] := by
  have none : blocks (lines ++ []) = [] := plain.blocks_append
  rwa [List.append_nil] at none

theorem blocks_heading_cons {count : ℕ} {body lines : List String} (plain : Plain body) :
    blocks (heading count :: body ++ lines) =
      (heading count :: body ++ lines.takeWhile (!isHeading ·)) :: blocks lines := by
  rw [List.cons_append, blocks, if_pos (isHeading_heading count), plain.blocks_append,
    List.takeWhile_append_of_pos (by simpa [Plain] using plain), List.cons_append]

/-! ## Layouts -/

/-- Where the blocks of a method show what. -/
structure Layout where
  /-- How many points an iteration starts from; they follow the heading. -/
  memory : ℕ
  /-- The line of the new estimate, counted from the heading. -/
  resultLine : ℕ
  /-- What the new estimate is called in a block. -/
  label : ℕ → String

namespace Layout

variable {l : Layout} {count : ℕ} {latest : List (String × String)} {block rest lines : List String}

/-- The points that an iteration starts from. -/
def opening (l : Layout) (block : List String) : List (String × String) :=
  ((block.drop 1).take l.memory).filterMap point?

/-- The new estimate of an iteration. -/
def estimate? (l : Layout) (block : List String) : Option (String × String) :=
  block[l.resultLine]?.bind result?

/-- A block under its heading that starts from these points. -/
structure Opens (l : Layout) (count : ℕ) (latest : List (String × String)) (block : List String) :
    Prop where
  shape : ∃ body, block = heading count :: body ∧ Plain body ∧ l.memory ≤ body.length
  opening : l.opening block = latest

theorem Opens.filter (opens : l.Opens count latest block) (lines : List String) :
    (block ++ lines).filter isHeading = heading count :: lines.filter isHeading := by
  obtain ⟨⟨body, rfl, plain, -⟩, -⟩ := opens
  rw [List.filter_append, List.filter_cons_of_pos (isHeading_heading count), plain.filter]
  rfl

theorem Opens.head?_append (opens : l.Opens count latest block) (more : List String) :
    (block ++ more).head? = some (heading count) := by
  obtain ⟨⟨body, rfl, -, -⟩, -⟩ := opens
  rfl

theorem Opens.exists_blocks (opens : l.Opens count latest block) (lines : List String) :
    ∃ more, blocks (block ++ lines) = (block ++ more) :: blocks lines ∧
      l.opening (block ++ more) = latest := by
  obtain ⟨⟨body, rfl, plain, long⟩, opening⟩ := opens
  refine ⟨_, blocks_heading_cons plain, ?_⟩
  rw [← opening, Layout.opening, Layout.opening, List.cons_append, List.drop_one, List.drop_one,
    List.tail_cons, List.tail_cons, List.take_append_of_le_length long]

theorem estimate?_of_line {line : String} {result : String × String}
    (found : block[l.resultLine]? = some line) (read : result? line = some result) :
    l.estimate? block = some result := by
  rw [estimate?, found]
  exact read

theorem estimate?_append {result : String × String} (told : l.estimate? block = some result)
    (more : List String) : l.estimate? (block ++ more) = some result := by
  obtain ⟨line, found, read⟩ := Option.bind_eq_some_iff.1 told
  have inside := (List.getElem?_eq_some_iff.1 found).1
  exact estimate?_of_line ((List.getElem?_append_left inside).trans found) read

end Layout

/-! ## Ledgers -/

/-- Lines and estimates that belong together, and whether there is a block without an estimate, that
of an iteration that was given up. Each block starts from the latest points before it. -/
inductive Ledger (l : Layout) (number : Float → String) :
    ℕ → List (String × String) → List String → List Float → Bool → Prop where
  | nil {count : ℕ} {latest : List (String × String)} : Ledger l number count latest [] [] false
  | skip {count : ℕ} {latest : List (String × String)} {line : String} {lines : List String}
    {xs : List Float} {extra : Bool} (plain : isHeading line = false)
    (later : Ledger l number count latest lines xs extra) :
    Ledger l number count latest (line :: lines) xs extra
  | abandoned {count : ℕ} {latest : List (String × String)} {block rest : List String}
    (opens : l.Opens count latest block) (plain : Plain rest) :
    Ledger l number count latest (block ++ rest) [] true
  | entry {count : ℕ} {latest : List (String × String)} {block lines : List String} {x : Float}
    {xs : List Float} {extra : Bool} (opens : l.Opens count latest block)
    (told : l.estimate? block = some (l.label count, number x))
    (later : Ledger l number (count + 1)
      ((latest ++ [(l.label count, number x)]).rtake l.memory) lines xs extra) :
    Ledger l number count latest (block ++ lines) (x :: xs) extra

namespace Ledger

variable {l : Layout} {number : Float → String} {count : ℕ} {latest : List (String × String)}
  {lines : List String} {xs : List Float} {extra : Bool}

theorem plain_append {pre : List String} (plain : Plain pre)
    (later : Ledger l number count latest lines xs extra) :
    Ledger l number count latest (pre ++ lines) xs extra := by
  induction pre with
  | nil => exact later
  | cons line pre ih =>
    obtain ⟨first, others⟩ := plain_cons.1 plain
    exact .skip first (ih others)

theorem of_plain (plain : Plain lines) : Ledger l number count latest lines [] false := by
  simpa using plain_append plain .nil

theorem length_blocks (ledger : Ledger l number count latest lines xs extra) :
    (blocks lines).length = xs.length + extra.toNat := by
  induction ledger with
  | nil => rfl
  | skip plain _ ih => rw [blocks_cons_plain plain, ih]
  | abandoned opens plain =>
    obtain ⟨more, split, -⟩ := opens.exists_blocks _
    rw [split, plain.blocks_eq_nil]
    rfl
  | entry opens _ _ ih =>
    obtain ⟨more, split, -⟩ := opens.exists_blocks _
    rw [split, List.length_cons, ih, List.length_cons]
    omega

theorem headings (ledger : Ledger l number count latest lines xs extra) :
    lines.filter isHeading = (List.range' count (blocks lines).length).map heading := by
  induction ledger with
  | nil => rfl
  | skip plain _ ih => rw [blocks_cons_plain plain, List.filter_cons_of_neg (by simp [plain]), ih]
  | abandoned opens plain =>
    obtain ⟨more, split, -⟩ := opens.exists_blocks _
    rw [opens.filter, split, plain.filter, plain.blocks_eq_nil]
    rfl
  | entry opens _ _ ih =>
    obtain ⟨more, split, -⟩ := opens.exists_blocks _
    rw [opens.filter, split, ih, List.length_cons, List.range'_succ, List.map_cons]

theorem head?_blocks (ledger : Ledger l number count latest lines xs extra) (i : ℕ)
    (block : List String) (found : (blocks lines)[i]? = some block) :
    block.head? = some (heading (count + i)) := by
  induction ledger generalizing i with
  | nil => cases found
  | skip plain _ ih =>
    rw [blocks_cons_plain plain] at found
    exact ih i found
  | abandoned opens plain =>
    obtain ⟨more, split, -⟩ := opens.exists_blocks _
    rw [split, plain.blocks_eq_nil] at found
    cases i with
    | zero =>
      cases found
      exact opens.head?_append more
    | succ i => cases found
  | entry opens _ _ ih =>
    obtain ⟨more, split, -⟩ := opens.exists_blocks _
    rw [split] at found
    cases i with
    | zero =>
      cases found
      exact opens.head?_append more
    | succ i =>
      rw [ih i found, Nat.add_right_comm]
      rfl

theorem estimates (ledger : Ledger l number count latest lines xs extra) (i : ℕ)
    (inside : i < xs.length) : ∃ block, (blocks lines)[i]? = some block ∧
      l.estimate? block = some (l.label (count + i), number xs[i]) := by
  induction ledger generalizing i with
  | nil => cases inside
  | skip plain _ ih =>
    rw [blocks_cons_plain plain]
    exact ih i inside
  | abandoned => cases inside
  | entry opens told _ ih =>
    obtain ⟨more, split, -⟩ := opens.exists_blocks _
    rw [split]
    cases i with
    | zero => exact ⟨_, rfl, Layout.estimate?_append told more⟩
    | succ i =>
      obtain ⟨block, found, read⟩ := ih i (Nat.lt_of_succ_lt_succ inside)
      refine ⟨block, found, read.trans ?_⟩
      rw [Nat.add_right_comm]
      rfl

/-- The last entries of a list are those of its last entries and what follows them. -/
theorem rtake_rtake_append {α : Type} (as bs : List α) (n : ℕ) :
    (as.rtake n ++ bs).rtake n = (as ++ bs).rtake n := by
  simp only [List.rtake_eq_reverse_take_reverse, List.reverse_append, List.reverse_reverse,
    List.take_append, List.take_take]
  congr 3
  omega

theorem openings (ledger : Ledger l number count latest lines xs extra)
    (size : latest.length = l.memory) (i : ℕ) (block : List String)
    (found : (blocks lines)[i]? = some block) : l.opening block =
      (latest ++ ((blocks lines).take i).filterMap l.estimate?).rtake l.memory := by
  have whole {shown : List (String × String)} (size : shown.length = l.memory) :
      (shown ++ []).rtake l.memory = shown := by
    rw [List.append_nil, List.rtake, size, Nat.sub_self, List.drop_zero]
  induction ledger generalizing i with
  | nil => cases found
  | skip plain _ ih =>
    rw [blocks_cons_plain plain] at found ⊢
    exact ih size i found
  | abandoned opens plain =>
    obtain ⟨more, split, opening⟩ := opens.exists_blocks _
    rw [split, plain.blocks_eq_nil] at found
    cases i with
    | zero =>
      cases found
      exact opening.trans (whole size).symm
    | succ i => cases found
  | entry opens told _ ih =>
    obtain ⟨more, split, opening⟩ := opens.exists_blocks _
    rw [split] at found ⊢
    cases i with
    | zero =>
      cases found
      exact opening.trans (whole size).symm
    | succ i =>
      rw [ih ?_ i found, rtake_rtake_append, List.take_succ_cons,
        List.filterMap_cons_some (Layout.estimate?_append told more), List.append_assoc]
      · rfl
      · simp [List.rtake, size]

end Ledger

end Stepwise.Root
