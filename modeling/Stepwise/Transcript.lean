/-!
# Transcripts

The written record of a solution: its steps in the order in which they were taken, and the answers.
A transcript without answers is that of a failure.
-/

namespace Stepwise

structure Transcript where
  steps : List String := []
  answers : List String := []
deriving DecidableEq, Repr

namespace Transcript

def empty : Transcript := {}

def step (t : Transcript) (line : String) : Transcript := { t with steps := t.steps ++ [line] }

def blank (t : Transcript) : Transcript := t.step ""

def extend (t : Transcript) (lines : List String) : Transcript :=
  { t with steps := t.steps ++ lines }

def answer (t : Transcript) (line : String) : Transcript :=
  { t with answers := t.answers ++ [line] }

def isEmpty (t : Transcript) : Bool := t.steps.isEmpty && t.answers.isEmpty

def ended (lines : List String) : String := String.join (lines.map (· ++ "\n"))

/-- The transcript as one text. The answers, if there are any, follow the steps under a heading of
their own. -/
def render (t : Transcript) : String :=
  if t.answers.isEmpty then ended ("Solution failed:" :: t.steps)
  else ended ("Solution Steps:" :: t.steps ++ "" :: "Final Answers:" :: t.answers)

theorem ended_cons (line : String) (lines : List String) :
    ended (line :: lines) = line ++ "\n" ++ ended lines := by
  simp [ended, String.join_cons]

/-- The text shows by its first line that there are no answers. -/
theorem failed_isPrefix_render_iff (t : Transcript) :
    "Solution failed:\n".toList <+: t.render.toList ↔ t.answers = [] := by
  rw [render]
  cases t.answers with
  | nil => simp [ended_cons]
  | cons answer answers => simp [ended_cons]

end Transcript

end Stepwise
