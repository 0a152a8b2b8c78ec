import Stepwise.Proofs.Linear.Engine
import Stepwise.Proofs.Root.Engine

/-!
# Root finders and solvers over series of calls

- `Root.Engine.Refuses`, `Root.Engine.Adopts`: what a call with a bad or a good value does to a root
  finder; `Linear.Engine.Refuses`, `Linear.Engine.Adopts` for solvers of linear systems
- `sound_after_calls`: what every state is like that calls lead to
- `solve_forgets_calls`: nothing but the settings passes from one solution to the next
-/

namespace Stepwise

namespace Root.Engine

variable {method : Method} {ε : Type} [ToString ε]

/-- A call with a bad value leaves the settings and the formats alone; if it is a search, all that
is left of it is its failure. -/
structure Refuses (e : Engine method ε) : Prop where
  setTolerance : ∀ tolerance, isTolerance tolerance = false →
    (setTolerance tolerance).run e = .error (.tolerance tolerance) e
  setDerivativeStep : ∀ h, isTolerance h = false →
    (setDerivativeStep h).run e = .error (.derivativeStep h) e
  solve : ∀ formula start tolerance, isTolerance tolerance = false →
    let error : Error ε := .invalidSetting (.tolerance tolerance)
    e.solve formula start (some tolerance) =
      (.failed, { e with
        formula
        transcript := { steps := [method.title ++ " cannot continue: " ++ error.message] }
        iterations := [], root? := none, error? := some error })

/-- A good tolerance stays, and the formats follow it, however the search ends. -/
structure Adopts (e : Engine method ε) : Prop where
  settings : ∀ formula start tolerance, isTolerance tolerance = true →
    (e.solve formula start (some tolerance)).2.settings = { e.settings with tolerance }
  formats : ∀ formula start tolerance, isTolerance tolerance = true →
    (e.solve formula start (some tolerance)).2.formats = .forTolerance tolerance

theorem refuses (e : Engine method ε) : e.Refuses where
  setTolerance _ := run_setTolerance_of_refused
  setDerivativeStep _ := run_setDerivativeStep_of_refused
  solve _ _ _ := solve_of_refused

theorem adopts (e : Engine method ε) : e.Adopts where
  settings _ _ _ accepted := by
    rw [solve_of_accepted accepted, solve_none]
    rfl
  formats _ _ _ accepted := by
    rw [solve_of_accepted accepted, solve_none]
    rfl

end Root.Engine

namespace Linear.Engine

variable {method : Method}

/-- A call with a bad value leaves the settings and the formats alone; if it is a solution, all that
is left of it is its failure. -/
structure Refuses (e : Engine method) : Prop where
  setTolerance : ∀ tolerance, isTolerance tolerance = false →
    (setTolerance tolerance).run e = .error (.tolerance tolerance) e
  solve : ∀ rows constants tolerance, isTolerance tolerance = false →
    let error : Error := .invalidSetting (.tolerance tolerance)
    e.solve rows constants (some tolerance) =
      (.failed, { e with
        transcript := { steps := [method.title ++ " cannot continue: " ++ error.message] }
        iterations := [], solution := [], error? := some error })

/-- A good tolerance stays, and the formats follow it, however the solution ends. -/
structure Adopts (e : Engine method) : Prop where
  settings : ∀ rows constants tolerance, isTolerance tolerance = true →
    (e.solve rows constants (some tolerance)).2.settings = { e.settings with tolerance }
  formats : ∀ rows constants tolerance, isTolerance tolerance = true →
    (e.solve rows constants (some tolerance)).2.formats = .forTolerance tolerance

theorem refuses (e : Engine method) : e.Refuses where
  setTolerance _ := run_setTolerance_of_refused
  solve _ _ _ := solve_of_refused

theorem adopts (e : Engine method) : e.Adopts where
  settings _ _ _ accepted := by
    rw [solve_of_accepted accepted, solve_none]
    rfl
  formats _ _ _ accepted := by
    rw [solve_of_accepted accepted, solve_none]
    rfl

end Linear.Engine

/-- Whatever settings are chosen and whatever calls follow, the settings are ones that a solution
can work with, and the formats are those of the tolerance. A bad value changes neither, and a good
tolerance stays even if the solution fails. -/
theorem sound_after_calls :
    (∀ (method : Root.Method) (ε : Type) [ToString ε] (evaluator : Evaluator ε)
      (choices : List Root.Settings.Call) (calls : List (Root.Engine.Call method)),
      let chosen := ({} : Root.Settings).after choices
      let e : Root.Engine method ε := .after (.make chosen evaluator) calls
      (∀ choice cause, chosen.call choice = .error cause →
        ({} : Root.Settings).after (choices ++ [choice]) = chosen) ∧
      e.Sound ∧ e.Refuses ∧ e.Adopts) ∧
    (∀ (method : Linear.Method) (choices : List Linear.Settings.Call)
      (calls : List Linear.Engine.Call),
      let chosen := ({} : Linear.Settings).after choices
      let e : Linear.Engine method := .after (.make chosen) calls
      (∀ choice cause, chosen.call choice = .error cause →
        ({} : Linear.Settings).after (choices ++ [choice]) = chosen) ∧
      e.Sound ∧ e.Refuses ∧ e.Adopts) := by
  refine ⟨fun method ε _ evaluator choices calls => ?_, fun method choices calls => ?_⟩
  · refine ⟨fun choice cause refused => Root.Settings.after_concat_of_error refused, ?_⟩
    have sound := Root.Settings.sound_default.after choices
    exact ⟨Root.Engine.sound_after sound evaluator calls, Root.Engine.refuses _,
      Root.Engine.adopts _⟩
  · refine ⟨fun choice cause refused => Linear.Settings.after_concat_of_error refused, ?_⟩
    have sound := Linear.Settings.sound_default.after choices
    exact ⟨Linear.Engine.sound_after sound calls, Linear.Engine.refuses _, Linear.Engine.adopts _⟩

/-- Two root finders with the same evaluator, or two solvers, go the same way from where their
settings are the same, whatever calls they have been through; and a tolerance that is given with a
solution might as well have been set before. -/
theorem solve_forgets_calls :
    (∀ (method : Root.Method) (ε : Type) [ToString ε] (evaluator : Evaluator ε)
      (settings settings' : Root.Settings) (calls calls' : List (Root.Engine.Call method)),
      let e : Root.Engine method ε := .after (.make settings evaluator) calls
      let e' : Root.Engine method ε := .after (.make settings' evaluator) calls'
      (e.settings = e'.settings → ∀ formula start tolerance?,
        e.solve formula start tolerance? = e'.solve formula start tolerance?) ∧
      ∀ formula start tolerance, isTolerance tolerance = true →
        ∃ set, (Root.Engine.setTolerance tolerance).run e = .ok () set ∧
          e.solve formula start (some tolerance) = set.solve formula start none) ∧
    (∀ (method : Linear.Method) (settings settings' : Linear.Settings)
      (calls calls' : List Linear.Engine.Call),
      let e : Linear.Engine method := .after (.make settings) calls
      let e' : Linear.Engine method := .after (.make settings') calls'
      (e.settings = e'.settings → ∀ rows constants tolerance?,
        e.solve rows constants tolerance? = e'.solve rows constants tolerance?) ∧
      ∀ rows constants tolerance, isTolerance tolerance = true →
        ∃ set, (Linear.Engine.setTolerance tolerance).run e = .ok () set ∧
          e.solve rows constants (some tolerance) = set.solve rows constants none) := by
  refine ⟨fun method ε _ evaluator settings settings' calls calls' => ⟨?_, ?_⟩,
    fun method settings settings' calls calls' => ⟨?_, ?_⟩⟩
  · intro same formula start tolerance?
    refine Root.Engine.solve_congr same ?_ ?_ tolerance?
    · rw [Root.Engine.formats_after, Root.Engine.formats_after, same]
    · rw [Root.Engine.evaluator_after, Root.Engine.evaluator_after]
  · intro formula start tolerance accepted
    exact ⟨_, Root.Engine.run_setTolerance_of_accepted accepted,
      Root.Engine.solve_of_accepted accepted⟩
  · intro same rows constants tolerance?
    refine Linear.Engine.solve_congr same ?_ tolerance?
    rw [Linear.Engine.formats_after, Linear.Engine.formats_after, same]
  · intro rows constants tolerance accepted
    exact ⟨_, Linear.Engine.run_setTolerance_of_accepted accepted,
      Linear.Engine.solve_of_accepted accepted⟩

/-- A search after a tolerance was set, and a failed search with that tolerance before one that was
refused, come to the same. -/
theorem solve_forgets_calls_after_failure :
    let first : Root.Engine .newtonRaphson Formula.Error := .make {} Formula.evaluator
    let e := first.after [.setTolerance 0.5, .solve "x^2 - 2" (1.5 : Float) none]
    let e' := first.after [.solve "1/0" (0.0 : Float) (some 0.5), .setTolerance 0.0]
    e.settings = e'.settings ∧
      e.solve "x - 3" (1.0 : Float) none = e'.solve "x - 3" (1.0 : Float) none ∧
      ∃ set, (Root.Engine.setTolerance 0.25).run e = .ok () set ∧
        e.solve "x - 3" (1.0 : Float) (some 0.25) = set.solve "x - 3" (1.0 : Float) none := by
  intro first e e'
  have accepted : isTolerance 0.5 = true := by decide +kernel
  have refused : isTolerance 0.0 = false := by decide +kernel
  have same : e.settings = e'.settings := by
    simp only [e, e', Root.Engine.after, List.foldl_cons, List.foldl_nil, Root.Engine.call,
      Root.Engine.run_setTolerance_of_accepted accepted,
      Root.Engine.run_setTolerance_of_refused refused, Root.Engine.solve_of_accepted accepted,
      Root.Engine.solve_none]
    rfl
  have forgets := solve_forgets_calls.1 .newtonRaphson Formula.Error Formula.evaluator {} {}
    [.setTolerance 0.5, .solve "x^2 - 2" (1.5 : Float) none]
    [.solve "1/0" (0.0 : Float) (some 0.5), .setTolerance 0.0]
  exact ⟨same, forgets.1 same _ _ _, forgets.2 _ _ _ (by decide +kernel)⟩

end Stepwise
