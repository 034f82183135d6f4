import Scaffold.Proofs.Engine.Containment

/-!
# Validation

A recipe is checked as a whole before its first step is taken up.  Each tool checks the steps of its
kind; what it finds may be an error, which keeps the recipe from running, or a warning, which does not.

A check is told the variables and the answers that are known, and whether there is a model.  But what
could still be supplied when a step runs, a parameter of an action or the answer to a prompt, is never
more than a warning.  So the errors are those of the recipe alone: with other variables, other answers,
with a model or without, the same recipe has the same errors.  In particular a recipe that was admitted
to its first pass is admitted to the second.

Where there are errors the execution is refused at once and has done nothing.
-/

namespace Scaffold

open Run

/-! ## Errors of a check -/

namespace Findings

/-- Two checks find the same errors, with the same suggestions; their warnings may differ. -/
structure Concur (a b : Findings) : Prop where
  errors : a.errors = b.errors
  suggestions : a.suggestions = b.suggestions

namespace Concur

variable {a a' b b' : Findings}

theorem refl (a : Findings) : Concur a a := ⟨rfl, rfl⟩

theorem append (h : Concur a a') (h' : Concur b b') : Concur (a ++ b) (a' ++ b') :=
  ⟨congrArg₂ _ h.errors h'.errors, congrArg₂ _ h.suggestions h'.suggestions⟩

theorem valid (h : Concur a b) : a.valid = b.valid := by rw [Findings.valid, h.errors, Findings.valid]

end Concur

theorem concur_warnIf (p q : Bool) (m n : String) : Concur (warnIf p m) (warnIf q n) := by
  cases p <;> cases q <;> exact ⟨rfl, rfl⟩

end Findings

open Findings

/-! ## Tools -/

/-- A parameter of an action that cannot be supplied yet is no error. -/
theorem ActionStep.check_concur (a : ActionStep) (actions : Actions) (step : Step)
    (values values' : Record Value) :
    Concur (a.check actions step values) (a.check actions step values') := by
  unfold ActionStep.check
  split
  · exact .refl _
  · split
    · exact .refl _
    · exact ⟨rfl, rfl⟩

/-- Neither is an answer that nobody could give yet. -/
theorem AiStep.check_concur (a : AiStep) (step : Step) (c c' : StepContext) :
    Concur (a.check step c) (a.check step c') :=
  (Concur.refl _).append (concur_warnIf _ _ _ _)

/-- What a tool finds wrong with a step does not depend on what is known when it is checked. -/
theorem Tool.check_concur {sh : Shell} {actions : Actions} {t : Tool}
    (ht : t ∈ Tools.standard sh actions) (step : Step) (c c' : StepContext)
    (values values' : Record Value) : Concur (t.check step c values) (t.check step c' values') := by
  simp only [Tools.standard, List.mem_cons, List.not_mem_nil, or_false] at ht
  rcases ht with rfl | rfl | rfl | rfl | rfl | rfl | rfl
  · dsimp only [Tool.action]
    split
    · exact ActionStep.check_concur _ actions step values values'
    · exact .refl _
  · exact .refl _
  · exact .refl _
  · exact .refl _
  · exact .refl _
  · exact .refl _
  · dsimp only [Tool.model]
    split
    · exact AiStep.check_concur _ step c c'
    · exact .refl _

theorem Tool.validate_concur {sh : Shell} {actions : Actions} {t : Tool}
    (ht : t ∈ Tools.standard sh actions) (step : Step) (c c' : StepContext)
    (values values' : Record Value) :
    Concur (t.validate step c values) (t.validate step c' values') := by
  unfold Tool.validate
  split
  · exact Tool.check_concur ht step c c' values values'
  · exact .refl _

namespace Engine

variable {e e' : Engine} {r : Recipe} {b b' : Bindings} {options options' : Options}
  {answers answers' : Record String}

/-! ## Recipes -/

section

variable (own : ∀ t ∈ e.tools, ∃ sh actions, t ∈ Tools.standard sh actions)
  (same : e'.tools = e.tools)

include own same

theorem validateStep_concur (values values' : Record Value) (answers answers' : Record String)
    (step : Step) :
    Concur (e.validateStep r values answers step) (e'.validateStep r values' answers' step) := by
  unfold validateStep
  rw [same]
  split
  · exact .refl _
  next t found =>
    obtain ⟨sh, actions, ht⟩ := own t (Tools.get?_eq_some found).1
    exact Tool.validate_concur ht step _ _ values values'

theorem validate_concur (values values' : Record Value) (answers answers' : Record String) :
    Concur (e.validate r values answers) (e'.validate r values' answers') := by
  -- from the first step to the last, what was found so far concurs
  have fold (steps : List Step) (f f' : Findings) (h : Concur f f') :
      Concur (steps.foldl (fun f s => f ++ e.validateStep r values answers s) f)
        (steps.foldl (fun f s => f ++ e'.validateStep r values' answers' s) f') := by
    induction steps generalizing f f' with
    | nil => exact h
    | cons s rest ih =>
      exact ih _ _ (h.append (validateStep_concur own same values values' answers answers' s))
  exact fold r.steps {} {} (.refl _)

end

/-! ## Refusals -/

/-- An execution was refused, for the problems of the recipe. -/
def Refused (o : Except Failure RecipeResult) : Prop :=
  ∃ problems recipe, o = .error (.recipeInvalid problems recipe)

/-- A recipe that is valid is never refused, whatever else may end its execution. -/
theorem not_refused_of_valid (valid : (e.validate r b.merged answers).valid = true) (s : Session) :
    ¬ Refused ((e.execute r b options answers).on s).1 := by
  rintro ⟨problems, recipe, refused⟩
  rcases mapM_cases (·.outcome) (e.history r b options answers s) with
    ⟨-, os, results⟩ | ⟨u, hu, f, raises, -⟩
  · rw [execute_on_valid valid s] at refused
    dsimp only at refused
    rw [results] at refused
    cases refused
  · -- what a turn raises is the failure of a template
    rw [execute_raises hu raises] at refused
    cases refused
    rcases turn_cases hu with ⟨-, -, o, outcome⟩ | ⟨-, fault, -, outcome, -⟩
    · cases outcome.symm.trans raises
    · obtain same := Except.error.inj (outcome.symm.trans raises)
      cases fault <;> cases same

theorem refused_iff (s : Session) :
    Refused ((e.execute r b options answers).on s).1 ↔
      (e.validate r b.merged answers).errors ≠ [] := by
  have valid_iff : (e.validate r b.merged answers).valid = false ↔
      (e.validate r b.merged answers).errors ≠ [] := by
    simp [Findings.valid]
  rw [← valid_iff]
  cases valid : (e.validate r b.merged answers).valid with
  | true => simpa using not_refused_of_valid valid s
  | false =>
    rw [execute_refused valid]
    exact iff_of_true ⟨_, _, rfl⟩ rfl

/-- The errors of a recipe are those of its own, whatever is known when it is checked.  Where there are
any, every execution of the recipe is refused for them and does nothing; and where one execution was not
refused, none is, be it with other variables, other answers, or a model where there was none. -/
theorem validate_settles (own : ∀ t ∈ e.tools, ∃ sh actions, t ∈ Tools.standard sh actions)
    (same : e'.tools = e.tools) (r : Recipe) :
    (∀ values values' answers answers',
      (e.validate r values answers).errors = (e'.validate r values' answers').errors) ∧
    (∀ values answers, (e.validate r values answers).errors ≠ [] →
      ∀ b options answers' s, e'.history r b options answers' s = [] ∧
        (e'.execute r b options answers').on s =
          (.error (.recipeInvalid ((e.validate r values answers).errors ++
            (e.validate r values answers).suggestions) (some r.name)), s)) ∧
    ∀ b options answers s, ¬ Refused ((e.execute r b options answers).on s).1 →
      ∀ b' options' answers' s', ¬ Refused ((e'.execute r b' options' answers').on s').1 := by
  have concur := validate_concur (r := r) own same
  refine ⟨fun values values' answers answers' => (concur values values' answers answers').errors,
    fun values answers errors b options answers' s => ?_,
    fun b options answers s admitted b' options' answers' s' refused => ?_⟩
  · have found := concur values b.merged answers answers'
    have invalid : (e'.validate r b.merged answers').valid = false := by
      rw [← found.valid]
      simpa [Findings.valid] using errors
    refine ⟨history_of_invalid invalid s, ?_⟩
    rw [execute_refused invalid, found.errors, found.suggestions]
  · rw [refused_iff, ← (concur b.merged b'.merged answers answers').errors] at refused
    exact admitted ((refused_iff s).mpr refused)

end Engine

/-! ## A recipe with doubts, and one with an error -/

namespace Doubtful

/-- An action that needs to be told where to. -/
def publish : Action where
  name := "publish"
  parameters := [{ name := "place", required := true }]
  handler _ _ := return {}

def actions : Actions := Actions.register [] publish

/-- A recipe that asks for a note and publishes it. -/
def recipe (prompt : String) : Recipe where
  name := "doubtful"
  steps := [{ name := "note", body := .ai { prompt } },
    { name := "publish", body := .action { action := "publish" } }]

def engine : Engine where
  project := .ofString "/project"
  tools := .standard (fun _ _ => .error .noProgram) actions

def known : Bindings := { values := [("place", .str "/srv")] }

/-- A session in which prompts are collected. -/
def collecting : Session := { collector := Collector.enter {} }

/-- At first there are doubts about both steps, later there are none; the recipe is admitted both times.
Without a prompt it never is. -/
theorem admitted_twice : (engine.validate (recipe "Write a note.")).warnings.length = 2 ∧
    (engine.validate (recipe "Write a note.") known.merged [("note", "a note")]).warnings = [] ∧
    ¬ Engine.Refused ((engine.execute (recipe "Write a note.") {}).on collecting).1 ∧
    ¬ Engine.Refused ((engine.execute (recipe "Write a note.") known {} [("note", "a note")]).on {}).1 ∧
    ((engine.execute (recipe " ") known {} [("note", "a note")]).on {}).1 =
      .error (.recipeInvalid ["Step 'note': prompt is required"] (some "doubtful")) := by
  have own : ∀ t ∈ engine.tools, ∃ sh actions, t ∈ Tools.standard sh actions := fun t ht => ⟨_, _, ht⟩
  have first : ¬ Engine.Refused ((engine.execute (recipe "Write a note.") {}).on collecting).1 := by
    rw [Engine.refused_iff]
    decide +kernel
  have second := (Engine.validate_settles own rfl (recipe "Write a note.")).2.2 {} {} [] collecting
    first known {} [("note", "a note")] {}
  have problems : (engine.validate (recipe " ")).errors = ["Step 'note': prompt is required"] ∧
      (engine.validate (recipe " ")).suggestions = [] := by decide +kernel
  have refused := (Engine.validate_settles own rfl (recipe " ")).2.1 [] [] (by simp [problems.1]) known {}
    [("note", "a note")] {}
  refine ⟨by decide +kernel, by decide +kernel, first, second, ?_⟩
  rw [refused.2, problems.1, problems.2]
  rfl

end Doubtful

end Scaffold
