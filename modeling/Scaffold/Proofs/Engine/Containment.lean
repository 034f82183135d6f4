import Scaffold.Proofs.Engine.Shape
import Scaffold.Proofs.Failing

/-!
# What becomes of failures

An execution refuses a recipe that is not valid before any step is taken up.  From then on a tool may
raise whatever it likes: the failure becomes the failed entry of its step, with its kind and its message,
and the execution returns.

The variables of a step are prepared before its tool has a say, and outside the guard around the tool.
An override whose text cannot be rendered, because it names a filter that there is none of or a value
that cannot be written, therefore ends the whole execution with a failure that is none of the domain.
That is the only way out: an execution contains all failures exactly where every step that it takes up
has overrides that render.
-/

namespace Scaffold

open Run

/-! ## Overrides -/

/-- All texts among the overrides of a step can be rendered. -/
def Step.Renders (s : Step) (b : Bindings) : Prop :=
  ∀ k text, (k, Value.str text) ∈ s.overrides → ∃ x, Template.render text b.merged = .ok x

theorem Failure.isDomain_ofTemplate (fault : Template.Fault) :
    (ofTemplate fault).isDomain = false := by
  cases fault <;> rfl

/-- The overrides of a step are there where all of them render; else the first that does not is the
failure of its template. -/
theorem Step.localVariables_cases (s : Step) (b : Bindings) :
    (s.Renders b ∧ ∃ here, s.localVariables b = .ok here) ∨
      (¬ s.Renders b ∧ ∃ fault, s.localVariables b = .error (.ofTemplate fault)) := by
  unfold Step.localVariables
  rcases mapM_cases _ s.overrides with ⟨all, here, mapped⟩ | ⟨⟨k, v⟩, mem, f, raised, mapped⟩
  · refine .inl ⟨fun k text mem => ?_, here, mapped⟩
    obtain ⟨y, rendered⟩ := all (k, .str text) mem
    cases result : Template.render text b.merged with
    | ok x => exact ⟨x, rfl⟩
    | error fault =>
      simp only [result] at rendered
      cases rendered
  · -- values of other kinds are taken as they are, so this one is a text
    cases v with
    | str text =>
      dsimp only at raised
      cases result : Template.render text b.merged with
      | ok x =>
        rw [result] at raised
        cases raised
      | error fault =>
        rw [result] at raised
        cases raised
        refine .inr ⟨fun renders => ?_, fault, mapped⟩
        obtain ⟨x, rendered⟩ := renders k text mem
        rw [result] at rendered
        cases rendered
    | _ => cases raised

theorem Step.values_cases (s : Step) (b : Bindings) (produced : Record Value)
    (answers : Record String) :
    (s.Renders b ∧ ∃ visible, s.values b produced answers = .ok visible) ∨
      (¬ s.Renders b ∧ ∃ fault, s.values b produced answers = .error (.ofTemplate fault)) := by
  unfold Step.values
  rcases s.localVariables_cases b with ⟨renders, here, h⟩ | ⟨fails, fault, h⟩
  · exact .inl ⟨renders, _, by rw [h]; rfl⟩
  · exact .inr ⟨fails, fault, by rw [h]; rfl⟩

namespace Engine

variable {e : Engine} {r : Recipe} {b : Bindings} {options : Options} {answers : Record String}

/-! ## Failures that a step meets -/

/-- The context in which the step of a turn runs. -/
def contextOf (e : Engine) (r : Recipe) (options : Options) (answers : Record String) (u : Turn) :
    StepContext :=
  { e.context r options answers u.earlier with
    simulate := u.before.collector.collecting && u.step.kind.mutatesFiles }

/-- A failure that comes up while the step of a turn is prepared or run. -/
inductive Meets (e : Engine) (r : Recipe) (options : Options) (answers : Record String) (u : Turn) :
    Failure → Prop where
  /-- The variables of the step cannot be prepared. -/
  | preparing {f : Failure} (unseen : u.visible = .error f) : Meets e r options answers u f
  /-- The tool of the step raises the failure. -/
  | running {f : Failure} {visible : Record Value} {tool : Tool} {t : Session}
      (sees : u.visible = .ok visible) (admitted : u.step.isExcluded visible = false)
      (now : (u.before.collector.collecting && u.step.kind.isDeferred) = false)
      (found : e.tools.get? u.step.kind = some tool)
      (raised : (tool.execute u.step (e.contextOf r options answers u)).on
        (u.before.begun u.step visible) = (.error f, t)) : Meets e r options answers u f

/-- Once the variables of a step are prepared, something comes of it, whatever its tool does. -/
theorem runStep_returns (s : Step) (c : StepContext) (st : Session) :
    ∃ o t, (e.runStep s c).on st = (.ok o, t) := by
  unfold runStep
  rw [on_bind_ok (on_get st)]
  split
  · exact ⟨_, _, rfl⟩
  dsimp only
  split
  · exact ⟨_, _, rfl⟩
  split
  · exact ⟨_, _, rfl⟩
  next tool _ =>
    rw [on_runTool]
    rcases (tool.execute s _).on st with ⟨f | o, t⟩
    · exact ⟨_, _, rfl⟩
    · exact ⟨_, _, rfl⟩

/-- A turn has a result where its step sees its variables, and else it raises what kept it from them and
leaves the session as it was. -/
theorem turn_cases {s : Session} {u : Turn} (hu : u ∈ e.history r b options answers s) :
    (u.step.Renders b ∧ (∃ visible, u.visible = .ok visible) ∧ ∃ o, u.outcome = .ok o) ∨
      (¬ u.step.Renders b ∧ ∃ fault, u.visible = .error (.ofTemplate fault) ∧
        u.outcome = .error (.ofTemplate fault) ∧ u.after = u.before) := by
  have seen := visible_of_mem_history hu
  rcases turn_runs hu with ⟨f, unseen, outcome, after⟩ | ⟨visible, sees, came⟩
  · rcases u.step.values_cases b u.before.scope.produced answers with
      ⟨-, visible, h⟩ | ⟨fails, fault, h⟩
    · cases unseen.symm.trans (seen.trans h)
    · obtain rfl : f = .ofTemplate fault := Except.error.inj (unseen.symm.trans (seen.trans h))
      exact .inr ⟨fails, fault, unseen, outcome, after⟩
  · rcases u.step.values_cases b u.before.scope.produced answers with
      ⟨renders, -⟩ | ⟨-, fault, h⟩
    · obtain ⟨o, t, result⟩ := e.runStep_returns u.step (e.context r options answers u.earlier)
        (u.before.begun u.step visible)
      rw [result] at came
      exact .inl ⟨renders, ⟨visible, sees⟩, o, (Prod.mk.inj came).1.symm⟩
    · cases sees.symm.trans (seen.trans h)

/-- What the tool of a step raises is the failure of the step. -/
theorem outcome_of_raised {s : Session} {u : Turn} {f : Failure}
    (hu : u ∈ e.history r b options answers s) (renders : u.step.Renders b)
    (met : e.Meets r options answers u f) : u.outcome = .ok (u.step.failed f.report) := by
  cases met with
  | preparing unseen =>
    rcases turn_cases hu with ⟨-, ⟨visible, sees⟩, -⟩ | ⟨fails, -⟩
    · rw [sees] at unseen
      cases unseen
    · exact absurd renders fails
  | @running visible tool t sees admitted now found raised =>
    have ran : (e.runStep u.step (e.context r options answers u.earlier)).on
        (u.before.begun u.step visible) =
          (runTool tool u.step (e.contextOf r options answers u)).on
            (u.before.begun u.step visible) :=
      runStep_on found admitted now
    rcases turn_runs hu with ⟨f, unseen, -⟩ | ⟨visible', sees', came⟩
    · cases unseen.symm.trans sees
    · obtain rfl : visible' = visible := Except.ok.inj (sees'.symm.trans sees)
      rw [ran, on_runTool, raised] at came
      exact (Prod.mk.inj came).1.symm

/-! ## Failures that end an execution -/

/-- A turn that raises a failure is the last one. -/
theorem turns_raise {earlier : Record StepResult} {steps : List Step} {st : Session} {u : Turn}
    {f : Failure} (hu : u ∈ e.turns r b options answers earlier steps st)
    (raises : u.outcome = .error f) :
    (e.turns r b options answers earlier steps st).mapM (·.outcome) = Except.error f ∧
      leaves st (e.turns r b options answers earlier steps st) = u.after := by
  induction steps generalizing earlier st with
  | nil => cases hu
  | cons s rest ih =>
    cases outcome : (e.turn r b options answers earlier s st).outcome with
    | error f' =>
      rw [turns_of_error outcome] at hu ⊢
      obtain rfl := List.mem_singleton.mp hu
      obtain rfl : f' = f := Except.error.inj (outcome.symm.trans raises)
      refine ⟨?_, rfl⟩
      rw [List.mapM_cons, outcome]
      rfl
    | ok o =>
      cases success : o.success with
      | false =>
        rw [turns_of_failed outcome success] at hu
        obtain rfl := List.mem_singleton.mp hu
        cases outcome.symm.trans raises
      | true =>
        rw [turns_of_success outcome success] at hu ⊢
        rcases List.mem_cons.mp hu with rfl | hu
        · cases outcome.symm.trans raises
        · obtain ⟨results, left⟩ := ih hu
          refine ⟨?_, left⟩
          rw [List.mapM_cons, outcome, results]
          rfl

theorem valid_of_mem_history {s : Session} {u : Turn} (hu : u ∈ e.history r b options answers s) :
    (e.validate r b.merged answers).valid = true := by
  cases valid : (e.validate r b.merged answers).valid with
  | true => rfl
  | false =>
    rw [history_of_invalid valid s] at hu
    cases hu

/-- What a turn raises the execution raises, with the session that the turn leaves. -/
theorem execute_raises {s : Session} {u : Turn} {f : Failure}
    (hu : u ∈ e.history r b options answers s) (raises : u.outcome = .error f) :
    (e.execute r b options answers).on s = (.error f, u.after) := by
  have valid := valid_of_mem_history hu
  have turned : e.history r b options answers s =
      e.turns r b options answers [] r.steps (s.opened r) := history_of_valid valid s
  have raised := turns_raise (by rw [← turned]; exact hu) raises
  rw [← turned] at raised
  rw [execute_on_valid valid s]
  dsimp only
  rw [raised.1, raised.2]

/-! ## Containment -/

/-- No failure escapes an execution: it refuses the recipe and has done nothing, or it returns, and every
failure that a step met is the failed entry of that step. -/
inductive Contained (e : Engine) (r : Recipe) (b : Bindings) (options : Options)
    (answers : Record String) (s : Session) : Except Failure RecipeResult × Session → Prop where
  | refused {problems : List String} (untouched : e.history r b options answers s = []) :
      Contained e r b options answers s (.error (.recipeInvalid problems (some r.name)), s)
  | returned {o : RecipeResult} {t : Session}
      (entered : ∀ u ∈ e.history r b options answers s, ∀ f, e.Meets r options answers u f →
        u.outcome = .ok (u.step.failed f.report) ∧ u.step.failed f.report ∈ o.steps) :
      Contained e r b options answers s (.ok o, t)

/-- Where the overrides of all steps taken up render, the execution contains its failures. -/
theorem contained_of_renders {s : Session}
    (renders : ∀ u ∈ e.history r b options answers s, u.step.Renders b) :
    e.Contained r b options answers s ((e.execute r b options answers).on s) := by
  cases valid : (e.validate r b.merged answers).valid with
  | false =>
    rw [execute_refused valid]
    exact .refused (history_of_invalid valid s)
  | true =>
    rw [execute_on_valid valid s]
    rcases mapM_cases (·.outcome) (e.history r b options answers s) with
      ⟨-, os, results⟩ | ⟨u, hu, f, raises, -⟩
    · dsimp only
      rw [results]
      refine .returned fun u hu f met => ?_
      have failed := outcome_of_raised hu (renders u hu) met
      obtain ⟨o, entered, outcome⟩ := exists_of_forall₂ (mapM_eq_ok.mp results) hu
      obtain rfl := Except.ok.inj (failed.symm.trans outcome)
      exact ⟨failed, entered⟩
    · -- a turn raises only where its overrides do not render
      rcases turn_cases hu with ⟨-, -, o, outcome⟩ | ⟨fails, -⟩
      · cases outcome.symm.trans raises
      · exact absurd (renders u hu) fails

/-- An execution contains its failures exactly where the overrides of all steps that it takes up render.
Where those of a step do not, the failure of the template ends the execution at that step. -/
theorem contained_iff_renders (s : Session) :
    (e.Contained r b options answers s ((e.execute r b options answers).on s) ↔
      ∀ u ∈ e.history r b options answers s, u.step.Renders b) ∧
    ∀ u ∈ e.history r b options answers s, ¬ u.step.Renders b →
      ∃ f, u.visible = .error f ∧ f.isDomain = false ∧
        (e.execute r b options answers).on s = (.error f, u.before) := by
  have escapes : ∀ u ∈ e.history r b options answers s, ¬ u.step.Renders b →
      ∃ f, u.visible = .error f ∧ f.isDomain = false ∧
        (e.execute r b options answers).on s = (.error f, u.before) := by
    intro u hu fails
    rcases turn_cases hu with ⟨renders, -⟩ | ⟨-, fault, unseen, raises, after⟩
    · exact absurd renders fails
    · refine ⟨_, unseen, Failure.isDomain_ofTemplate fault, ?_⟩
      rw [execute_raises hu raises, after]
  refine ⟨⟨fun contained u hu => ?_, contained_of_renders⟩, escapes⟩
  by_contra fails
  obtain ⟨f, -, foreign, raised⟩ := escapes u hu fails
  rw [raised] at contained
  cases contained with
  | refused _ => cases foreign

end Engine

/-! ## One filter that there is none of -/

namespace Unfiltered

/-- A text that asks for an unknown filter. -/
def text : String := "\x7b\x7b b | bogus \x7d\x7d"

/-- A recipe that adds a file and then prints something, the latter with an override. -/
def recipe (message : String) (overrides : Record Value) : Recipe where
  name := "unfiltered"
  steps := [{ name := "add", body := .add { target := "a.txt", body := some "one" } },
    { name := "echo", body := .echo { message }, overrides }]

def engine : Engine where
  project := .ofString "/project"
  tools := .standard (fun _ _ => .error .noProgram) []

/-- Where the text is the message of the step, its failure is contained. -/
theorem message_contained :
    (∀ u ∈ engine.history (recipe text []) {} {} [] {}, u.step.Renders {}) ∧
      engine.Contained (recipe text []) {} {} [] {} ((engine.execute (recipe text []) {}).on {}) ∧
      ((engine.execute (recipe text []) {}).on {}).1.toOption.map (fun o => o.steps.map (·.error)) =
        some [none, some "ValueError: Unknown template filter: bogus"] := by
  have renders : ∀ u ∈ engine.history (recipe text []) {} {} [] {}, u.step.Renders {} := by
    intro u hu k text mem
    -- neither step has overrides
    rcases List.mem_pair.mp (Engine.mem_history hu).2 with step | step <;> rw [step] at mem <;> cases mem
  exact ⟨renders, (Engine.contained_iff_renders {}).1.mpr renders, by decide +kernel⟩

/-- Where it is an override of the step its failure escapes, with the file already in place. -/
theorem override_escapes : ∃ t,
    (engine.execute (recipe "x" [("a", .str text)]) {}).on {} =
      (.error (.badValue "Unknown template filter: bogus"), t) ∧
    t.tree.isFile (.ofString "/project/a.txt") = true ∧
    ¬ engine.Contained (recipe "x" [("a", .str text)]) {} {} [] {}
      ((engine.execute (recipe "x" [("a", .str text)]) {}).on {}) := by
  have raised : (match ((engine.execute (recipe "x" [("a", .str text)]) {}).on {}).1 with
      | .error f => some f
      | .ok _ => none) = some (.badValue "Unknown template filter: bogus") := by
    decide +kernel
  have added : ((engine.execute (recipe "x" [("a", .str text)]) {}).on {}).2.tree.isFile
      (.ofString "/project/a.txt") = true := by
    decide +kernel
  rcases same : (engine.execute (recipe "x" [("a", .str text)]) {}).on {} with ⟨f | o, t⟩
  · rw [same] at raised added
    obtain rfl := Option.some.inj raised
    refine ⟨t, rfl, added, ?_⟩
    intro contained
    cases contained
  · rw [same] at raised
    cases raised

end Unfiltered

end Scaffold
