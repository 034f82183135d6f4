import Mathlib.Data.List.Basic
import Scaffold.Proofs.Engine.Turns

/-!
# What becomes of delivered text

A step that asks a model may hand its text on as a variable.  The text is the unfenced answer where
that passes its checks, or what comes in its place: a fallback, or text that was generated and passes.

The variable is then set for the steps behind it.  But the answers of an execution are themselves
variables of every step, above all others.  So a step behind sees the text that was delivered exactly
where there is no answer under the name of the variable, or the answer under that name is that text.
Where the variable has the name of the answer, as it has unless an output names another, the steps behind
see the answer as it was given: fenced if it was fenced, and even where it was refused.
-/

namespace Scaffold

open Run Session

/-! ## Text that is admitted -/

/-- A text passes the checks. -/
def Guardrails.Passes (g : Guardrails) (text : String) : Prop :=
  ∃ report, g.check text = .ok report ∧ report.passed = true

/-- A text that a model wrote passes the checks, or it is the fallback. -/
theorem Generator.attempts_admitted {g : Generator} {d : Demand} {left made : Nat} {prompt : String}
    {used : Usage} {spent : Binary64} {s t : Session} {o : Generated}
    (h : (g.attempts d left made prompt used spent).on s = (.ok o, t)) :
    d.guardrails.Passes o.text ∨ fallback? d.guardrails = some o.text := by
  -- only the last attempt may fall back; each attempt before it either passes or tries again
  induction left generalizing made prompt used spent s with
  | zero =>
    obtain ⟨reply, s₁, _, h⟩ := on_bind_eq_ok h
    obtain ⟨st, s₂, _, h⟩ := on_bind_eq_ok h
    obtain ⟨report, s₃, checked, h⟩ := on_bind_eq_ok h
    rw [on_ofExcept] at checked
    split at h
    next passed =>
      cases h
      exact .inl ⟨report, (Prod.mk.inj checked).1, passed⟩
    next =>
      split at h
      next text fallback =>
        cases h
        exact .inr fallback
      next => cases h
  | succ left ih =>
    obtain ⟨reply, s₁, _, h⟩ := on_bind_eq_ok h
    obtain ⟨st, s₂, _, h⟩ := on_bind_eq_ok h
    obtain ⟨report, s₃, checked, h⟩ := on_bind_eq_ok h
    rw [on_ofExcept] at checked
    split at h
    next passed =>
      cases h
      exact .inl ⟨report, (Prod.mk.inj checked).1, passed⟩
    next => exact ih h

theorem Generator.generate_admitted {g : Generator} {d : Demand} {s t : Session} {o : Generated}
    (h : (g.generate d).on s = (.ok o, t)) :
    d.guardrails.Passes o.text ∨ fallback? d.guardrails = some o.text :=
  attempts_admitted h

namespace AiStep

variable {a : AiStep} {step : Step} {c : StepContext} {s t : Session} {x : String}

/-- The variable that a step hands its text on as, unless the text goes elsewhere. -/
def sets? (a : AiStep) (name : String) : Option String :=
  if (a.output.map (·.type)).getD "variable" = "variable" then
    some ((filled? (a.output.bind (·.target?))).getD (a.answerKey name))
  else none

/-- What a step may hand on. -/
inductive Provides (a : AiStep) (name : String) (c : StepContext) : String → Prop where
  /-- The answer without its fence, which passes the checks. -/
  | answer {answer : String} (given : c.answers.get? (a.answerKey name) = some answer)
      (passes : a.guardrails.Passes (Check.unfence answer)) : Provides a name c (Check.unfence answer)
  /-- The fallback in the place of an answer that does not pass. -/
  | fallback {answer text : String} {report : Check.Report}
      (given : c.answers.get? (a.answerKey name) = some answer)
      (checked : a.guardrails.check (Check.unfence answer) = .ok report)
      (refused : report.passed = false) (policy : a.guardrails.onFailure = .fallback)
      (fallback : a.guardrails.fallback = some text) : Provides a name c text
  /-- A text that was generated, in the place of an answer that is missing or does not pass. -/
  | generated {text : String} (model : c.generator.isSome = true)
      (admitted : a.guardrails.Passes text ∨ Generator.fallback? a.guardrails = some text) :
      Provides a name c text

theorem generate_admitted {prompt : Option String}
    (h : (a.generate step c prompt).on s = (.ok x, t)) :
    c.generator.isSome = true ∧
      (a.guardrails.Passes x ∨ Generator.fallback? a.guardrails = some x) := by
  unfold AiStep.generate at h
  dsimp only at h
  split at h
  · cases h
  next g model =>
    refine ⟨by rw [model]; rfl, ?_⟩
    split at h
    · obtain ⟨p, s₁, _, h⟩ := on_bind_eq_ok h
      obtain ⟨made, s₂, asked, h⟩ := on_bind_eq_ok h
      cases h
      exact Generator.generate_admitted asked
    · obtain ⟨p, s₁, _, h⟩ := on_bind_eq_ok h
      obtain ⟨made, s₂, asked, h⟩ := on_bind_eq_ok h
      cases h
      exact Generator.generate_admitted asked

theorem checked_provides {answer : String}
    (given : c.answers.get? (a.answerKey step.name) = some answer)
    (h : (a.checked step c (Check.unfence answer)).on s = (.ok x, t)) :
    a.Provides step.name c x := by
  unfold checked at h
  obtain ⟨report, s₁, reported, h⟩ := on_bind_eq_ok h
  rw [on_ofExcept] at reported
  have checks : a.guardrails.check (Check.unfence answer) = .ok report := (Prod.mk.inj reported).1
  split at h
  next passed =>
    cases h
    exact .answer given ⟨report, checks, passed⟩
  next refused =>
    split at h
    next =>
      obtain ⟨p, s₂, _, h⟩ := on_bind_eq_ok h
      obtain ⟨model, admitted⟩ := generate_admitted h
      exact .generated model admitted
    next text policy fallback =>
      cases h
      exact .fallback given checks (by simpa using refused) policy fallback
    next => cases h

theorem guarded_eq_ok {r : Run StepResult} {o : StepResult}
    (h : (guarded step r).on s = (.ok o, t)) (success : o.success = true) : r.on s = (.ok o, t) := by
  obtain ⟨attempted, s₁, tried, h⟩ := on_bind_eq_ok h
  rw [on_attempt] at tried
  cases tried
  rcases hr : r.on s with ⟨f | o', s₂⟩ <;> simp only [hr] at h
  · -- a failure that is caught makes a result that is no success
    split at h
    · cases h
      cases success
    · cases h
  · cases h
    rfl

theorem deliver_variable {v text : String} {o : StepResult} (hv : a.sets? step.name = some v)
    (h : (a.deliver step c text).on s = (.ok o, t)) :
    o.output = .str text ∧ t.scope.produced.get? v = some (.str text) := by
  unfold sets? at hv
  split at hv
  next type =>
    simp only [Option.some.injEq] at hv
    unfold AiStep.deliver at h
    simp only [type, hv] at h
    rw [on_bind_ok (on_setVariable _ _ s)] at h
    cases h
    refine ⟨rfl, ?_⟩
    simp [Scope.set, Record.get?_put]
  next => cases hv

/-- A step that hands a text on has set its variable to that text. -/
theorem execute_delivers {v : String} {o : StepResult} (hv : a.sets? step.name = some v)
    (h : (a.execute step c).on s = (.ok o, t)) (completed : o.status = .completed)
    (output : o.output = .str x) :
    t.scope.produced.get? v = some (.str x) ∧ a.Provides step.name c x := by
  have success : o.success = true := by
    rw [StepResult.success, completed]
    rfl
  have delivered {text : String} {s' : Session} (run : (a.deliver step c text).on s' = (.ok o, t)) :
      t.scope.produced.get? v = some (.str x) ∧ text = x := by
    obtain ⟨output', produced⟩ := deliver_variable hv run
    rw [output] at output'
    cases output'
    exact ⟨produced, rfl⟩
  unfold AiStep.execute at h
  split at h
  next answer given =>
    obtain ⟨text, s₁, checked, run⟩ := on_bind_eq_ok (guarded_eq_ok h success)
    obtain ⟨produced, rfl⟩ := delivered run
    exact ⟨produced, checked_provides given checked⟩
  next =>
    obtain ⟨st, s₁, _, h⟩ := on_bind_eq_ok h
    split at h
    next =>
      -- what is collected puts out nothing
      obtain ⟨_, _, _, h⟩ := on_bind_eq_ok h
      obtain ⟨_, _, _, h⟩ := on_bind_eq_ok h
      obtain ⟨_, _, _, h⟩ := on_bind_eq_ok h
      cases h
      cases output
    next =>
      obtain ⟨text, s₂, generated, run⟩ := on_bind_eq_ok (guarded_eq_ok h success)
      obtain ⟨produced, rfl⟩ := delivered run
      obtain ⟨model, admitted⟩ := generate_admitted generated
      exact ⟨produced, .generated model admitted⟩

end AiStep

/-! ## Turns that hand text on -/

namespace Turn

/-- The step of a turn has handed a text on as a variable. -/
def Delivers (t : Turn) (a : AiStep) (v x : String) : Prop :=
  t.step.body = .ai a ∧ a.sets? t.step.name = some v ∧
    ∃ o, t.outcome = .ok o ∧ o.status = .completed ∧ o.output = .str x

/-- A turn has not set a variable to anything else. -/
def Leaves (t : Turn) (v : String) : Prop :=
  t.after.scope.produced.get? v = t.before.scope.produced.get? v

end Turn

namespace Engine

variable {e : Engine} {r : Recipe} {b : Bindings} {options : Options} {answers : Record String}

/-- A step that its tool completes was run by its tool. -/
theorem runStep_completed {s : Step} {c : StepContext} {tool : Tool} {st t : Session} {o : StepResult}
    (found : e.tools.get? s.kind = some tool)
    (h : (e.runStep s c).on st = (.ok o, t)) (completed : o.status = .completed) :
    (tool.execute s { c with simulate := st.collector.collecting && s.kind.mutatesFiles }).on st =
      (.ok o, t) := by
  -- the ways past the tool skip the step or fail it, and neither completes it
  unfold runStep at h
  rw [on_bind_ok (on_get st)] at h
  split at h
  · cases h
    cases completed
  dsimp only at h
  split at h
  · cases h
    cases completed
  rw [found] at h
  unfold runTool at h
  obtain ⟨attempted, s₁, tried, h⟩ := on_bind_eq_ok h
  rw [on_attempt] at tried
  cases tried
  rcases hr : (tool.execute s
    { c with simulate := st.collector.collecting && s.kind.mutatesFiles }).on st with ⟨f | o', s₂⟩ <;>
      simp only [hr] at h
  · cases h
    cases completed
  · cases h
    rfl

theorem turn_delivers {t : Turn} {a : AiStep} {v x : String}
    (model : e.tools.get? .ai = some .model)
    (ht : t = e.turn r b options answers t.earlier t.step t.before) (h : t.Delivers a v x) :
    t.after.scope.produced.get? v = some (.str x) ∧
      a.Provides t.step.name (e.context r options answers t.earlier) x := by
  obtain ⟨body, hv, o, outcome, completed, output⟩ := h
  have kind : t.step.kind = .ai := congrArg StepBody.kind body
  have run : (e.step r b options answers t.earlier t.step).on t.before = (.ok o, t.after) := by
    rw [← outcome, ht]
    rfl
  rcases seen : t.step.values b t.before.scope.produced answers with f | visible
  · rw [step_on_error seen] at run
    cases run
  · rw [step_on_ok seen] at run
    have found : e.tools.get? t.step.kind = some .model := by rw [kind, model]
    have executed := runStep_completed found run completed
    simp only [Tool.model, body, kind, StepKind.mutatesFiles, Bool.and_false] at executed
    exact AiStep.execute_delivers hv executed completed output

instance leavesPreorder (v : String) :
    IsPreorder Session fun s t => t.scope.produced.get? v = s.scope.produced.get? v where
  refl _ := rfl
  trans _ _ _ h h' := h'.trans h

theorem get?_asValues (answers : Record String) (v : String) :
    (asValues answers).get? v = (answers.get? v).map .str :=
  Record.get?_map (fun _ => Value.str) answers v

/-- The variables of a step come in layers: the answers above what steps have set, this above the values
of the caller, these above the step's own overrides, and those above the defaults. -/
theorem get?_layers {s : Step} {produced visible : Record Value}
    (h : s.values b produced answers = .ok visible) :
    ∃ here, s.localVariables b = .ok here ∧ ∀ k, visible.get? k =
      ((answers.get? k).map .str).or ((produced.get? k).or ((b.values.get? k).or
        ((here.get? k).or (b.defaults.get? k)))) := by
  unfold Step.values at h
  rcases rendered : s.localVariables b with f | here <;> rw [rendered] at h
  · cases h
  · cases h
    refine ⟨here, rfl, fun k => ?_⟩
    simp only [Record.get?_merge, get?_asValues]

/-- What steps have set is seen unless an answer stands above it. -/
theorem get?_values {s : Step} {produced visible : Record Value}
    (h : s.values b produced answers = .ok visible) {v : String} {x : Value}
    (set : produced.get? v = some x) :
    visible.get? v = some (((answers.get? v).map .str).getD x) := by
  obtain ⟨here, -, layers⟩ := get?_layers h
  rw [layers, set]
  cases answers.get? v <;> rfl

/-- Which text a later step sees in the place of one that was handed on to it. -/
theorem sees_delivered_iff (model : e.tools.get? .ai = some .model)
    {s : Session} {before between behind : List Turn}
    {t u : Turn} (h : e.history r b options answers s = before ++ t :: (between ++ u :: behind))
    {a : AiStep} {v x : String} (delivers : t.Delivers a v x)
    (leaves : ∀ m ∈ between, m.Leaves v) {visible : Record Value} (sees : u.visible = .ok visible) :
    a.Provides t.step.name (e.context r options answers t.earlier) x ∧
      visible.get? v = some (.str ((answers.get? v).getD x)) ∧
      (visible.get? v = some (.str x) ↔ ∀ answer, answers.get? v = some answer → answer = x) := by
  have chained : Chained (s.opened r) (before ++ t :: (between ++ u :: behind)) := by
    rw [← h]
    exact history_chained s
  have ht : t ∈ e.history r b options answers s := by simp [h]
  have hu : u ∈ e.history r b options answers s := by simp [h]
  obtain ⟨produced, provides⟩ := turn_delivers model (mem_history ht).1 delivers
  have kept : u.before.scope.produced.get? v = t.after.scope.produced.get? v :=
    (Chained.after chained).keeps (R := fun s t =>
      t.scope.produced.get? v = s.scope.produced.get? v) leaves
  have values : u.step.values b u.before.scope.produced answers = .ok visible := by
    rw [← sees, (mem_history hu).1]
    rfl
  have seen := get?_values values (kept.trans produced)
  refine ⟨provides, ?_, ?_⟩
  · rw [seen]
    cases answers.get? v <;> rfl
  · rw [seen]
    cases answers.get? v with
    | none => simp
    | some answer => simp

end Engine

/-! ## A fenced answer -/

namespace Fenced

/-- A step that asks for some code. -/
def asking : AiStep := { key := some "code", prompt := "Write some code." }

/-- A recipe that asks for some code and adds a file with it. -/
def recipe : Recipe where
  name := "fenced"
  steps := [{ name := "ask", body := .ai asking },
    { name := "add", body := .add { target := "a.txt", body := some "\x7b\x7b code \x7d\x7d" } }]

def engine : Engine where
  project := .ofString "/project"
  tools := .standard (fun _ _ => .error .noProgram) []

/-- The answer stands in a fence. -/
def answers : Record String := [("code", "```\nconst a = 1\n```")]

/-- The text that the step of a turn put out. -/
def outputOf (t : Turn) : Option String :=
  match t.outcome with
  | .ok { status := .completed, output := .str x, .. } => some x
  | _ => none

/-- What the step of a turn sees of the code. -/
def codeSeen (t : Turn) : Option String :=
  match t.visible with
  | .ok visible => match visible.get? "code" with
    | some (.str x) => some x
    | _ => none
  | .error _ => none

theorem turns : ∃ t u visible, engine.history recipe {} {} answers {} = [t, u] ∧
    t.Delivers asking "code" "const a = 1" ∧ u.visible = .ok visible ∧
    visible.get? "code" = some (.str "```\nconst a = 1\n```") := by
  have shape : (engine.history recipe {} {} answers {}).length = 2 := by decide +kernel
  have output : (engine.history recipe {} {} answers {}).map outputOf = [some "const a = 1", none] := by
    decide +kernel
  have seen : (engine.history recipe {} {} answers {}).map codeSeen =
      [some "```\nconst a = 1\n```", some "```\nconst a = 1\n```"] := by decide +kernel
  have steps : (engine.history recipe {} {} answers {}).map (·.step) = recipe.steps :=
    (Engine.history_prefix {}).eq_of_length (by rw [List.length_map, shape]; rfl)
  obtain ⟨t, u, h⟩ := List.length_eq_two.mp shape
  rw [h] at output seen steps
  have step : t.step = { name := "ask", body := .ai asking } := (List.cons.inj steps).1
  have delivers : t.Delivers asking "code" "const a = 1" := by
    refine ⟨by rw [step], by rw [step]; decide, ?_⟩
    have put : outputOf t = some "const a = 1" := (List.cons.inj output).1
    unfold outputOf at put
    split at put
    next x outcome =>
      cases put
      exact ⟨_, outcome, rfl, rfl⟩
    next => cases put
  have sees : codeSeen u = some "```\nconst a = 1\n```" :=
    (List.cons.inj (List.cons.inj seen).2).1
  unfold codeSeen at sees
  split at sees
  next visible hvisible =>
    split at sees
    next x code =>
      cases sees
      exact ⟨t, u, visible, h, delivers, hvisible, code⟩
    next => cases sees
  next => cases sees

/-- The step behind does not see the text that was delivered. -/
theorem answer_covers_delivery : ∃ t u visible, engine.history recipe {} {} answers {} = [t, u] ∧
    t.Delivers asking "code" "const a = 1" ∧ u.visible = .ok visible ∧
    visible.get? "code" ≠ some (.str "const a = 1") := by
  obtain ⟨t, u, visible, h, delivers, sees, code⟩ := turns
  exact ⟨t, u, visible, h, delivers, sees, by simp [code]⟩

/-- What it sees is told by the answers. -/
theorem sees_answer : ∃ t u visible,
    engine.history recipe {} {} answers {} = [] ++ t :: ([] ++ u :: []) ∧
    engine.tools.get? .ai = some .model ∧ t.Delivers asking "code" "const a = 1" ∧
    u.visible = .ok visible ∧
    (visible.get? "code" = some (.str "const a = 1") ↔
      ∀ answer, answers.get? "code" = some answer → answer = "const a = 1") := by
  obtain ⟨t, u, visible, h, delivers, sees, _⟩ := turns
  have turned : engine.history recipe {} {} answers {} = [] ++ t :: ([] ++ u :: []) := h
  have seen := Engine.sees_delivered_iff rfl turned delivers (fun m hm => by cases hm) sees
  exact ⟨t, u, visible, turned, rfl, delivers, sees, seen.2.2⟩

end Fenced

end Scaffold
