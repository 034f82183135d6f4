import Mathlib.Data.List.Induction
import Scaffold.Proofs.Engine.Containment
import Scaffold.Proofs.Engine.Delivery
import Scaffold.Proofs.Engine.Shape
import Scaffold.Proofs.Failing
import Scaffold.Proofs.Tool.Effects
import Scaffold.Proofs.Value.Records

/-!
# The parameters of actions

By name a parameter is the first there is of: what the step itself gives, the variable that the step sees,
the default, and what an earlier step handed on, if the step reads it.  Variables and defaults count only
for names that the action declares.  All this is put together without anybody being asked.  Only then is a
required parameter asked for that is still missing.

An execution is checked with the defaults and the values of the caller.  A step sees these as well when it
runs, perhaps with other values: what stands above them, answers, what steps have set and its own
overrides, covers values but takes no name away.  So a required parameter that is not warned about when the
recipe is checked is there when the step runs, and nobody is asked for it.
-/

namespace Scaffold

open Run

/-- Runs that look at a session and leave it alone do so one after the other. -/
theorem Run.on_mapM {α β : Type} {f : α → Run β} {g : α → Except Failure β} {st : Session}
    (h : ∀ x, (f x).on st = (g x, st)) (xs : List α) : (xs.mapM f).on st = (xs.mapM g, st) := by
  induction xs with
  | nil => rfl
  | cons x xs ih =>
    rw [List.mapM_cons, List.mapM_cons, on_bind, h]
    cases g x with
    | error e => rfl
    | ok y =>
      refine (on_bind _ _ st).trans ?_
      rw [ih]
      cases xs.mapM g <;> rfl

/-! ## What is declared -/

/-- The default of a parameter, of which null is none. -/
def ActionParameter.default? (p : ActionParameter) : Option Value :=
  match p.default with
  | .null => none
  | v => some v

namespace Action

/-- Whether an action has a parameter of a name. -/
def declares (a : Action) (k : String) : Bool := a.parameters.any (·.name == k)

/-- The default under a name; where several parameters have it, the last default counts. -/
def default? (a : Action) (k : String) : Option Value :=
  a.parameters.reverse.findSome? fun p => if p.name = k then p.default? else none

theorem declares_of_mem {a : Action} {p : ActionParameter} (mem : p ∈ a.parameters) :
    a.declares p.name = true :=
  List.any_eq_true.mpr ⟨p, mem, by simp⟩

theorem isSome_default?_of_mem {a : Action} {p : ActionParameter} (mem : p ∈ a.parameters)
    (there : p.default?.isSome = true) : (a.default? p.name).isSome = true := by
  rw [default?, List.findSome?_isSome_iff]
  exact ⟨p, List.mem_reverse.mpr mem, by rwa [if_pos rfl]⟩

end Action

namespace ActionStep

variable {s : ActionStep} {a : Action} {step : Step} {visible shared params : Record Value}

/-- The last parameter is entered last, if there is a variable or a default for it. -/
theorem declared_concat (a : Action) (visible : Record Value) (ps : List ActionParameter)
    (p : ActionParameter) : declared { a with parameters := ps ++ [p] } visible =
      ((visible.get? p.name).or p.default?).elim (declared { a with parameters := ps } visible)
        ((declared { a with parameters := ps } visible).put p.name) := by
  unfold declared
  rw [List.foldl_append]
  dsimp only [List.foldl_cons, List.foldl_nil]
  rw [ActionParameter.default?]
  cases visible.get? p.name <;> cases p.default <;> rfl

theorem get?_declared_concat (a : Action) (visible : Record Value) (ps : List ActionParameter)
    (p : ActionParameter) (k : String) :
    (declared { a with parameters := ps ++ [p] } visible).get? k =
      (if p.name = k then (visible.get? k).or p.default? else none).or
        ((declared { a with parameters := ps } visible).get? k) := by
  rw [declared_concat]
  by_cases same : p.name = k
  · subst same
    rw [if_pos rfl]
    cases (visible.get? p.name).or p.default? with
    | none => rfl
    | some v => rw [Option.elim_some, Record.get?_put, if_pos rfl, Option.some_or]
  · rw [if_neg same, Option.none_or]
    cases (visible.get? p.name).or p.default? with
    | none => rfl
    | some v => rw [Option.elim_some, Record.get?_put, if_neg same]

/-- A declared parameter is a variable, or else its default. -/
theorem get?_declared (a : Action) (visible : Record Value) (k : String) :
    (declared a visible).get? k =
      (if a.declares k then visible.get? k else none).or (a.default? k) := by
  suffices ∀ ps : List ActionParameter, (declared { a with parameters := ps } visible).get? k =
      (if ps.any (·.name == k) then visible.get? k else none).or
        (ps.reverse.findSome? fun p => if p.name = k then p.default? else none) from this a.parameters
  intro ps
  induction ps using List.reverseRecOn with
  | nil => rfl
  | append_singleton ps p ih =>
    rw [get?_declared_concat, ih, List.any_append, List.reverse_append, List.reverse_singleton,
      List.singleton_append, List.findSome?_cons]
    by_cases same : p.name = k
    · -- a variable covers all defaults, and without one the last default counts
      simp only [same, if_true, List.any_cons, beq_self_eq_true, Bool.true_or, Bool.or_true]
      cases visible.get? k <;> cases p.default? <;> simp
    · simp [same]

/-- What was handed on is read where nothing else is there. -/
theorem get?_withShared (step : Step) (shared params : Record Value) (k : String) :
    (withShared step shared params).get? k =
      (params.get? k).or (if k ∈ step.reads then shared.get? k else none) := by
  unfold withShared
  induction step.reads generalizing params with
  | nil => simp
  | cons l reads ih =>
    rw [List.foldl_cons, ih]
    by_cases same : k = l
    · subst same
      cases there : shared.get? k with
      | none => simp
      | some v => simp [Record.get?_putNew]
    · have other : (if k ∈ l :: reads then shared.get? k else none) =
          if k ∈ reads then shared.get? k else none := by simp [same]
      rw [other]
      cases shared.get? l with
      | none => rfl
      | some v => simp [Record.get?_putNew, Ne.symm same]

/-! ## What is put together -/

/-- A parameter that a step gives, rendered if it is a text. -/
def renderedIn (visible : Record Value) : String × Value → Except Failure (String × Value)
  | (k, .str text) => do
    return (k, .str (← (Template.render text visible).mapError Failure.ofTemplate))
  | e => return e

/-- The parameters that a step gives, with its texts rendered. -/
def given (s : ActionStep) (visible : Record Value) : Except Failure (Record Value) :=
  s.parameters.mapM (renderedIn visible)

/-- The parameters that there are without anybody being asked. -/
def supplied (s : ActionStep) (a : Action) (step : Step) (visible shared : Record Value) :
    Except Failure (Record Value) :=
  (s.given visible).map (withShared step shared (declared a visible)).merge

/-- The first there is under a name, of what a step gives, a variable or default that is declared, and what
was handed on and is read. -/
def first? (a : Action) (step : Step) (given visible shared : Record Value) (k : String) : Option Value :=
  (given.get? k).or (((if a.declares k then visible.get? k else none).or (a.default? k)).or
    (if k ∈ step.reads then shared.get? k else none))

theorem get?_supplied (h : s.supplied a step visible shared = .ok params) :
    ∃ given, s.given visible = .ok given ∧ ∀ k, params.get? k = first? a step given visible shared k := by
  rw [supplied] at h
  cases rendered : s.given visible with
  | error f =>
    rw [rendered] at h
    cases h
  | ok given =>
    rw [rendered] at h
    cases h
    refine ⟨given, rfl, fun k => ?_⟩
    rw [Record.get?_merge, get?_withShared, get?_declared, first?]

theorem name_renderedIn {e e' : String × Value} (h : renderedIn visible e = .ok e') : e.1 = e'.1 := by
  unfold renderedIn at h
  split at h
  next text =>
    cases rendered : Template.render text visible <;> rw [rendered] at h <;> cases h
    rfl
  next =>
    cases h
    rfl

theorem keys_given {given : Record Value} (h : s.given visible = .ok given) :
    given.keys = s.parameters.keys := by
  have names : List.Forall₂ (· = ·) (s.parameters.map (·.1)) (given.map (·.1)) := by
    rw [List.forall₂_map_left_iff, List.forall₂_map_right_iff]
    exact (mapM_eq_ok.mp h).imp fun _ _ => name_renderedIn
  rw [List.forall₂_eq_eq_eq] at names
  exact names.symm

theorem on_rendered (c : StepContext) (st : Session) (e : String × Value) :
    (do return (e.1, ← rendered c e.2) : Run (String × Value)).on st =
      (renderedIn st.scope.visible e, st) := by
  obtain ⟨k, v⟩ := e
  cases v with
  | str text =>
    refine (on_bind _ _ st).trans ?_
    rw [rendered, on_bind, c.on_render]
    dsimp only [renderedIn]
    cases (Template.render text st.scope.visible).mapError Failure.ofTemplate <;> rfl
  | _ => rfl

/-- What is put together is that, and then what is still missing is asked for. -/
theorem on_arguments (s : ActionStep) (a : Action) (step : Step) (c : StepContext) (st : Session) :
    (s.arguments a step c).on st = match s.supplied a step st.scope.visible st.scope.shared with
      | .ok params => (a.parameters.foldlM (complete a c) params).on st
      | .error f => (.error f, st) := by
  unfold arguments
  rw [on_bind_ok (on_get st)]
  dsimp only
  rw [on_bind, on_mapM (on_rendered c st), supplied, given]
  cases s.parameters.mapM (renderedIn st.scope.visible) <;> rfl

/-! ## What is asked for -/

section complete

variable {c : StepContext} {p : ActionParameter} {ps : List ActionParameter} {params' : Record Value}
  {st t : Session}

/-- A parameter that is not required, or that is there, is not asked for. -/
theorem complete_of_present (h : p.required = true → params.has p.name = true) :
    complete a c params p = pure params := by
  have skipped : (!p.required || params.has p.name) = true := by
    cases required : p.required with
    | false => rfl
    | true => simp [h required]
  rw [complete, if_pos skipped]

theorem complete_all_of_present (h : ∀ p ∈ ps, p.required = true → params.has p.name = true) :
    ps.foldlM (complete a c) params = pure params := by
  induction ps with
  | nil => rfl
  | cons p ps ih =>
    rw [List.foldlM_cons, complete_of_present (h p List.mem_cons_self), pure_bind]
    exact ih fun p' mem => h p' (List.mem_cons_of_mem p mem)

/-- What there is stays, and what is added is required and was asked of somebody. -/
structure Adds (c : StepContext) (ps : List ActionParameter) (params params' : Record Value) : Prop where
  keeps : ∀ k v, params.get? k = some v → params'.get? k = some v
  asks : ∀ k v, params.get? k = none → params'.get? k = some v →
    c.options.interactive = true ∧ c.prompter.isSome = true ∧ ∃ p ∈ ps, p.required = true ∧ p.name = k

theorem Adds.refl (c : StepContext) (ps : List ActionParameter) (params : Record Value) :
    Adds c ps params params where
  keeps _ _ there := there
  asks k v absent there := by
    rw [absent] at there
    cases there

theorem Adds.cons {params'' : Record Value} (first : Adds c [p] params params')
    (rest : Adds c ps params' params'') : Adds c (p :: ps) params params'' where
  keeps k v there := rest.keeps k v (first.keeps k v there)
  asks k v absent there := by
    cases between : params'.get? k with
    | none =>
      obtain ⟨interactive, prompter, p', mem, required⟩ := rest.asks k v between there
      exact ⟨interactive, prompter, p', List.mem_cons_of_mem p mem, required⟩
    | some w =>
      obtain ⟨interactive, prompter, p', mem, required⟩ := first.asks k w absent between
      exact ⟨interactive, prompter, p', List.mem_cons.mpr (.inl (List.mem_singleton.mp mem)), required⟩

theorem complete_adds (h : (complete a c params p).on st = (.ok params', t)) :
    Adds c [p] params params' := by
  by_cases present : p.required = true → params.has p.name = true
  · rw [complete_of_present present] at h
    cases h
    exact .refl c [p] params
  · obtain ⟨required, absent⟩ := Classical.not_imp.mp present
    rw [complete, if_neg (by simp [required, absent])] at h
    split at h
    next who interactive prompter =>
      obtain ⟨v, _, -, put⟩ := on_bind_eq_ok h
      cases put
      constructor
      · intro k w there
        rw [Record.get?_put, if_neg]
        · exact there
        · rintro rfl
          exact absent (by rw [Record.has, there]; rfl)
      · intro k w none there
        refine ⟨interactive, by rw [prompter]; rfl, p, List.mem_singleton_self p, required, ?_⟩
        by_contra other
        rw [Record.get?_put, if_neg other, none] at there
        cases there
    next => cases h

theorem complete_all_adds (h : (ps.foldlM (complete a c) params).on st = (.ok params', t)) :
    Adds c ps params params' := by
  induction ps generalizing params st with
  | nil =>
    cases h
    exact .refl c [] _
  | cons p ps ih =>
    rw [List.foldlM_cons] at h
    obtain ⟨between, st', first, rest⟩ := on_bind_eq_ok h
    exact (complete_adds first).cons (ih rest)

end complete

/-! ## What is lacked -/

/-- A required parameter that is not lacked with some variables is there without anybody being asked, where
the step sees these variables and perhaps more. -/
theorem has_supplied {values : Record Value} {p : ActionParameter} (mem : p ∈ a.parameters)
    (required : p.required = true) (there : s.lacks values p = false)
    (seen : ∀ k, values.has k = true → visible.has k = true)
    (h : s.supplied a step visible shared = .ok params) : params.has p.name = true := by
  obtain ⟨given, rendered, first⟩ := get?_supplied h
  have supply : s.parameters.has p.name = true ∨ values.has p.name = true ∨ p.default?.isSome = true := by
    rw [lacks, required, Bool.true_and] at there
    rw [ActionParameter.default?]
    cases own : s.parameters.has p.name with
    | true => exact .inl rfl
    | false =>
      cases known : values.has p.name with
      | true => exact .inr (.inl rfl)
      | false =>
        rw [own, known] at there
        cases given : p.default <;> simp [given] at there ⊢
  rw [Record.has, first, first?, if_pos (Action.declares_of_mem mem)]
  simp only [Option.isSome_or, Bool.or_eq_true]
  rcases supply with own | known | default
  · left
    rw [Record.has_eq_true_iff, ← keys_given rendered, ← Record.has_eq_true_iff] at own
    exact own
  · exact .inr (.inl (.inl (seen p.name known)))
  · exact .inr (.inl (.inr (Action.isSome_default?_of_mem mem default)))

/-- Where nothing is lacked the parameters are put together with nobody being asked, whoever there is. -/
theorem arguments_unasked {values : Record Value} {st : Session}
    (clear : ∀ p ∈ a.parameters, s.lacks values p = false)
    (seen : ∀ k, values.has k = true → st.scope.visible.has k = true) (c : StepContext) :
    (s.arguments a step c).on st = (s.supplied a step st.scope.visible st.scope.shared, st) := by
  rw [on_arguments]
  cases put : s.supplied a step st.scope.visible st.scope.shared with
  | error f => rfl
  | ok params =>
    have present : ∀ p ∈ a.parameters, p.required = true → params.has p.name = true :=
      fun p mem required => has_supplied mem required (clear p mem) seen put
    dsimp only
    rw [complete_all_of_present present, on_pure]

/-- Whatever is asked for, by name a parameter is the first there is. -/
theorem arguments_first {c : StepContext} {st t : Session}
    (h : (s.arguments a step c).on st = (.ok params, t)) :
    ∃ given, s.given st.scope.visible = .ok given ∧ ∀ k v,
      (first? a step given st.scope.visible st.scope.shared k = some v → params.get? k = some v) ∧
      (first? a step given st.scope.visible st.scope.shared k = none → params.get? k = some v →
        c.options.interactive = true ∧ c.prompter.isSome = true ∧
          ∃ p ∈ a.parameters, p.required = true ∧ p.name = k) := by
  rw [on_arguments] at h
  cases put : s.supplied a step st.scope.visible st.scope.shared with
  | error f =>
    rw [put] at h
    cases h
  | ok supplied =>
    rw [put] at h
    have adds := complete_all_adds h
    obtain ⟨given, rendered, first⟩ := get?_supplied put
    refine ⟨given, rendered, fun k v => ?_⟩
    rw [← first]
    exact ⟨adds.keeps k v, adds.asks k v⟩

/-- What keeps parameters from being put together is a text of the step that cannot be rendered. -/
theorem supplied_fails {f : Failure} (h : s.supplied a step visible shared = .error f) :
    ∃ k text fault, (k, .str text) ∈ s.parameters ∧ Template.render text visible = .error fault ∧
      f = .ofTemplate fault := by
  have failed : s.given visible = .error f := by
    rw [supplied] at h
    cases rendered : s.given visible <;> rw [rendered] at h <;> cases h
    rfl
  rcases mapM_cases (renderedIn visible) s.parameters with ⟨-, given, all⟩ | ⟨e, mem, f', fails, first⟩
  · rw [ActionStep.given, all] at failed
    cases failed
  · rw [ActionStep.given, first] at failed
    obtain rfl := Except.error.inj failed
    obtain ⟨k, v⟩ := e
    cases v with
    | str text =>
      rw [renderedIn] at fails
      cases rendered : Template.render text visible with
      | ok y =>
        rw [rendered] at fails
        cases fails
      | error fault =>
        rw [rendered] at fails
        exact ⟨k, text, fault, mem, rendered, (Except.error.inj fails).symm⟩
    | _ => cases fails

/-! ## Checking and running -/

/-- The warning about a parameter that is lacked. -/
def warning (s : ActionStep) (p : ActionParameter) : String :=
  "Required parameter '" ++ p.name ++ "' for action '" ++ s.action ++ "' is missing and will be prompted"

/-- A check without errors found the action, and warns about every parameter that is lacked. -/
theorem check_clean {actions : Actions} {values : Record Value}
    (clean : (s.check actions step values).errors = []) :
    ∃ a, actions.find? s.action = some a ∧
      (s.check actions step values).warnings = (a.parameters.filter (s.lacks values)).map s.warning := by
  unfold check at clean ⊢
  split at clean
  next => cases clean
  next named =>
    rw [if_neg named]
    cases found : actions.find? s.action with
    | none =>
      rw [found] at clean
      cases clean
    | some a => exact ⟨a, rfl, rfl⟩

/-- What is done with the parameters of an action. -/
def carryOut (s : ActionStep) (a : Action) (step : Step) (c : StepContext) (params : Record Value) :
    Run StepResult := do
  if c.isDry then
    return step.completed (dryMark ++ " Would run action '" ++ s.action ++ "'") .null {}
      (s.about step ++ [("parameters", .ofRecord params)])
  Run.note (.acted a.name)
  let o ← a.handler params c
  modify fun st =>
    let shared := step.writes.foldl (fun r k => r.put k o.output) st.scope.shared
    { st with scope := { st.scope with shared } }
  let message := if o.message = "" then "Action '" ++ s.action ++ "' completed" else o.message
  return step.completed message o.output o.files (s.about step)

theorem execute_eq {actions : Actions} (found : actions.find? s.action = some a) (c : StepContext) :
    s.execute actions step c = s.arguments a step c >>= s.carryOut a step c := by
  unfold execute
  rw [found]
  rfl

end ActionStep

/-! ## What a validation foresees -/

/-- What checks find one after the other is found all together. -/
theorem Findings.foldl_append {α : Type} (g : α → Findings) (xs : List α) (f : Findings) :
    xs.foldl (fun f x => f ++ g x) f =
      ⟨f.errors ++ xs.flatMap fun x => (g x).errors, f.warnings ++ xs.flatMap fun x => (g x).warnings,
        f.suggestions ++ xs.flatMap fun x => (g x).suggestions⟩ := by
  induction xs generalizing f with
  | nil => simp
  | cons x xs ih =>
    rw [List.foldl_cons, ih]
    show Findings.mk ((f.errors ++ _) ++ _) ((f.warnings ++ _) ++ _) ((f.suggestions ++ _) ++ _) = _
    simp only [List.flatMap_cons, List.append_assoc]

/-- What comes of a step, where a failure that is raised is that of the step. -/
def Step.settled (step : Step) : Except Failure StepResult → StepResult
  | .ok o => o
  | .error f => step.failed f.report

namespace Engine

variable {e : Engine} {r : Recipe} {b : Bindings} {options : Options} {answers : Record String}
  {st : Session} {u : Turn} {s : ActionStep} {a : Action} {actions : Actions} {visible : Record Value}

theorem validate_eq (values : Record Value) : e.validate r values answers =
    ⟨r.steps.flatMap fun s => (e.validateStep r values answers s).errors,
      r.steps.flatMap fun s => (e.validateStep r values answers s).warnings,
      r.steps.flatMap fun s => (e.validateStep r values answers s).suggestions⟩ := by
  rw [validate, Findings.foldl_append]
  rfl

theorem on_runTool_settled (t : Tool) (step : Step) (c : StepContext) (st : Session) :
    (runTool t step c).on st =
      (.ok (step.settled ((t.execute step c).on st).1), ((t.execute step c).on st).2) := by
  rw [on_runTool]
  rcases (t.execute step c).on st with ⟨f | o, st'⟩ <;> rfl

/-- Nothing is wrong with a step that has a turn. -/
theorem errors_of_mem_history (hu : u ∈ e.history r b options answers st) :
    (e.validateStep r b.merged answers u.step).errors = [] := by
  have valid := valid_of_mem_history hu
  rw [Findings.valid, validate_eq, List.isEmpty_iff, List.flatMap_eq_nil_iff] at valid
  exact valid u.step (mem_history hu).2

theorem validateStep_action (registry : e.tools.get? .action = some (.action actions))
    {step : Step} (body : step.body = .action s) (values : Record Value) :
    e.validateStep r values answers step = s.check actions step values := by
  have kind : step.kind = .action := congrArg StepBody.kind body
  rw [validateStep, kind, registry]
  have own : step.kind = (Tool.action actions).kind := kind
  dsimp only
  rw [Tool.validate, if_pos own]
  dsimp only [Tool.action]
  rw [body]

/-- Every name of the defaults and the caller's values is one of the variables that a step sees. -/
theorem has_of_has_merged (hu : u ∈ e.history r b options answers st) (sees : u.visible = .ok visible)
    {k : String} (there : b.merged.has k = true) : visible.has k = true := by
  obtain ⟨here, -, layers⟩ := get?_layers ((visible_of_mem_history hu).symm.trans sees)
  rw [Record.has, Bindings.get?_merged, Option.isSome_or, Bool.or_eq_true] at there
  rw [Record.has, layers]
  simp only [Option.isSome_or, Bool.or_eq_true]
  rcases there with value | default
  · exact .inr (.inr (.inl value))
  · exact .inr (.inr (.inr (.inr default)))

/-- What the validation of an execution foresees of a step that runs an action. -/
structure Foresees (e : Engine) (r : Recipe) (b : Bindings) (options : Options) (answers : Record String)
    (u : Turn) (s : ActionStep) (a : Action) (visible : Record Value) : Prop where
  /-- The warnings are those about each step, one step after the other, -/
  warnings : (e.validate r b.merged answers).warnings =
    r.steps.flatMap fun x => (e.validateStep r b.merged answers x).warnings
  /-- and about this step there is one for every required parameter that it lacks. -/
  lacked : (e.validateStep r b.merged answers u.step).warnings =
    (a.parameters.filter (s.lacks b.merged)).map s.warning
  /-- Where there is none, the parameters are put together without anybody being asked, whoever there is. -/
  unasked : (e.validateStep r b.merged answers u.step).warnings = [] → ∀ c,
    (s.arguments a u.step c).on (u.before.begun u.step visible) =
      (s.supplied a u.step visible u.before.scope.shared, u.before.begun u.step visible)
  /-- They then cannot be put together only where a text that the step gives cannot be rendered. -/
  fails : ∀ f, s.supplied a u.step visible u.before.scope.shared = .error f →
    ∃ k text fault, (k, .str text) ∈ s.parameters ∧ Template.render text visible = .error fault ∧
      f = .ofTemplate fault
  /-- With these parameters the action runs, unless the step is skipped or put off. -/
  runs : (e.validateStep r b.merged answers u.step).warnings = [] →
    u.step.isExcluded visible = false → u.before.collector.collecting = false →
      let run := (do
        let params ← Run.ofExcept (s.supplied a u.step visible u.before.scope.shared)
        s.carryOut a u.step (e.context r options answers u.earlier) params : Run StepResult)
      u.outcome = .ok (u.step.settled (run.on (u.before.begun u.step visible)).1) ∧
        u.after = (run.on (u.before.begun u.step visible)).2
  /-- By name a parameter is the first of what the step gives, the variable, the default, and what was
  handed on; any other was asked for, since it is required. -/
  first : ∀ c params t, (s.arguments a u.step c).on (u.before.begun u.step visible) = (.ok params, t) →
    ∃ given, s.given visible = .ok given ∧ ∀ k v,
      (ActionStep.first? a u.step given visible u.before.scope.shared k = some v → params.get? k = some v) ∧
      (ActionStep.first? a u.step given visible u.before.scope.shared k = none → params.get? k = some v →
        c.options.interactive = true ∧ c.prompter.isSome = true ∧
          ∃ p ∈ a.parameters, p.required = true ∧ p.name = k)

/-- Where no parameter is lacked in the validation, the step runs with what it is supplied with. -/
theorem turn_supplied (registry : e.tools.get? .action = some (.action actions))
    (hu : u ∈ e.history r b options answers st) (body : u.step.body = .action s)
    (found : actions.find? s.action = some a) (sees : u.visible = .ok visible)
    (clear : ∀ p ∈ a.parameters, s.lacks b.merged p = false)
    (admitted : u.step.isExcluded visible = false) (now : u.before.collector.collecting = false) :
    let run := (do
      let params ← Run.ofExcept (s.supplied a u.step visible u.before.scope.shared)
      s.carryOut a u.step (e.context r options answers u.earlier) params : Run StepResult)
    u.outcome = .ok (u.step.settled (run.on (u.before.begun u.step visible)).1) ∧
      u.after = (run.on (u.before.begun u.step visible)).2 := by
  rcases turn_runs hu with ⟨f, unseen, -⟩ | ⟨visible', seen, came⟩
  · rw [sees] at unseen
    cases unseen
  obtain rfl : visible = visible' := Except.ok.inj (sees.symm.trans seen)
  have kind : u.step.kind = .action := congrArg StepBody.kind body
  have executes (c : StepContext) : (Tool.action actions).execute u.step c =
      s.arguments a u.step c >>= s.carryOut a u.step c := by
    dsimp only [Tool.action]
    rw [body]
    exact ActionStep.execute_eq found c
  have found' : e.tools.get? u.step.kind = some (.action actions) := by rw [kind, registry]
  have awake : (u.before.begun u.step visible).collector.collecting = false := now
  rw [runStep_on found' admitted (by rw [awake, Bool.false_and]), awake, Bool.false_and,
    on_runTool_settled, executes, on_bind] at came
  -- what is asked for parameters is no more than what supplies them
  have seen (k : String) (there : b.merged.has k = true) :
      (u.before.begun u.step visible).scope.visible.has k = true := has_of_has_merged hu sees there
  rw [ActionStep.arguments_unasked clear seen] at came
  dsimp only
  rw [on_bind, on_ofExcept]
  obtain ⟨outcome, after⟩ := Prod.mk.inj came
  exact ⟨outcome.symm, after.symm⟩

/-- The validation of an execution foresees which parameters an action lacks: where it does not warn about
any, the action gets all that are required without anybody being asked. -/
theorem parameters_foreseen (registry : e.tools.get? .action = some (.action actions))
    (hu : u ∈ e.history r b options answers st) (body : u.step.body = .action s)
    (sees : u.visible = .ok visible) :
    ∃ a, actions.find? s.action = some a ∧ e.Foresees r b options answers u s a visible := by
  have checked : e.validateStep r b.merged answers u.step = s.check actions u.step b.merged :=
    validateStep_action registry body b.merged
  obtain ⟨a, found, warned⟩ := ActionStep.check_clean (checked ▸ errors_of_mem_history hu)
  have lacked : (e.validateStep r b.merged answers u.step).warnings =
      (a.parameters.filter (s.lacks b.merged)).map s.warning := by rw [checked, warned]
  have clear (silent : (e.validateStep r b.merged answers u.step).warnings = []) :
      ∀ p ∈ a.parameters, s.lacks b.merged p = false := by
    rw [lacked, List.map_eq_nil_iff, List.filter_eq_nil_iff] at silent
    exact fun p mem => Bool.eq_false_iff.mpr (silent p mem)
  have seen : ∀ k, b.merged.has k = true → visible.has k = true := fun k => has_of_has_merged hu sees
  refine ⟨a, found, ?_⟩
  constructor
  case warnings => rw [validate_eq]
  case lacked => exact lacked
  case unasked => exact fun silent c => ActionStep.arguments_unasked (clear silent) seen c
  case fails => exact fun f failed => ActionStep.supplied_fails failed
  case runs => exact fun silent => turn_supplied registry hu body found sees (clear silent)
  case first => exact fun c params t ran => ActionStep.arguments_first ran

end Engine

/-! ## An action that has all it needs -/

namespace Equipped

/-- An action that hands on a note. -/
def build : Action where
  name := "build"
  handler _ _ := return { output := .str "fresh" }

/-- An action that tells its parameters. -/
def publish : Action where
  name := "publish"
  parameters := [{ name := "place", required := true }, { name := "owner", required := true },
    { name := "mode", default := .str "fast" }]
  handler params _ :=
    return { message := Text.join ", " (params.map fun e => e.1 ++ "=" ++ e.2.plain) }

def actions : Actions := (Actions.register [] build).register publish

/-- The place is given by the step, as a text that is rendered. -/
def publishing : ActionStep where
  action := "publish"
  parameters := [("place", .str "\x7b\x7b root \x7d\x7d/www")]

/-- A step that also reads a mode, which has a default. -/
def step : Step := { name := "publish", reads := ["note", "mode"], body := .action publishing }

def recipe : Recipe where
  name := "equipped"
  steps := [{ name := "build", writes := ["note", "mode"], body := .action { action := "build" } }, step]

def bindings : Bindings where
  values := [("root", .str "/srv"), ("place", .str "/tmp"), ("owner", .str "me")]

/-- Somebody who would answer. -/
def engine : Engine where
  project := .ofString "/project"
  tools := .standard (fun _ _ => .error .noProgram) actions
  prompter := some { ask := fun _ _ => return .str "asked", confirm := fun _ => return true }

def options : Options := { interactive := true }

/-- What the step of a turn told. -/
def told (u : Turn) : Option String := u.outcome.toOption.map (·.message)

theorem step_turns : ∃ u ∈ engine.history recipe bindings options [] {}, ∃ visible, u.step = step ∧
    u.visible = .ok visible ∧ told u = some "place=/srv/www, owner=me, mode=fast, note=fresh" := by
  have shape : (engine.history recipe bindings options [] {}).length = 2 := by decide +kernel
  have messages : (engine.history recipe bindings options [] {}).map told =
      [some "Action 'build' completed", some "place=/srv/www, owner=me, mode=fast, note=fresh"] := by
    decide +kernel
  have seen : (engine.history recipe bindings options [] {}).map (·.visible.toOption.isSome) =
      [true, true] := by decide +kernel
  have steps : (engine.history recipe bindings options [] {}).map (·.step) = recipe.steps :=
    (Engine.history_prefix {}).eq_of_length (by rw [List.length_map, shape]; rfl)
  obtain ⟨t, u, h⟩ := List.length_eq_two.mp shape
  rw [h] at messages seen steps
  have sees : u.visible.toOption.isSome = true := (List.cons.inj (List.cons.inj seen).2).1
  rcases same : u.visible with f | visible
  · rw [same] at sees
    cases sees
  · exact ⟨u, by rw [h]; exact List.mem_cons_of_mem t List.mem_cons_self, visible,
      (List.cons.inj (List.cons.inj steps).2).1, same, (List.cons.inj (List.cons.inj messages).2).1⟩

/-- The action is not warned about and asks for nothing, although somebody would answer: the place is that
of the step, the owner a variable, the mode the default, and only the note was handed on. -/
theorem published_unasked : ∃ u ∈ engine.history recipe bindings options [] {}, ∃ visible,
    engine.tools.get? .action = some (.action actions) ∧ u.step.body = .action publishing ∧
    u.visible = .ok visible ∧ actions.find? "publish" = some publish ∧
    (engine.validateStep recipe bindings.merged [] u.step).warnings = [] ∧
    (∀ c, (publishing.arguments publish u.step c).on (u.before.begun u.step visible) =
      (publishing.supplied publish u.step visible u.before.scope.shared, u.before.begun u.step visible)) ∧
    told u = some "place=/srv/www, owner=me, mode=fast, note=fresh" := by
  obtain ⟨u, mem, visible, own, sees, tells⟩ := step_turns
  have body : u.step.body = .action publishing := by rw [own, step]
  obtain ⟨a, found, foresees⟩ := Engine.parameters_foreseen rfl mem body sees
  obtain rfl : publish = a := Option.some.inj found
  have silent : (engine.validateStep recipe bindings.merged [] u.step).warnings = [] := by
    rw [own]
    decide +kernel
  exact ⟨u, mem, visible, rfl, body, sees, found, silent, foresees.unasked silent, tells⟩

end Equipped

end Scaffold
