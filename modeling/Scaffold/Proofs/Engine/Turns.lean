import Scaffold.Engine
import Scaffold.Proofs.Session.Runs

/-!
# Executions step by step

An execution unrolls into turns, one for each step that was taken up.  A turn remembers the session
that its step found, the variables that the step saw, what came of it and the session that it left.
The turns tell everything about an execution: its outcome is put together from theirs, and each begins
where the one before it ended.  What every turn keeps is therefore kept from any point of an execution
to any later one.
-/

namespace Scaffold

/-- A step of an execution as it went. -/
structure Turn where
  step : Step
  /-- What the steps before it came to. -/
  earlier : Record StepResult
  before : Session
  /-- The variables that the step sees, unless one of its overrides cannot be rendered. -/
  visible : Except Failure (Record Value)
  outcome : Except Failure StepResult
  after : Session

namespace Session

/-- The session that the step of a turn finds. -/
def begun (s : Session) (step : Step) (visible : Record Value) : Session :=
  ({ s with scope := { s.scope with visible } } : Session).note (.began step.name visible)

/-- The session in which the steps of a recipe begin. -/
def opened (s : Session) (r : Recipe) : Session :=
  ({ s with scope := {} } : Session).note (.executed r.name s.collector.collecting)

section begun

variable (s : Session) (step : Step) (visible : Record Value)

@[simp] theorem begun_tree : (s.begun step visible).tree = s.tree := rfl

@[simp] theorem begun_collector : (s.begun step visible).collector = s.collector := rfl

@[simp] theorem begun_visible : (s.begun step visible).scope.visible = visible := rfl

@[simp] theorem begun_produced : (s.begun step visible).scope.produced = s.scope.produced := rfl

@[simp] theorem begun_shared : (s.begun step visible).scope.shared = s.scope.shared := rfl

end begun

section opened

variable (s : Session) (r : Recipe)

@[simp] theorem opened_tree : (s.opened r).tree = s.tree := rfl

@[simp] theorem opened_collector : (s.opened r).collector = s.collector := rfl

@[simp] theorem opened_scope : (s.opened r).scope = {} := rfl

end opened

end Session

namespace Engine

variable (e : Engine) (r : Recipe) (b : Bindings) (options : Options) (answers : Record String)

/-! ## Turns -/

/-- The turn of a step. -/
def turn (earlier : Record StepResult) (s : Step) (st : Session) : Turn :=
  let o := (e.step r b options answers earlier s).on st
  { step := s, earlier, before := st, visible := s.values b st.scope.produced answers
    outcome := o.1, after := o.2 }

/-- The turns of steps, up to the first that does not succeed. -/
def turns (earlier : Record StepResult) : List Step → Session → List Turn
  | [], _ => []
  | s :: rest, st =>
    let t := e.turn r b options answers earlier s st
    match t.outcome with
    | .ok o => if o.success then t :: turns (earlier.put s.name o) rest t.after else [t]
    | .error _ => [t]

/-- The turns of an execution; a recipe that is not valid has none. -/
def history (s : Session) : List Turn :=
  if (e.validate r b.merged answers).valid then e.turns r b options answers [] r.steps (s.opened r)
  else []

variable {e r b options answers}

theorem history_of_valid (h : (e.validate r b.merged answers).valid = true) (s : Session) :
    e.history r b options answers s = e.turns r b options answers [] r.steps (s.opened r) := by
  rw [history, if_pos h]

theorem history_of_invalid (h : (e.validate r b.merged answers).valid = false) (s : Session) :
    e.history r b options answers s = [] := by
  rw [history, if_neg (by simp [h])]

/-! ## One step -/

theorem step_on_error {earlier : Record StepResult} {s : Step} {st : Session} {f : Failure}
    (h : s.values b st.scope.produced answers = .error f) :
    (e.step r b options answers earlier s).on st = (.error f, st) := by
  refine Run.on_bind_ok (Run.on_get st) _ |>.trans ?_
  rw [h]
  exact Run.on_bind_error (Run.on_ofExcept _ st) _

/-- A step runs with the variables that it sees. -/
theorem step_on_ok {earlier : Record StepResult} {s : Step} {st : Session} {visible : Record Value}
    (h : s.values b st.scope.produced answers = .ok visible) :
    (e.step r b options answers earlier s).on st =
      (e.runStep s (e.context r options answers earlier)).on (st.begun s visible) := by
  refine Run.on_bind_ok (Run.on_get st) _ |>.trans ?_
  rw [h]
  refine Run.on_bind_ok (Run.on_ofExcept _ st) _ |>.trans ?_
  refine Run.on_bind_ok (Run.on_modify _ st) _ |>.trans ?_
  exact Run.on_bind_ok (Run.on_note _ _) _

/-- A step that is admitted and not put off is run by its tool. -/
theorem runStep_on {s : Step} {c : StepContext} {tool : Tool} {st : Session}
    (found : e.tools.get? s.kind = some tool) (admitted : s.isExcluded st.scope.visible = false)
    (now : (st.collector.collecting && s.kind.isDeferred) = false) :
    (e.runStep s c).on st =
      (runTool tool s
        { c with simulate := st.collector.collecting && s.kind.mutatesFiles }).on st := by
  unfold runStep
  rw [Run.on_bind_ok (Run.on_get st), if_neg (by simp [admitted])]
  dsimp only
  rw [if_neg (by simp [now]), found]

theorem on_runTool (t : Tool) (s : Step) (c : StepContext) (st : Session) :
    (runTool t s c).on st = match (t.execute s c).on st with
      | (.ok o, st') => (.ok o, st')
      | (.error f, st') => (.ok (s.failed f.report), st') := by
  refine (Run.on_bind_ok (Run.on_attempt _ st) _).trans ?_
  rcases (t.execute s c).on st with ⟨f | o, st'⟩ <;> rfl

/-! ## All steps -/

/-- A single step has a single turn. -/
theorem turns_singleton (earlier : Record StepResult) (s : Step) (st : Session) :
    e.turns r b options answers earlier [s] st = [e.turn r b options answers earlier s st] := by
  simp only [turns]
  split
  · split <;> rfl
  · rfl

/-- The session that turns leave. -/
def leaves : Session → List Turn → Session
  | st, [] => st
  | _, t :: ts => leaves t.after ts

/-- The turns tell what comes of the steps, and which session they leave. -/
theorem runSteps_on (earlier : Record StepResult) (steps : List Step) (st : Session) :
    (e.runSteps r b options answers earlier steps).on st =
      ((e.turns r b options answers earlier steps st).mapM (·.outcome),
        leaves st (e.turns r b options answers earlier steps st)) := by
  -- a step that raises or fails ends both the run and its turns
  induction steps generalizing earlier st with
  | nil => rfl
  | cons s rest ih =>
    rw [runSteps, turns, Run.on_bind]
    rcases h : (e.step r b options answers earlier s).on st with ⟨f | o, st'⟩
    · simp only [turn, h]
      rfl
    · cases success : o.success
      · simp only [turn, h, success]
        rfl
      · simp only [turn, h, success, if_true, List.mapM_cons]
        refine Run.on_bind _ _ _ |>.trans ?_
        rw [ih]
        cases (e.turns r b options answers (earlier.put s.name o) rest st').mapM (·.outcome) <;> rfl

/-- A recipe that is not valid is refused with its problems. -/
theorem execute_refused (h : (e.validate r b.merged answers).valid = false) (s : Session) :
    (e.execute r b options answers).on s =
      (.error (.recipeInvalid ((e.validate r b.merged answers).errors ++
        (e.validate r b.merged answers).suggestions) (some r.name)), s) := by
  unfold execute
  dsimp only
  rw [h]
  rfl

/-- A recipe that is not valid is not executed. -/
theorem execute_on_invalid (h : (e.validate r b.merged answers).valid = false) :
    ∃ f, ∀ s, (e.execute r b options answers).on s = (.error f, s) :=
  ⟨_, execute_refused h⟩

/-- The turns of an execution tell what comes of it, and which session it leaves. -/
theorem execute_on_valid (h : (e.validate r b.merged answers).valid = true) (s : Session) :
    (e.execute r b options answers).on s =
      let ts := e.history r b options answers s
      let last := leaves (s.opened r) ts
      (match ts.mapM (·.outcome) with
        | .ok steps => .ok
          { recipe := r.name, path := r.source, steps
            values := (b.merged.merge last.scope.produced).merge (asValues answers)
            error := (steps.find? fun s => !s.success).map stepError }
        | .error f => .error f, last) := by
  unfold execute
  dsimp only
  rw [h]
  simp only [Bool.not_true, Bool.false_eq_true, if_false, history, h, if_true]
  refine Run.on_bind_ok (Run.on_modify _ s) _ |>.trans ?_
  refine Run.on_bind_ok (Run.on_get _) _ |>.trans ?_
  refine Run.on_bind_ok (Run.on_note _ _) _ |>.trans ?_
  refine Run.on_bind _ _ (s.opened r) |>.trans ?_
  rw [runSteps_on]
  cases (e.turns r b options answers [] r.steps (s.opened r)).mapM (·.outcome) <;> rfl

/-! ## Turns in order -/

/-- Each turn begins where the one before it ended. -/
def Chained : Session → List Turn → Prop
  | _, [] => True
  | st, t :: ts => t.before = st ∧ Chained t.after ts

theorem turns_chained (earlier : Record StepResult) (steps : List Step) (st : Session) :
    Chained st (e.turns r b options answers earlier steps st) := by
  induction steps generalizing earlier st with
  | nil => trivial
  | cons s rest ih =>
    rw [turns]
    split
    · split
      · exact ⟨rfl, ih _ _⟩
      · exact ⟨rfl, trivial⟩
    · exact ⟨rfl, trivial⟩

theorem history_chained (s : Session) :
    Chained (s.opened r) (e.history r b options answers s) := by
  unfold history
  split
  · exact turns_chained _ _ _
  · trivial

/-- What each of some turns keeps is kept from the session before them to the next turn. -/
theorem Chained.keeps {R : Session → Session → Prop} [IsPreorder Session R] {st : Session}
    {ts us : List Turn} {u : Turn} (h : Chained st (ts ++ u :: us))
    (hR : ∀ t ∈ ts, R t.before t.after) : R st u.before := by
  induction ts generalizing st with
  | nil =>
    obtain ⟨rfl, _⟩ := h
    exact refl_of R _
  | cons t ts ih =>
    obtain ⟨rfl, rest⟩ := h
    have first : R t.before t.after := hR t List.mem_cons_self
    exact trans_of R first (ih rest fun x hx => hR x (List.mem_cons_of_mem t hx))

theorem Chained.after {st : Session} {ts us : List Turn} {t : Turn}
    (h : Chained st (ts ++ t :: us)) : Chained t.after us := by
  induction ts generalizing st with
  | nil => exact h.2
  | cons a ts ih => exact ih h.2

/-- Steps are taken up in order. -/
theorem turns_prefix (earlier : Record StepResult) (steps : List Step) (st : Session) :
    (e.turns r b options answers earlier steps st).map (·.step) <+: steps := by
  induction steps generalizing earlier st with
  | nil => exact List.prefix_rfl
  | cons s rest ih =>
    have one : [s] <+: s :: rest := ⟨rest, rfl⟩
    rw [turns]
    split
    · split
      · exact List.cons_prefix_cons.mpr ⟨rfl, ih _ _⟩
      · exact one
    · exact one

theorem history_prefix (s : Session) :
    (e.history r b options answers s).map (·.step) <+: r.steps := by
  unfold history
  split
  · exact turns_prefix _ _ _
  · exact List.nil_prefix

/-- Every turn is the turn of its step, in the session that it found. -/
theorem mem_turns {earlier : Record StepResult} {steps : List Step} {st : Session} {t : Turn}
    (h : t ∈ e.turns r b options answers earlier steps st) :
    t = e.turn r b options answers t.earlier t.step t.before ∧ t.step ∈ steps := by
  induction steps generalizing earlier st with
  | nil => cases h
  | cons s rest ih =>
    have here : t = e.turn r b options answers earlier s st →
        t = e.turn r b options answers t.earlier t.step t.before ∧ t.step ∈ s :: rest := by
      rintro rfl
      exact ⟨rfl, List.mem_cons_self⟩
    rw [turns] at h
    split at h
    · split at h
      · rcases List.mem_cons.mp h with h | h
        · exact here h
        · exact ⟨(ih h).1, List.mem_cons_of_mem s (ih h).2⟩
      · exact here (List.mem_singleton.mp h)
    · exact here (List.mem_singleton.mp h)

theorem mem_history {s : Session} {t : Turn} (h : t ∈ e.history r b options answers s) :
    t = e.turn r b options answers t.earlier t.step t.before ∧ t.step ∈ r.steps := by
  unfold history at h
  split at h
  · exact mem_turns h
  · cases h

/-- A turn sees the variables of its step. -/
theorem visible_of_mem_history {s : Session} {t : Turn} (h : t ∈ e.history r b options answers s) :
    t.visible = t.step.values b t.before.scope.produced answers := by
  rw [(mem_history h).1]
  rfl

/-- Where a step sees its variables, its turn is what comes of running it with them; else the turn raises
what kept it from them, and changes nothing. -/
theorem turn_runs {s : Session} {t : Turn} (h : t ∈ e.history r b options answers s) :
    (∃ f, t.visible = .error f ∧ t.outcome = .error f ∧ t.after = t.before) ∨
      ∃ visible, t.visible = .ok visible ∧
        (e.runStep t.step (e.context r options answers t.earlier)).on (t.before.begun t.step visible) =
          (t.outcome, t.after) := by
  have came : (e.step r b options answers t.earlier t.step).on t.before = (t.outcome, t.after) := by
    rw [(mem_history h).1]
    rfl
  have seen := visible_of_mem_history h
  rcases values : t.step.values b t.before.scope.produced answers with f | visible
  · rw [step_on_error values] at came
    obtain ⟨outcome, after⟩ := Prod.mk.inj came
    exact .inl ⟨f, seen.trans values, outcome.symm, after.symm⟩
  · rw [step_on_ok values] at came
    exact .inr ⟨visible, seen.trans values, came⟩

end Engine

end Scaffold
