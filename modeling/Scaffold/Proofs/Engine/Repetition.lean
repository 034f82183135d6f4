import Scaffold.Proofs.Engine.Turns
import Scaffold.Proofs.Tool.Repeats

/-!
# Executions done again

Steps that add files and splices that stand under a mark of their own body can be executed again and
again.  What such a step did is retained by every step behind it, so in a second execution it finds
nothing left to do.  Where the first execution fails, the failing step leaves the files as they are, so
the second execution comes to the same step with the same files and fails there again.
-/

namespace Scaffold

open Run Session

/-- A step that can be done again: it adds a file from its own text without overwriting one, or it
splices under a mark that stands in its body.  Its path is written without double points. -/
structure Step.Reapplicable (step : Step) (visible : Record Value) : Prop where
  straight : ∀ text, step.written? visible = some text → ".." ∉ Path.partsOf text
  fits : (∃ a, step.body = .add a ∧ a.force = false ∧ filled? a.source = none) ∨
    ∃ a, step.body = .inject a ∧ a.Guarded visible

/-- Sessions that match do so when a step begins. -/
theorem Session.Matches.begun {s u : Session} (h : s.Matches u) (step : Step)
    (visible : Record Value) : (s.begun step visible).Matches (u.begun step visible) :=
  ⟨by simp only [Session.begun, Session.note, h.scope], h.collector⟩

namespace RecipeResult

/-- Where no step reports a file, neither does the recipe. -/
theorem gather_eq_nil {x : RecipeResult} (silent : ∀ y ∈ x.steps, y.files = {})
    {files : Touched → List String} (none : files {} = []) : x.gather files = [] := by
  have all : x.steps.flatMap (fun y => files y.files) = [] :=
    List.flatMap_eq_nil_iff.mpr fun y hy => by rw [silent y hy, none]
  rw [gather, all]
  rfl

/-- A recipe succeeds exactly if all its steps do. -/
theorem success_eq {x : RecipeResult}
    (error : x.error = (x.steps.find? fun y => !y.success).map Engine.stepError) :
    x.success = x.steps.all (·.success) := by
  rw [success, error, Option.isNone_map]
  rcases found : x.steps.find? fun y => !y.success with _ | y
  · rw [found, Option.isNone_none, Bool.true_and]
  · have failed : y.success = false := by simpa using List.find?_some found
    have not_all : x.steps.all (·.success) = false :=
      List.all_eq_false.mpr ⟨y, List.mem_of_find?_eq_some found, by simp [failed]⟩
    rw [not_all, Bool.and_false]

end RecipeResult

namespace Engine

variable {e : Engine} {r : Recipe} {b : Bindings} {answers : Record String}
variable {sh : Shell} {actions : Actions} {step : Step}

/-! ## One step -/

/-- What a tool does lasts if its failures are results that report nothing. -/
theorem lasts_runTool {t : Tool} {c : StepContext} {s : Session} (h : (t.execute step c).Lasts s) :
    (runTool t step c).Lasts s := by
  unfold Lasts at h ⊢
  rw [on_runTool]
  generalize (t.execute step c).on s = result at h ⊢
  cases h with
  | failed f => exact .refused rfl rfl
  | refused success files => exact .refused success files
  | done success retains closed again =>
    refine .done success retains closed fun u same closed kept => ?_
    obtain ⟨o, result, silent⟩ := again u same closed kept
    refine ⟨o, ?_, silent⟩
    rw [on_runTool, result]

section Tools

variable {c : StepContext}

theorem runTool_lasts {s : Session} (re : step.Reapplicable s.scope.visible) (plain : c.options = {})
    (wet : c.simulate = false) (closed : s.tree.Closed) (reaches : s.tree.Reaches c.project) :
    (runTool (Tools.standardFor sh actions step.kind) step c).Lasts s := by
  have dry : c.isDry = false := by
    rw [StepContext.isDry, plain, wet]
    rfl
  have leads : ∀ p, step.path? c.project s.scope.visible = some p →
      ∃ place, s.tree.Leads p place := by
    intro p hp
    obtain ⟨text, written, rfl⟩ := Option.map_eq_some_iff.mp hp
    exact reaches text (re.straight text written)
  refine lasts_runTool ?_
  rcases re.fits with ⟨a, body, gentle, inline⟩ | ⟨a, body, guarded⟩
  · rw [show step.kind = .add from congrArg StepBody.kind body]
    simp only [Tools.standardFor, Tool.add, body]
    exact AddStep.execute_lasts gentle inline plain body dry closed leads
  · rw [show step.kind = .inject from congrArg StepBody.kind body]
    simp only [Tools.standardFor, Tool.inject, body]
    exact InjectStep.execute_lasts body guarded dry closed leads

/-- Such a step looks at nothing but the files and its variables. -/
theorem runTool_agrees {visible : Record Value} (re : step.Reapplicable visible)
    (plain : c.options = {}) :
    (runTool (Tools.standardFor sh actions step.kind) step c).Agrees := by
  have silent : c.options.interactive = true → ∀ w, c.prompter = some w → ∀ message,
      (w.confirm message).Agrees := by
    rw [plain]
    nofun
  refine agreesAll.bind (agreesAll.attempt ?_) fun o => ?_
  · rcases re.fits with ⟨a, body, -⟩ | ⟨a, body, -⟩
    · rw [show step.kind = .add from congrArg StepBody.kind body]
      simp only [Tools.standardFor, Tool.add, body]
      exact AddStep.execute_holds agreesAll (fun _ => agrees_writeText) silent a step
    · rw [show step.kind = .inject from congrArg StepBody.kind body]
      simp only [Tools.standardFor, Tool.inject, body]
      exact InjectStep.execute_holds agreesAll (fun _ => agrees_writeText) a step
  · split <;> exact agreesAll.pure _

/-- Such a step does not look at the results of those before it. -/
theorem runTool_results {visible : Record Value} (re : step.Reapplicable visible)
    (results : Record StepResult) :
    runTool (Tools.standardFor sh actions step.kind) step { c with results } =
      runTool (Tools.standardFor sh actions step.kind) step c := by
  rcases re.fits with ⟨a, body, -⟩ | ⟨a, body, -⟩
  · rw [show step.kind = .add from congrArg StepBody.kind body]
    simp only [Tools.standardFor, runTool, Tool.add, body]
    rfl
  · rw [show step.kind = .inject from congrArg StepBody.kind body]
    simp only [Tools.standardFor, runTool, Tool.inject, body]
    rfl

end Tools

/-- A step that raises a failure ends the steps. -/
theorem runSteps_on_error {earlier : Record StepResult} {rest : List Step} {st t : Session}
    {f : Failure} (h : (e.step r b {} answers earlier step).on st = (.error f, t)) :
    (e.runSteps r b {} answers earlier (step :: rest)).on st = (.error f, t) := by
  rw [runSteps, on_bind_error h]

/-- So does a step that fails, with its result. -/
theorem runSteps_on_failed {earlier : Record StepResult} {rest : List Step} {st t : Session}
    {x : StepResult} (h : (e.step r b {} answers earlier step).on st = (.ok x, t))
    (success : x.success = false) :
    (e.runSteps r b {} answers earlier (step :: rest)).on st = (.ok [x], t) := by
  rw [runSteps, on_bind_ok h, success]
  rfl

/-- The steps behind a step that succeeds begin where it ended. -/
theorem runSteps_on_ok {earlier : Record StepResult} {rest : List Step} {st t : Session}
    {x : StepResult} (h : (e.step r b {} answers earlier step).on st = (.ok x, t))
    (success : x.success = true) :
    (e.runSteps r b {} answers earlier (step :: rest)).on st =
      (((e.runSteps r b {} answers (earlier.put step.name x) rest).on t).1.map (x :: ·),
        ((e.runSteps r b {} answers (earlier.put step.name x) rest).on t).2) := by
  rw [runSteps, on_bind_ok h, success]
  refine (on_bind _ _ t).trans ?_
  rcases (e.runSteps r b {} answers (earlier.put step.name x) rest).on t with ⟨f | xs, t'⟩ <;> rfl

/-- The steps tell what comes of a recipe that is valid. -/
theorem execute_on_steps (valid : (e.validate r b.merged answers).valid = true) {s t : Session}
    {o : Except Failure (List StepResult)}
    (h : (e.runSteps r b {} answers [] r.steps).on (s.opened r) = (o, t)) :
    (e.execute r b {} answers).on s = (o.map fun steps =>
      { recipe := r.name, path := r.source, steps
        values := (b.merged.merge t.scope.produced).merge (asValues answers)
        error := (steps.find? fun s => !s.success).map stepError }, t) := by
  rw [runSteps_on] at h
  obtain ⟨rfl, rfl⟩ := Prod.mk.inj h
  rw [execute_on_valid valid s]
  simp only [history, valid, if_true]
  cases (e.turns r b {} answers [] r.steps (s.opened r)).mapM (·.outcome) <;> rfl

/-- What comes of steps done again: the same failure, or results that report nothing and are all
successes exactly if those of the first time were. -/
inductive Echoed : Except Failure (List StepResult) → Except Failure (List StepResult) → Prop where
  | raised (f : Failure) : Echoed (.error f) (.error f)
  | ran {xs ys : List StepResult} (success : ys.all (·.success) = xs.all (·.success))
      (silent : ∀ y ∈ ys, y.files = {}) : Echoed (.ok xs) (.ok ys)

theorem Echoed.cons {o o' : Except Failure (List StepResult)} (h : Echoed o o') {x y : StepResult}
    (first : x.success = true) (second : y.success = true) (files : y.files = {}) :
    Echoed (o.map (x :: ·)) (o'.map (y :: ·)) := by
  cases h with
  | raised f => exact .raised f
  | ran success silent =>
    refine .ran ?_ ?_
    · rw [List.all_cons, List.all_cons, first, second, success]
    · exact List.forall_mem_cons.mpr ⟨files, silent⟩

section Steps

variable (standard : e.tools.AreStandard sh actions)

include standard

theorem runStep_lasts (earlier : Record StepResult) {s : Session}
    (re : step.Reapplicable s.scope.visible) (calm : s.collector.collecting = false)
    (closed : s.tree.Closed) (reaches : s.tree.Reaches e.project) :
    (e.runStep step (e.context r {} answers earlier)).Lasts s := by
  cases excluded : step.isExcluded s.scope.visible with
  | true =>
    refine lasts_of_idle closed fun u same _ _ => ?_
    refine ⟨step.skipped ("when: " ++ step.condition.getD ""), ?_, rfl, rfl⟩
    unfold runStep
    rw [on_bind_ok (on_get u), if_pos (by rw [same.visible, excluded])]
    rfl
  | false =>
    cases found : e.tools.get? step.kind with
    | none =>
      unfold Lasts runStep
      rw [on_bind_ok (on_get s), if_neg (by simp [excluded])]
      dsimp only
      rw [if_neg (by simp [calm]), found]
      exact .refused rfl rfl
    | some tool =>
      obtain rfl := standard.get? found
      have runs (u : Session) (same : s.Matches u) :
          (e.runStep step (e.context r {} answers earlier)).on u =
            (runTool (Tools.standardFor sh actions step.kind) step
              (e.context r {} answers earlier)).on u := by
        have calm' : u.collector.collecting = false := by rw [same.collector, calm]
        rw [runStep_on found (by rw [same.visible, excluded]) (by rw [calm', Bool.false_and]), calm']
        rfl
      exact lasts_congr runs (runTool_lasts re rfl rfl closed reaches)

/-- Such a step depends on nothing but the files, its variables and the collector. -/
theorem runStep_agrees (earlier : Record StepResult) {visible : Record Value}
    (re : step.Reapplicable visible) :
    (e.runStep step (e.context r {} answers earlier)).Agrees := by
  unfold runStep
  refine agreesAll.look (fun s t alike => by rw [alike.scope, alike.collector]) fun s => ?_
  split
  · exact agreesAll.pure _
  dsimp only
  split
  · exact agreesAll.pure _
  split
  · exact agreesAll.pure _
  next tool found =>
    rw [standard.get? found]
    exact runTool_agrees (c := { e.context r {} answers earlier with simulate := _ }) re rfl

theorem runStep_results (earlier earlier' : Record StepResult) {visible : Record Value}
    (re : step.Reapplicable visible) :
    e.runStep step (e.context r {} answers earlier') =
      e.runStep step (e.context r {} answers earlier) := by
  unfold runStep
  congr 1
  funext s
  split
  · rfl
  dsimp only
  split
  · rfl
  split
  · rfl
  next tool found =>
    rw [standard.get? found]
    exact runTool_results (c := { e.context r {} answers earlier with simulate := _ }) re earlier'

/-- What can be said of a step in one execution and of the same step in a later one, whatever came of
the steps before it. -/
inductive Repeated (again : Record StepResult → Run StepResult) (st : Session) :
    Except Failure StepResult × Session → Prop where
  /-- It fails and leaves the files as they are; from the same files it fails again. -/
  | failed {o : Except Failure StepResult} {t : Session}
      (fails : ∀ x, o = .ok x → x.success = false ∧ x.files = {}) (tree : t.tree = st.tree)
      (collector : t.collector = st.collector)
      (repeats : ∀ earlier u, st.Matches u → u.tree = st.tree →
        ∃ u', (again earlier).on u = (o, u') ∧ u'.tree = u.tree) : Repeated again st (o, t)
  /-- It succeeds; from files that retain what it left it succeeds and changes nothing. -/
  | done {x : StepResult} {t : Session} (success : x.success = true)
      (retains : st.tree.Retains t.tree) (closed : t.tree.Closed)
      (collector : t.collector = st.collector) (produced : t.scope.produced = st.scope.produced)
      (repeats : ∀ earlier u, st.Matches u → u.tree.Closed → t.tree.Retains u.tree →
        ∃ y u', (again earlier).on u = (.ok y, u') ∧ y.success = true ∧ y.files = {} ∧
          u'.tree = u.tree ∧ t.Matches u') : Repeated again st (.ok x, t)

theorem step_repeated (earlier : Record StepResult) {st : Session}
    (re : ∀ visible, step.values b st.scope.produced answers = .ok visible →
      step.Reapplicable visible)
    (calm : st.collector.collecting = false) (closed : st.tree.Closed)
    (reaches : st.tree.Reaches e.project) :
    Repeated (fun earlier => e.step r b {} answers earlier step) st
      ((e.step r b {} answers earlier step).on st) := by
  rcases seen : step.values b st.scope.produced answers with f | visible
  · rw [step_on_error seen]
    refine .failed nofun rfl rfl fun earlier' u same _ => ⟨u, ?_, rfl⟩
    rw [← same.scope] at seen
    exact step_on_error seen
  · replace re := re visible seen
    let x := e.runStep step (e.context r {} answers earlier)
    have lasts : x.Lasts (st.begun step visible) :=
      runStep_lasts standard earlier re calm closed reaches
    have goes (earlier' : Record StepResult) (u : Session) (same : st.Matches u) :
        (e.step r b {} answers earlier' step).on u = x.on (u.begun step visible) := by
      rw [← same.scope] at seen
      rw [step_on_ok seen, runStep_results standard earlier earlier' re]
    have repeats {o : Except Failure StepResult}
        (first : x.on (st.begun step visible) = (o, st.begun step visible))
        (earlier' : Record StepResult) (u : Session) (same : st.Matches u) (files : u.tree = st.tree) :
        ∃ u', (e.step r b {} answers earlier' step).on u = (o, u') ∧ u'.tree = u.tree := by
      have alike := (same.begun step visible).alike files
      obtain ⟨outcomes, after⟩ := runStep_agrees standard earlier re _ _ alike
      rw [first] at outcomes after
      rw [goes earlier' u same]
      refine ⟨(x.on (u.begun step visible)).2, Prod.ext outcomes.symm rfl, ?_⟩
      exact after.tree.symm.trans files.symm
    rw [step_on_ok seen]
    unfold Lasts at lasts
    rcases ran : x.on (st.begun step visible) with ⟨o, t⟩
    rw [ran] at lasts
    cases lasts with
    | failed f => exact .failed nofun rfl rfl (repeats ran)
    | refused success files =>
      refine .failed (fun y same => ?_) rfl rfl (repeats ran)
      cases same
      exact ⟨success, files⟩
    | done success retains closed again =>
      refine .done success retains closed rfl rfl fun earlier' u same closed kept => ?_
      have matching := same.begun step visible
      obtain ⟨y, second, silent⟩ := again (u.begun step visible) matching closed kept
      exact ⟨y, u.begun step visible, (goes earlier' u same).trans second, silent.1, silent.2, rfl,
        matching.scope, matching.collector⟩

/-! ## All steps -/

/-- Steps that were done leave nothing to do, or fail where they failed. -/
theorem runSteps_echoed {steps : List Step} (re : ∀ step ∈ steps, ∀ visible,
      step.values b [] answers = .ok visible → step.Reapplicable visible)
    (earlier : Record StepResult) {st : Session} (produced : st.scope.produced = [])
    (calm : st.collector.collecting = false) (closed : st.tree.Closed)
    (reaches : st.tree.Reaches e.project)
    {o : Except Failure (List StepResult)} {t : Session}
    (once : (e.runSteps r b {} answers earlier steps).on st = (o, t)) :
    t.tree.Closed ∧ st.tree.Retains t.tree ∧ t.collector = st.collector ∧
      ∀ earlier' u, st.Matches u → u.tree = t.tree →
        ∃ o' u', (e.runSteps r b {} answers earlier' steps).on u = (o', u') ∧ Echoed o o' ∧
          u'.tree = t.tree := by
  induction steps generalizing earlier st o t with
  | nil =>
    cases once
    refine ⟨closed, .refl _, rfl, fun earlier' u _ same => ⟨.ok [], u, rfl, ?_, same⟩⟩
    exact .ran rfl (List.forall_mem_nil _)
  | cons step rest ih =>
    have one : Repeated (fun earlier => e.step r b {} answers earlier step) st
        ((e.step r b {} answers earlier step).on st) :=
      step_repeated standard earlier (by rw [produced]; exact re step List.mem_cons_self) calm closed
        reaches
    rcases first : (e.step r b {} answers earlier step).on st with ⟨x, t₁⟩
    rw [first] at one
    cases one with
    | failed fails tree collector repeats =>
      have closed₁ : t₁.tree.Closed := tree ▸ closed
      have retains : st.tree.Retains t₁.tree := tree ▸ .refl _
      cases x with
      | error f =>
        rw [runSteps_on_error first] at once
        cases once
        refine ⟨closed₁, retains, collector, fun earlier' u same files => ?_⟩
        obtain ⟨u', second, kept⟩ := repeats earlier' u same (files.trans tree)
        exact ⟨_, u', runSteps_on_error second, .raised f, kept.trans files⟩
      | ok y =>
        obtain ⟨success, silent⟩ := fails y rfl
        rw [runSteps_on_failed first success] at once
        cases once
        refine ⟨closed₁, retains, collector, fun earlier' u same files => ?_⟩
        obtain ⟨u', second, kept⟩ := repeats earlier' u same (files.trans tree)
        refine ⟨_, u', runSteps_on_failed second success, .ran rfl ?_, kept.trans files⟩
        exact List.forall_mem_singleton.mpr silent
    | @done x _ success retains closed₁ collector produced₁ repeats =>
      rw [runSteps_on_ok first success] at once
      rcases tail : (e.runSteps r b {} answers (earlier.put step.name x) rest).on t₁ with ⟨o₁, t₂⟩
      rw [tail] at once
      cases once
      have reaches₁ : t₁.tree.Reaches e.project := reaches.mono retains.directories
      obtain ⟨closed₂, retains₂, collector₂, echoes⟩ :=
        ih (fun step hs => re step (List.mem_cons_of_mem _ hs)) _ (produced₁.trans produced)
          (by rw [collector, calm]) closed₁ reaches₁ tail
      refine ⟨closed₂, retains.trans retains₂, collector₂.trans collector,
        fun earlier' u same files => ?_⟩
      obtain ⟨y, u', second, success', silent, kept, matching⟩ :=
        repeats earlier' u same (files ▸ closed₂) (files ▸ retains₂)
      obtain ⟨o', u'', rest', echoed, left⟩ :=
        echoes (earlier'.put step.name y) u' matching (kept.trans files)
      refine ⟨_, _, runSteps_on_ok second success', ?_, ?_⟩
      · rw [rest']
        exact echoed.cons success success' silent
      · rw [rest']
        exact left

/-! ## Executions -/

/-- Executed a second time such a recipe leaves every file as it is and reports none, and it succeeds
exactly if it succeeded the first time. -/
theorem execute_idempotent (re : ∀ step ∈ r.steps, ∀ visible,
      step.values b [] answers = .ok visible → step.Reapplicable visible)
    {s s' t t' : Session} {o o' : Except Failure RecipeResult}
    (calm : s.collector.collecting = false) (closed : s.tree.Closed)
    (anchored : ".." ∉ e.project.parts ∨ s.tree.isDirectory e.project = true)
    (once : (e.execute r b {} answers).on s = (o, t))
    (tree : s'.tree = t.tree) (collector : s'.collector = t.collector)
    (twice : (e.execute r b {} answers).on s' = (o', t')) :
    t'.tree = t.tree ∧
      ((∃ x, o' = .ok x ∧ x.success = true) ↔ ∃ x, o = .ok x ∧ x.success = true) ∧
      ∀ x, o' = .ok x → x.filesCreated = [] ∧ x.filesModified = [] := by
  cases valid : (e.validate r b.merged answers).valid with
  | false =>
    obtain ⟨f, failed⟩ : ∃ f, ∀ s, (e.execute r b {} answers).on s = (.error f, s) :=
      execute_on_invalid valid
    rw [failed] at once twice
    cases once
    cases twice
    exact ⟨tree, Iff.rfl, nofun⟩
  | true =>
    have reaches : (s.opened r).tree.Reaches e.project := Tree.reaches_of_anchored anchored
    rcases first : (e.runSteps r b {} answers [] r.steps).on (s.opened r) with ⟨steps, t₁⟩
    have produced : (s.opened r).scope.produced = [] := rfl
    obtain ⟨-, -, kept, echoes⟩ := runSteps_echoed standard re [] produced calm closed reaches first
    rw [execute_on_steps valid first] at once
    cases once
    obtain ⟨steps', t₂, second, echoed, left⟩ :=
      echoes [] (s'.opened r) ⟨rfl, collector.trans kept⟩ tree
    rw [execute_on_steps valid second] at twice
    cases twice
    refine ⟨left, ?_⟩
    cases echoed with
    | raised f => exact ⟨Iff.rfl, nofun⟩
    | @ran xs ys success silent =>
      refine ⟨?_, fun x result => ?_⟩
      · simp only [Except.map, Except.ok.injEq, exists_eq_left']
        rw [RecipeResult.success_eq, RecipeResult.success_eq, success] <;> rfl
      · cases result
        refine ⟨RecipeResult.gather_eq_nil silent rfl, ?_⟩
        rw [RecipeResult.filesModified, RecipeResult.gather_eq_nil silent rfl]
        rfl

end Steps

end Engine

/-! ## A line that is there already -/

namespace Reapplied

/-- A recipe that adds a file and splices a line into it, unless the line is there. -/
def recipe : Recipe where
  name := "line"
  steps := [{ name := "add", body := .add { target := "a.txt", body := some "one\n" } },
    { name := "line"
      body := .inject { target := "a.txt", body := some "two", skipIf := some "two" } }]

def engine : Engine where
  project := .ofString "/project"
  tools := .standard (fun _ _ => .error .noProgram) []

/-- The two texts of the recipe have no placeholders. -/
theorem rendered {text x : String} (known : text = "a.txt" ∨ text = "two")
    (h : Template.render text [] = .ok x) : x = text := by
  have computed : (Template.render text []).toOption = some text := by
    rcases known with rfl | rfl <;> decide +kernel
  rw [h] at computed
  exact Option.some.inj computed

theorem straight {step : Step} (h : step.target? = some "a.txt") (text : String)
    (written : step.written? [] = some text) : ".." ∉ Path.partsOf text := by
  rw [Step.written?, h] at written
  rcases made : Template.render "a.txt" [] with f | x
  · rw [Option.bind_some, made] at written
    cases written
  · rw [Option.bind_some, made] at written
    cases written
    rw [rendered (.inl rfl) made]
    decide

theorem reapplicable : ∀ step ∈ recipe.steps, ∀ visible, step.values {} [] [] = .ok visible →
    step.Reapplicable visible := by
  intro step hs visible seen
  have none : visible = [] := by
    rcases List.mem_pair.mp hs with rfl | rfl <;> cases seen <;> rfl
  subst none
  rcases List.mem_pair.mp hs with rfl | rfl
  · exact ⟨straight rfl, .inl ⟨_, rfl, rfl, rfl⟩⟩
  · refine ⟨straight rfl, .inr ⟨_, rfl, rfl, by decide, ?_, ?_⟩⟩
    · intro text mark given marked
      cases given
      obtain rfl := rendered (.inr rfl) marked
      exact ⟨by decide, by decide, by decide, by decide⟩
    · intro text mark body given marked filled
      cases given
      obtain rfl := rendered (.inr rfl) marked
      obtain rfl := rendered (.inr rfl) filled
      exact List.infix_rfl

/-- The file and its line stay, and nothing is reported the second time. -/
theorem stays : ∃ x t x' t', (engine.execute recipe {} {} []).on {} = (.ok x, t) ∧
    x.success = true ∧ (engine.execute recipe {} {} []).on t = (.ok x', t') ∧ t'.tree = t.tree ∧
    x'.success = true ∧ x'.filesCreated = [] ∧ x'.filesModified = [] := by
  have succeeds : ((engine.execute recipe {} {} []).on {}).1.toOption.map (·.success) = some true := by
    decide +kernel
  rcases once : (engine.execute recipe {} {} []).on {} with ⟨o, t⟩
  rcases twice : (engine.execute recipe {} {} []).on t with ⟨o', t'⟩
  obtain ⟨kept, succeeded, silent⟩ := Engine.execute_idempotent (fun _ there => there)
    reapplicable (by decide) (by decide) (.inl (by decide)) once rfl rfl twice
  rw [once] at succeeds
  cases o with
  | error f => cases succeeds
  | ok x =>
    have success : x.success = true := Option.some.inj succeeds
    obtain ⟨x', rfl, success'⟩ := succeeded.mpr ⟨x, rfl, success⟩
    exact ⟨x, t, x', t', rfl, success, twice, kept, success', silent x' rfl⟩

end Reapplied

end Scaffold
