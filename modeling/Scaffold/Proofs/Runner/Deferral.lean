import Scaffold.Proofs.Engine.Effects
import Scaffold.Run

/-!
# Deferred answers

A run collects the keys of the answers that it will need: those of the variables that are left to the
model, and those of the steps that ask a model and are admitted by their conditions.  Conditions are
looked up then with the variables of the recipe alone, since while prompts are collected no step sets
any.

An execution with answers looks conditions up again, now with the answers and with what steps have set
among the variables.  A step that was kept out while prompts were collected may be admitted now.  With
answers for the collected keys alone, such a step fails for want of an answer, unless some other step
has recorded its key.
-/

namespace Scaffold

open Run Session

/-- A turn asks for an answer: its step is admitted and asks a model. -/
def Turn.Asks (t : Turn) (k : String) : Prop :=
  ∃ visible, t.visible = .ok visible ∧ t.step.isExcluded visible = false ∧ t.step.asks? = some k

/-! ## Keys that are collected -/

theorem Recipe.mem_inquiriesFor (r : Recipe) (names : List String) (k : String) :
    (∃ i ∈ r.inquiriesFor names, i.key = k) ↔ k ∈ names ∧ r.declared.has k = true := by
  unfold inquiriesFor
  simp only [List.mem_filterMap, Option.map_eq_some_iff]
  constructor
  · rintro ⟨i, ⟨n, hn, d, hd, rfl⟩, rfl⟩
    exact ⟨hn, by simp [Record.has, hd, inquiryFor]⟩
  · rintro ⟨hk, has⟩
    obtain ⟨d, hd⟩ := Option.isSome_iff_exists.mp has
    exact ⟨r.inquiryFor k d, ⟨k, hk, d, hd, rfl⟩, rfl⟩

/-- The key of an answer that a run asks for: a declared variable is left to the model, or a step
asks a model and its condition admits it. -/
def Recipe.Wants (r : Recipe) (b : Bindings) (k : String) : Prop :=
  k ∈ b.missing ∧ r.declared.has k = true ∨ ∃ s ∈ r.steps, s.asks? = some k ∧ s.IsAdmitted b

namespace Runner

variable {u : Runner} {sh : Shell} {actions : Actions}

/-- Where collecting succeeds, the keys are those of the answers that the run asks for. -/
theorem mem_keys_collectPrompts (ht : u.engine.tools.AreStandard sh actions)
    (hw : ∀ w, u.engine.prompter = some w → w.Quiet) {r : Recipe} {q : RunRequest} {b : Bindings}
    {s t : Session} {first : RecipeResult} (cleared : s.collector = {})
    (h : (u.collectPrompts r q b).on s = (.ok first, t)) (success : first.success = true)
    (k : String) : k ∈ t.collector.keys ↔ r.Wants b k := by
  unfold collectPrompts at h
  rw [on_bind_ok (Run.on_collect _ s), cleared] at h
  have collecting : ((r.inquiriesFor b.missing).foldl Collector.add
      (Collector.enter {})).collecting = true := Collector.collecting_addAll _ _
  rw [Engine.mem_keys_execute ht hw collecting h success k, Collector.mem_keys_addAll,
    r.mem_inquiriesFor]
  simp [Recipe.Wants, Collector.enter, Collector.keys, Record.keys]

end Runner

/-! ## Steps without an answer -/

/-- A step that asks a model fails where it has no answer and there is no model. -/
theorem AiStep.execute_unanswered {a : AiStep} {s : Step} {c : StepContext} {st : Session}
    (hg : c.generator = none) (lacks : c.answers.get? (a.answerKey s.name) = none)
    (real : st.collector.collecting = false) :
    (a.execute s c).on st =
      (.ok (s.failed (AiStep.unanswered (a.answerKey s.name)).message), st) := by
  have generated : (a.generate s c none).on st =
      (.error (AiStep.unanswered (a.answerKey s.name)), st) := by
    unfold AiStep.generate
    rw [hg]
    rfl
  unfold AiStep.execute
  rw [lacks]
  dsimp only
  rw [on_bind_ok (on_get st), if_neg (by simp [real])]
  unfold AiStep.guarded
  rw [on_bind_ok (on_attempt _ st), on_bind_error generated]
  rfl

namespace Session

/-- From `s` to `t` it is still collected or not. -/
def SameMode (s t : Session) : Prop := t.collector.collecting = s.collector.collecting

instance sameModePreorder : IsPreorder Session SameMode where
  refl _ := rfl
  trans _ _ _ h h' := h'.trans h

end Session

namespace Engine

variable {e : Engine} {r : Recipe} {b : Bindings} {options : Options} {answers : Record String}
variable {sh : Shell} {actions : Actions}

/-- What is asked of the handlers of actions: they do not begin or end collecting. -/
def KeepsCollecting (actions : Actions) : Prop :=
  ∀ name a, actions.find? name = some a → ∀ params c, (a.handler params c).Keeps SameMode

theorem collecting_permits (hw : ∀ w, e.prompter = some w → w.Quiet) (hg : e.generator = none)
    (ha : KeepsCollecting actions) : e.Permits options (Keeps SameMode) sh actions where
  tools r answers earlier simulate :=
    have talk {s t : Session} (c : Conversed s t) : SameMode s t :=
      congrArg Collector.collecting c.collector
    { writes := fun _ p text s => by
        rw [on_writeText]
        rfl
      runs := fun _ k => command_holds (keepsAll _) (fun _ => keeps_modify fun _ => rfl)
        (fun _ => keeps_modify fun _ => rfl) sh k
      asks := fun _ w h name d => ((hw w h).ask name d).mono fun _ _ => talk
      confirms := fun _ w h message => ((hw w h).confirm message).mono fun _ _ => talk
      prints := fun _ => keeps_modify fun _ => rfl
      acts := fun _ _ => keeps_modify fun _ => rfl
      handles := fun _ name a found params => ha name a found params _
      shares := fun _ => keeps_modify fun _ => rfl
      sets := fun _ _ => keeps_modify fun _ => rfl
      records := fun _ => keeps_modify fun _ => rfl
      calls := fun g h => by
        have none : e.generator = some g := h
        rw [hg] at none
        cases none }
  sees _ := keeps_modify fun _ => rfl
  begins _ _ := keeps_modify fun _ => rfl

theorem history_not_collecting (ht : e.tools.AreStandard sh actions)
    (h : e.Permits options (Keeps SameMode) sh actions) {s : Session}
    (real : s.collector.collecting = false) {t : Turn}
    (mem : t ∈ e.history r b options answers s) : t.before.collector.collecting = false := by
  -- no turn before this one has begun to collect
  obtain ⟨before, behind, split⟩ := List.append_of_mem mem
  have chained : Chained (s.opened r) (before ++ t :: behind) := by
    rw [← split]
    exact history_chained s
  have kept : SameMode (s.opened r) t.before := by
    refine chained.keeps fun m hm => ?_
    have turned := (mem_history (t := m) (by rw [split]; simp [hm])).1
    rw [turned]
    exact step_holds (keepsAll _) ht h _ _ _
  exact Eq.trans kept real

/-- So does a turn whose step asks a model. -/
theorem turn_unanswered {t : Turn} {k : String} (model : e.tools.get? .ai = some .model)
    (hg : e.generator = none) (ht : t = e.turn r b options answers t.earlier t.step t.before)
    (real : t.before.collector.collecting = false) (asks : t.Asks k)
    (lacks : answers.get? k = none) :
    t.outcome = .ok (t.step.failed (AiStep.unanswered k).message) := by
  obtain ⟨visible, seen, admitted, key⟩ := asks
  have values : t.step.values b t.before.scope.produced answers = .ok visible := by
    rw [← seen, ht]
    rfl
  have outcome : t.outcome = ((e.step r b options answers t.earlier t.step).on t.before).1 := by
    rw [ht]
    rfl
  cases body : t.step.body with
  | ai a =>
    have kind : t.step.kind = .ai := congrArg StepBody.kind body
    obtain rfl : a.answerKey t.step.name = k := by
      rw [Step.asks?, body] at key
      exact Option.some.inj key
    have found : e.tools.get? t.step.kind = some .model := by rw [kind, model]
    let c := e.context r options answers t.earlier
    have failed : (a.execute t.step { c with simulate := false }).on (t.before.begun t.step visible) =
        (.ok (t.step.failed (AiStep.unanswered (a.answerKey t.step.name)).message),
          t.before.begun t.step visible) :=
      AiStep.execute_unanswered hg lacks real
    rw [outcome, step_on_ok values, runStep_on found admitted (by simp [real]), on_runTool]
    simp only [Tool.model, body, begun_collector, real, Bool.false_and]
    rw [failed]
  | _ => simp [Step.asks?, body] at key

end Engine

/-! ## Executions with answers -/

/-- A runner without a model of its own. -/
structure Runner.Modelless (u : Runner) (sh : Shell) (actions : Actions) : Prop where
  tools : u.engine.tools.AreStandard sh actions
  model : u.engine.tools.get? .ai = some .model
  generator : u.engine.generator = none
  prompter : ∀ w, u.engine.prompter = some w → w.Quiet
  handlers : Engine.KeepsCollecting actions

/-- What becomes of a recipe whose prompts were collected when it is executed with answers for all of
them.  A turn that has no answer fails, and its answer was not asked for while prompts were collected.
With no other answers, all turns have theirs exactly where each asks for one that was asked for then. -/
theorem Runner.answered_iff {u : Runner} {sh : Shell} {actions : Actions} (h : u.Modelless sh actions)
    {r : Recipe} {q : RunRequest} {b : Bindings} {s t : Session} {first : RecipeResult}
    (cleared : s.collector = {}) (collected : (u.collectPrompts r q b).on s = (.ok first, t))
    (success : first.success = true) {answers : Record String}
    (supplied : ∀ k ∈ t.collector.keys, answers.has k = true) (b' : Bindings) (options : Options)
    {s' : Session} (real : s'.collector.collecting = false) :
    let turns := u.engine.history r b' options answers s'
    (∀ x ∈ turns, ∀ k, x.Asks k → answers.has k = false →
      x.outcome = .ok (x.step.failed (AiStep.unanswered k).message) ∧ ¬ r.Wants b k) ∧
    ((∀ k, answers.has k = true → k ∈ t.collector.keys) →
      ((∀ x ∈ turns, ∀ k, x.Asks k → answers.has k = true) ↔
        ∀ x ∈ turns, ∀ k, x.Asks k → r.Wants b k)) := by
  intro turns
  have keys (k : String) : k ∈ t.collector.keys ↔ r.Wants b k :=
    mem_keys_collectPrompts h.tools h.prompter cleared collected success k
  have permits : u.engine.Permits options _ sh actions :=
    Engine.collecting_permits h.prompter h.generator h.handlers
  refine ⟨fun x hx k asks lacks => ⟨?_, fun wanted => ?_⟩, fun others => ?_⟩
  · have none : answers.get? k = none := by simpa [Record.has] using lacks
    exact Engine.turn_unanswered h.model h.generator (Engine.mem_history hx).1
      (Engine.history_not_collecting h.tools permits real hx) asks none
  · have has := supplied k ((keys k).mpr wanted)
    rw [lacks] at has
    cases has
  · constructor
    · intro answered x hx k asks
      exact (keys k).mp (others k (answered x hx k asks))
    · intro wanted x hx k asks
      exact supplied k ((keys k).mpr (wanted x hx k asks))

/-! ## A step that depends on an answer -/

namespace Dependent

/-- A recipe that asks for a text only where another answer counts as true. -/
def recipe : Recipe where
  name := "dependent"
  steps := [{ name := "first", body := .ai { key := some "flag", prompt := "Is a text wanted?" } },
    { name := "second", condition := some "flag"
      body := .ai { key := some "text", prompt := "Write the text." } }]

def runner : Runner where
  engine := { project := .ofString "/project", tools := .standard (fun _ _ => .error .noProgram) [] }
  transport := .ok .document

/-- The answer to the only prompt that is collected. -/
def answers : Record String := [("flag", "yes, please do")]

/-- The turns of the execution with that answer. -/
def turns : List Turn := runner.engine.history recipe {} {} answers {}

theorem modelless : runner.Modelless (fun _ _ => .error .noProgram) [] where
  tools _ h := h
  model := rfl
  generator := rfl
  prompter _ h := by cases h
  handlers _ _ found := by cases found

theorem collected : ∃ first t, (runner.collectPrompts recipe {} {}).on {} = (.ok first, t) ∧
    first.success = true ∧ t.collector.keys = ["flag"] := by
  have keys : ((runner.collectPrompts recipe {} {}).on {}).2.collector.keys = ["flag"] := by
    decide +kernel
  have success : ((runner.collectPrompts recipe {} {}).on {}).1.toOption.any (·.success) = true := by
    decide +kernel
  rcases h : (runner.collectPrompts recipe {} {}).on {} with ⟨f | first, t⟩ <;> rw [h] at keys success
  · cases success
  · exact ⟨first, t, rfl, success, keys⟩

theorem asks_text : ∃ x ∈ turns, x.Asks "text" := by
  have asked : (turns.any fun x => x.visible.toOption.any fun visible =>
      !x.step.isExcluded visible && x.step.asks? == some "text") = true := by decide +kernel
  obtain ⟨x, hx, h⟩ := List.any_eq_true.mp asked
  rcases seen : x.visible with f | visible <;> rw [seen] at h
  · cases h
  · simp only [Except.toOption, Option.any_some, Bool.and_eq_true, Bool.not_eq_true', beq_iff_eq] at h
    exact ⟨x, hx, visible, seen, h.1, h.2⟩

/-- The execution with the answer that was asked for fails for want of another. -/
theorem fails_unanswered : ∃ first t x, (runner.collectPrompts recipe {} {}).on {} = (.ok first, t) ∧
    first.success = true ∧ (∀ k ∈ t.collector.keys, answers.has k = true) ∧ x ∈ turns ∧
    x.outcome = .ok (x.step.failed (AiStep.unanswered "text").message) ∧
    "text" ∉ t.collector.keys := by
  obtain ⟨first, t, ran, success, keys⟩ := collected
  obtain ⟨x, hx, asks⟩ := asks_text
  have permits : runner.engine.Permits {} _ (fun _ _ => .error .noProgram) [] :=
    Engine.collecting_permits modelless.prompter modelless.generator modelless.handlers
  have real : x.before.collector.collecting = false :=
    Engine.history_not_collecting modelless.tools permits rfl hx
  have failed := Engine.turn_unanswered rfl rfl (Engine.mem_history hx).1 real asks (by decide)
  exact ⟨first, t, x, ran, success, by simp [keys, answers, Record.has, Record.get?], hx, failed,
    by simp [keys]⟩

/-- Not all turns have their answers, since one asks for an answer that was not asked for before. -/
theorem not_answered : ∃ first t, (runner.collectPrompts recipe {} {}).on {} = (.ok first, t) ∧
    first.success = true ∧ (∀ k ∈ t.collector.keys, answers.has k = true) ∧
    ((∀ x ∈ turns, ∀ k, x.Asks k → answers.has k = true) ↔
      ∀ x ∈ turns, ∀ k, x.Asks k → recipe.Wants {} k) := by
  obtain ⟨first, t, ran, success, keys⟩ := collected
  have supplied : ∀ k ∈ t.collector.keys, answers.has k = true := by
    simp [keys, answers, Record.has, Record.get?]
  have others : ∀ k, answers.has k = true → k ∈ t.collector.keys := by
    intro k has
    rw [Record.has_eq_true_iff] at has
    rw [keys]
    exact has
  have real : ({} : Session).collector.collecting = false := rfl
  have told := Runner.answered_iff modelless rfl ran success supplied {} {} real
  exact ⟨first, t, ran, success, supplied, told.2 others⟩

end Dependent

end Scaffold
