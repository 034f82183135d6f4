import Scaffold.Proofs.Engine.Effects

/-!
# Executions that agree

Without a model an execution can be repeated: from the same files and the same collector it comes to
the same result and to the same files.  What a session remembers besides — its journal, its accounts,
the variables of an earlier execution — makes no difference to it.

A person is asked only where steps may, and then has to give the same answer to the same question.  The
handlers of actions have to agree as well.
-/

namespace Scaffold

open Run Session

/-- A person whose answers depend on nothing but the question, the files and the variables. -/
structure Prompter.Steady (w : Prompter) : Prop where
  ask : ∀ name d, (w.ask name d).Agrees
  confirm : ∀ message, (w.confirm message).Agrees

namespace Engine

/-- What executions need so that they can be repeated. -/
structure Repeatable (e : Engine) (options : Options) (sh : Shell) (actions : Actions) : Prop where
  tools : e.tools.AreStandard sh actions
  generator : e.generator = none
  prompter : options.interactive = true → ∀ w, e.prompter = some w → w.Steady
  handlers : ∀ name a, actions.find? name = some a → ∀ params c, (a.handler params c).Agrees

variable {e : Engine} {options : Options} {sh : Shell} {actions : Actions}

theorem Repeatable.permits (h : e.Repeatable options sh actions) :
    e.Permits options Agrees sh actions where
  tools r answers earlier simulate :=
    { writes := fun _ => agrees_writeText
      runs := fun _ k => command_holds agreesAll
        (fun text => agrees_note (.ran text))
        (fun _ => agrees_modify fun _ _ alike => ⟨rfl, alike.collector, alike.scope⟩) sh k
      asks := fun interactive w hw => (h.prompter interactive w hw).ask
      confirms := fun interactive w hw => (h.prompter interactive w hw).confirm
      prints := fun _ => agrees_note _
      acts := fun _ name => agrees_note (.acted name)
      handles := fun _ name a found params => h.handlers name a found params _
      shares := fun f => agrees_modify fun _ _ alike =>
        ⟨alike.tree, alike.collector, by simp only [alike.scope]⟩
      sets := fun name v => agrees_modify fun _ _ alike =>
        ⟨alike.tree, alike.collector, by simp only [alike.scope]⟩
      records := fun i => agrees_modify fun _ _ alike =>
        ⟨alike.tree, by simp only [alike.collector], alike.scope⟩
      calls := fun g hg => by
        have some : e.generator = some g := hg
        rw [h.generator] at some
        cases some }
  sees visible := agrees_modify fun _ _ alike =>
    ⟨alike.tree, alike.collector, by simp only [alike.scope]⟩
  begins name visible := agrees_note (.began name visible)

/-- From the same files and the same collector an execution comes to the same result and to the same
files. -/
theorem execute_agrees (h : e.Repeatable options sh actions) (r : Recipe) (b : Bindings)
    (answers : Record String) {s t : Session} (tree : s.tree = t.tree)
    (collector : s.collector = t.collector) :
    ((e.execute r b options answers).on s).1 = ((e.execute r b options answers).on t).1 ∧
      ((e.execute r b options answers).on s).2.tree =
        ((e.execute r b options answers).on t).2.tree := by
  cases valid : (e.validate r b.merged answers).valid with
  | false =>
    obtain ⟨f, failed⟩ := execute_on_invalid valid
    rw [failed s, failed t]
    exact ⟨rfl, tree⟩
  | true =>
    -- the steps begin with no variables of an earlier execution, so in sessions that are alike
    have steps : (e.runSteps r b options answers [] r.steps).Agrees :=
      runSteps_holds agreesAll (step_holds agreesAll h.tools h.permits) [] r.steps
    obtain ⟨outcomes, alike⟩ := steps (s.opened r) (t.opened r) ⟨tree, collector, rfl⟩
    simp only [runSteps_on] at outcomes alike
    rw [execute_on_valid valid s, execute_on_valid valid t]
    simp only [history, valid, if_true]
    refine ⟨?_, alike.tree⟩
    rw [outcomes, alike.scope]

end Engine

end Scaffold
