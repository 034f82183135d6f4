import Scaffold.Proofs.Session.Runs
import Scaffold.Engine

/-!
# What tools return

Whatever a tool of the program returns for a step is a result of that step: completed, skipped or
failed.  Only where something may be changed does it name files that were touched.  So a property of
all such results is a property of whatever the tools return; that a result names its step is one.

Only what a run returns matters here, so a run of two parts is judged by its second part alone.
-/

namespace Scaffold

namespace Run

variable {α β : Type} {P : α → Prop}

/-- Whatever a run returns has a property. -/
def Returns (P : α → Prop) (x : Run α) : Prop := ∀ s a t, x.on s = (.ok a, t) → P a

theorem returns_pure {a : α} (h : P a) : (pure a : Run α).Returns P := by
  intro s a' t same
  cases same
  exact h

theorem returns_bind {x : Run β} {f : β → Run α} (h : ∀ b, (f b).Returns P) :
    (x >>= f).Returns P := by
  intro s a t same
  obtain ⟨b, s', -, behind⟩ := on_bind_eq_ok same
  exact h b s' a t behind

end Run

open Run

/-- A run returns results under the name of a step. -/
abbrev Step.NamedBy (s : Step) (x : Run StepResult) : Prop := x.Returns fun o => o.step = s.name

/-- A tool names the step that it is given in every result. -/
def Tool.Names (t : Tool) : Prop := ∀ (s : Step) c, s.NamedBy (t.execute s c)

/-- The results of a step in a context have a property; files are touched only where something may be
changed. -/
structure Step.Grants (s : Step) (c : StepContext) (P : StepResult → Prop) : Prop where
  completed : ∀ message output metadata, P (s.completed message output {} metadata)
  touched : c.isDry = false → ∀ message output files metadata,
    P (s.completed message output files metadata)
  skipped : ∀ reason output metadata, P (s.skipped reason output metadata)
  failed : ∀ error output metadata, P (s.failed error output metadata)

theorem Step.grants_named (s : Step) (c : StepContext) : s.Grants c fun o => o.step = s.name where
  completed _ _ _ := rfl
  touched _ _ _ _ _ := rfl
  skipped _ _ _ := rfl
  failed _ _ _ := rfl

/-- Where nothing may be changed no result names a file that was touched. -/
theorem Step.grants_untouched (s : Step) {c : StepContext} (dry : c.isDry = true) :
    s.Grants c fun o => o.files = {} where
  completed _ _ _ := rfl
  touched wet := by rw [dry] at wet; cases wet
  skipped _ _ _ := rfl
  failed _ _ _ := rfl

/-! ## One tool after the other -/

section Tools

variable {s : Step} {c : StepContext} {P : StepResult → Prop} (h : s.Grants c P)

include h

theorem AddStep.put_returns (target : Path) (present force : Bool) (body : String) :
    (put s c target present force body).Returns P := by
  unfold AddStep.put
  dsimp only
  split
  · exact returns_pure (h.completed _ _ _)
  next wet =>
    refine returns_bind fun _ => ?_
    split <;> exact returns_pure (h.touched (by simpa using wet) _ _ _ _)

theorem AddStep.execute_returns (a : AddStep) : (a.execute s c).Returns P := by
  unfold AddStep.execute
  refine returns_bind fun target => returns_bind fun kept => ?_
  split
  · exact returns_pure (h.skipped _ _ _)
  refine returns_bind fun st => ?_
  dsimp only
  split
  · exact returns_pure (h.skipped _ _ _)
  refine returns_bind fun body => ?_
  split
  · unfold AddStep.replace
    refine returns_bind fun text => ?_
    split
    · exact returns_pure (h.completed _ _ _)
    refine returns_bind fun overwrite => ?_
    split
    · exact returns_pure (h.skipped _ _ _)
    · exact AddStep.put_returns h target true _ body
  · exact AddStep.put_returns h target false _ body

theorem InjectStep.execute_returns (a : InjectStep) : (a.execute s c).Returns P := by
  unfold InjectStep.execute
  refine returns_bind fun target => returns_bind fun body => returns_bind fun skipIf =>
    returns_bind fun st => ?_
  split
  · exact returns_pure (h.completed _ _ _)
  refine returns_bind fun spliced => ?_
  split
  split
  · exact returns_pure (h.skipped _ _ _)
  · split
    · exact returns_pure (h.completed _ _ _)
    · split
      · exact returns_pure (h.completed _ _ _)
      next wet => exact returns_pure (h.touched (by simpa using wet) _ _ _ _)

theorem ShellStep.execute_returns (a : ShellStep) (sh : Shell) : (a.execute sh s c).Returns P := by
  unfold ShellStep.execute
  refine returns_bind fun command => returns_bind fun directory => ?_
  split
  · exact returns_pure (h.completed _ _ _)
  refine returns_bind fun o => ?_
  split
  · exact returns_pure (h.failed _ _ _)
  · exact returns_pure (h.completed _ _ _)

theorem SetupStep.execute_returns (a : SetupStep) (sh : Shell) : (a.execute sh s c).Returns P := by
  unfold SetupStep.execute
  refine returns_bind fun commands => returns_bind fun directory => ?_
  dsimp only
  split
  · exact returns_pure (h.completed _ _ _)
  refine returns_bind fun ran => ?_
  split
  · exact returns_pure (h.failed _ _ _)
  · exact returns_pure (h.completed _ _ _)

theorem ActionStep.execute_returns (a : ActionStep) (actions : Actions) :
    (a.execute actions s c).Returns P := by
  unfold ActionStep.execute
  dsimp only
  split
  · exact returns_pure (h.failed _ _ _)
  refine returns_bind fun params => ?_
  split
  · exact returns_pure (h.completed _ _ _)
  next wet =>
    refine returns_bind fun _ => returns_bind fun o => returns_bind fun _ => ?_
    exact returns_pure (h.touched (by simpa using wet) _ _ _ _)

namespace AiStep

theorem deliver_returns (a : AiStep) (text : String) : (a.deliver s c text).Returns P := by
  unfold AiStep.deliver
  dsimp only
  split
  · exact returns_bind fun _ => returns_pure (h.completed _ _ _)
  · exact returns_bind fun _ => returns_pure (h.completed _ _ _)
  · refine returns_bind fun target => ?_
    unfold deliverFile
    refine returns_bind fun path => ?_
    dsimp only
    split
    · exact returns_pure (h.completed _ _ _)
    next wet =>
      refine returns_bind fun st => returns_bind fun same => ?_
      split
      · exact returns_pure (h.completed _ _ _)
      · exact returns_bind fun _ => returns_pure (h.touched (by simpa using wet) _ _ _ _)
  · refine returns_bind fun target => ?_
    unfold deliverSplice
    refine returns_bind fun path => returns_bind fun skipIf => returns_bind fun spliced => ?_
    split
    split
    · exact returns_pure (h.skipped _ _ _)
    · split
      · exact returns_pure (h.completed _ _ _)
      next wet =>
        have wet : c.isDry = false := by simp_all
        exact returns_pure (h.touched wet _ _ _ _)
  · exact returns_pure (h.failed _ _ _)

/-- A failure that is caught is the failure of the step. -/
theorem guarded_returns {x : Run StepResult} (returns : x.Returns P) : (guarded s x).Returns P := by
  intro st o t same
  obtain ⟨attempted, st', tried, behind⟩ := on_bind_eq_ok same
  rw [on_attempt] at tried
  cases tried
  cases outcome : (x.on st).1 with
  | error f =>
    rw [outcome] at behind
    dsimp only at behind
    split at behind
    · cases behind
      exact h.failed _ _ _
    · cases behind
  | ok o' =>
    rw [outcome] at behind
    cases behind
    exact returns st _ _ (Prod.ext outcome rfl)

theorem execute_returns (a : AiStep) : (a.execute s c).Returns P := by
  unfold AiStep.execute
  split
  · refine guarded_returns h (returns_bind fun text => ?_)
    exact deliver_returns h a text
  · refine returns_bind fun st => ?_
    split
    · unfold AiStep.collect
      exact returns_bind fun _ => returns_bind fun _ => returns_bind fun _ =>
        returns_pure (h.completed _ _ _)
    · refine guarded_returns h (returns_bind fun text => ?_)
      exact deliver_returns h a text

end AiStep

/-- What the results of a step have in common, the tools of the program return. -/
theorem Tool.execute_returns {sh : Shell} {actions : Actions} {t : Tool}
    (ht : t ∈ Tools.standard sh actions) : (t.execute s c).Returns P := by
  have misplaced (k : StepKind) : (pure (s.misplaced k) : Run StepResult).Returns P :=
    returns_pure (h.failed _ _ _)
  simp only [Tools.standard, List.mem_cons, List.not_mem_nil, or_false] at ht
  rcases ht with rfl | rfl | rfl | rfl | rfl | rfl | rfl
  · dsimp only [Tool.action]
    split
    · exact ActionStep.execute_returns h _ actions
    · exact misplaced _
  · dsimp only [Tool.add]
    split
    · exact AddStep.execute_returns h _
    · exact misplaced _
  · dsimp only [Tool.inject]
    split
    · exact InjectStep.execute_returns h _
    · exact misplaced _
  · dsimp only [Tool.shell]
    split
    · exact ShellStep.execute_returns h _ sh
    · exact misplaced _
  · dsimp only [Tool.setup]
    split
    · exact SetupStep.execute_returns h _ sh
    · exact misplaced _
  · dsimp only [Tool.echo]
    split
    · exact returns_bind fun _ => returns_bind fun _ => returns_pure (h.completed _ _ _)
    · exact misplaced _
  · dsimp only [Tool.model]
    split
    · exact AiStep.execute_returns h _
    · exact misplaced _

end Tools

/-- The tools of the program name their steps. -/
theorem Tools.standard_names {sh : Shell} {actions : Actions} {t : Tool}
    (ht : t ∈ Tools.standard sh actions) : t.Names :=
  fun s c => Tool.execute_returns (s.grants_named c) ht

end Scaffold
