import Scaffold.Proofs.Engine.Admission
import Scaffold.Proofs.Engine.Shape

/-!
# Steps outside collecting

The only tool that has anything to do with the collector is the one that asks a model, and only while
prompts are collected.  So a step that runs for good leaves the collector as it found it, whatever comes
of the step, and where an execution begins outside collecting each of its turns is outside.

A person who is asked and the handlers of actions are taken to leave the collector alone.
-/

namespace Scaffold

open Run Session

namespace Session

/-- The collector is the same in both sessions. -/
def SameCollector (s t : Session) : Prop := t.collector = s.collector

instance sameCollectorPreorder : IsPreorder Session SameCollector where
  refl _ := rfl
  trans _ _ _ h h' := h'.trans h

end Session

/-- What surrounds steps leaves the collector alone. -/
structure Engine.Discreet (e : Engine) (sh : Shell) (actions : Actions) : Prop where
  tools : e.tools.AreStandard sh actions
  asks : ∀ w, e.prompter = some w → ∀ name d, (w.ask name d).Keeps SameCollector
  confirms : ∀ w, e.prompter = some w → ∀ message, (w.confirm message).Keeps SameCollector
  handlers : ∀ name a, actions.find? name = some a → ∀ params c,
    (a.handler params c).Keeps SameCollector

theorem sameCollectorAll : Compositional (Keeps SameCollector) := keepsAll SameCollector

namespace AiStep

variable {a : AiStep} {step : Step} {c : StepContext} {s t : Session} {x name : String}

theorem Delivered.collector (h : a.Delivered name c x s t) : t.collector = s.collector := by
  cases h <;> rfl

/-- Outside collecting a step that asks a model calls it at once, and collects nothing. -/
theorem execute_collector (outside : s.collector.collecting = false) :
    ((a.execute step c).on s).2.collector = s.collector := by
  have now : ¬ a.Awaits step c s := by
    rintro ⟨-, collecting⟩
    rw [outside] at collecting
    cases collecting
  have consulted : Consulted s ((a.acquire step c).on s).2 := acquire_consults s
  rw [execute_of_not_awaits now, on_guarded, on_bind]
  rcases ran : (a.acquire step c).on s with ⟨f | x, s'⟩ <;> rw [ran] at consulted
  · exact consulted.collector
  · have delivery : a.Delivered step.name c x s' ((a.deliver step c x).on s').2 := deliver_delivers
    exact delivery.collector.trans consulted.collector

end AiStep

namespace Engine

variable {e : Engine} {sh : Shell} {actions : Actions} {r : Recipe} {b : Bindings}
variable {options : Options} {answers : Record String}

theorem Discreet.tool_collector (h : e.Discreet sh actions) {t : Tool} (ht : t ∈ e.tools) (s : Step)
    {c : StepContext} (prompter : c.prompter = e.prompter) {st : Session}
    (outside : st.collector.collecting = false) :
    ((t.execute s c).on st).2.collector = st.collector := by
  have asks : c.options.interactive = true → ∀ w, c.prompter = some w → ∀ name d,
      (w.ask name d).Keeps SameCollector := by
    rw [prompter]
    exact fun _ => h.asks
  have confirms : c.options.interactive = true → ∀ w, c.prompter = some w → ∀ message,
      (w.confirm message).Keeps SameCollector := by
    rw [prompter]
    exact fun _ => h.confirms
  have writes : c.isDry = false → ∀ p text, (writeText p text).Keeps SameCollector := by
    intro _ p text s
    rw [on_writeText]
    rfl
  have runs : c.isDry = false → ∀ k, (Run.command sh k).Keeps SameCollector := fun _ =>
    command_holds sameCollectorAll (fun _ => keeps_modify fun _ => rfl)
      (fun _ => keeps_modify fun _ => rfl) sh
  have misplaced (o : StepResult) : (pure o : Run StepResult).Keeps SameCollector := fun _ => rfl
  -- all tools but the last leave every collector alone, be it collecting or not
  have standard := h.tools t ht
  simp only [Tools.standard, List.mem_cons, List.not_mem_nil, or_false] at standard
  rcases standard with rfl | rfl | rfl | rfl | rfl | rfl | rfl
  case inr.inr.inr.inr.inr.inr =>
    dsimp only [Tool.model]
    split
    · exact AiStep.execute_collector outside
    · rfl
  all_goals refine (?_ : Keeps SameCollector _) st
  · dsimp only [Tool.action]
    split
    · exact ActionStep.execute_holds sameCollectorAll asks (fun _ _ => keeps_modify fun _ => rfl)
        (fun _ name a found params => h.handlers name a found params c)
        (fun _ => keeps_modify fun _ => rfl) _ s
    · exact misplaced _
  · dsimp only [Tool.add]
    split
    · exact AddStep.execute_holds sameCollectorAll writes confirms _ s
    · exact misplaced _
  · dsimp only [Tool.inject]
    split
    · exact InjectStep.execute_holds sameCollectorAll writes _ s
    · exact misplaced _
  · dsimp only [Tool.shell]
    split
    · exact ShellStep.execute_holds sameCollectorAll runs _ s
    · exact misplaced _
  · dsimp only [Tool.setup]
    split
    · exact SetupStep.execute_holds sameCollectorAll runs _ s
    · exact misplaced _
  · dsimp only [Tool.echo]
    split
    · refine sameCollectorAll.bind (c.render_holds sameCollectorAll _) fun message => ?_
      exact sameCollectorAll.bind (keeps_modify fun _ => rfl) fun _ => misplaced _
    · exact misplaced _

/-- A step that is not collected leaves the collector as it found it. -/
theorem Discreet.step_collector (h : e.Discreet sh actions) (earlier : Record StepResult) (s : Step)
    {st : Session} (outside : st.collector.collecting = false) :
    ((e.step r b options answers earlier s).on st).2.collector = st.collector := by
  rcases seen : s.values b st.scope.produced answers with f | visible
  · rw [step_on_error seen]
  rw [step_on_ok seen]
  have begun : (st.begun s visible).collector.collecting = false := outside
  show ((e.runStep s _).on (st.begun s visible)).2.collector = (st.begun s visible).collector
  unfold runStep
  rw [on_bind_ok (on_get _)]
  split
  · rfl
  dsimp only
  split
  · rfl
  split
  · rfl
  next tool found =>
    have same := h.tool_collector (Tools.get?_eq_some found).1 s (c := { e.context r options answers
      earlier with simulate := (st.begun s visible).collector.collecting && s.kind.mutatesFiles })
      rfl begun
    rw [on_runTool]
    rcases ran : (tool.execute s _).on (st.begun s visible) with ⟨f | o, t⟩ <;> rw [ran] at same
    · exact same
    · exact same

/-- In an execution outside collecting every turn is outside. -/
theorem Discreet.turns_collector (h : e.Discreet sh actions) (earlier : Record StepResult)
    (steps : List Step) {st : Session} (fresh : st.collector = {}) :
    (∀ u ∈ e.turns r b options answers earlier steps st,
        u.before.collector = {} ∧ u.after.collector = {}) ∧
      (leaves st (e.turns r b options answers earlier steps st)).collector = {} := by
  induction steps generalizing earlier st with
  | nil =>
    refine ⟨fun u hu => ?_, fresh⟩
    cases hu
  | cons s rest ih =>
    have outside : st.collector.collecting = false := by rw [fresh]
    have after : (e.turn r b options answers earlier s st).after.collector = {} :=
      (h.step_collector earlier s outside).trans fresh
    have single : (∀ u ∈ [e.turn r b options answers earlier s st],
        u.before.collector = {} ∧ u.after.collector = {}) ∧
          (leaves st [e.turn r b options answers earlier s st]).collector = {} := by
      refine ⟨fun u hu => ?_, after⟩
      rw [List.mem_singleton.mp hu]
      exact ⟨fresh, after⟩
    cases outcome : (e.turn r b options answers earlier s st).outcome with
    | error f =>
      rw [turns_of_error outcome]
      exact single
    | ok o =>
      cases success : o.success with
      | false =>
        rw [turns_of_failed outcome success]
        exact single
      | true =>
        rw [turns_of_success outcome success]
        obtain ⟨behind, last⟩ := ih (earlier.put s.name o) after
        refine ⟨fun u hu => ?_, last⟩
        rcases List.mem_cons.mp hu with rfl | hu
        · exact ⟨fresh, after⟩
        · exact behind u hu

end Engine

end Scaffold
