import Scaffold.Proofs.Engine.Turns
import Scaffold.Proofs.Session.Journal
import Scaffold.Proofs.Tool.Effects

/-!
# What executions do to a session

An execution does what its steps do, and a step does what the tool for it does.

While prompts are collected this is next to nothing.  Steps that cannot be repeated are put off, and
steps that change files only say what they would do: all that happens is a conversation with a person.
A step that asks a model records its inquiry.  So the files stay as they are, no variable is set, and
the inquiries are those of the steps whose conditions admit them.
-/

namespace Scaffold

open Run Session

/-- The key of the answer that a step asks for. -/
def Step.asks? (s : Step) : Option String :=
  match s.body with
  | .ai a => some (a.answerKey s.name)
  | _ => none

/-- Whether the condition of a step lets it run with nothing but the values of a recipe's variables. -/
def Step.IsAdmitted (s : Step) (b : Bindings) : Prop :=
  ∃ visible, s.values b [] [] = .ok visible ∧ s.isExcluded visible = false

/-! ## Executions -/

namespace Engine

section Effects

variable {e : Engine} {r : Recipe} {b : Bindings} {options : Options} {answers : Record String}
variable {P : ∀ {α : Type}, Run α → Prop} (hP : Compositional @P)

include hP

theorem runTool_holds {t : Tool} {s : Step} {c : StepContext} (h : P (t.execute s c)) :
    P (runTool t s c) := by
  refine hP.bind (hP.attempt h) fun o => ?_
  split <;> exact hP.pure _

theorem runSteps_holds (h : ∀ earlier s, P (e.step r b options answers earlier s))
    (earlier : Record StepResult) (steps : List Step) :
    P (e.runSteps r b options answers earlier steps) := by
  induction steps generalizing earlier with
  | nil => exact hP.pure _
  | cons s rest ih =>
    refine hP.bind (h earlier s) fun o => ?_
    split
    · exact hP.pure _
    · exact hP.bind (ih _) fun _ => hP.pure _

omit hP in
/-- Whatever the steps of a recipe may do has a property. -/
structure Permits (e : Engine) (options : Options) (P : ∀ {α : Type}, Run α → Prop) (sh : Shell)
    (actions : Actions) : Prop where
  tools : ∀ r answers earlier simulate,
    ({ e.context r options answers earlier with simulate } : StepContext).Permits @P sh actions
  sees : ∀ visible,
    P (modify fun s => { s with scope := { s.scope with visible } } : Run PUnit)
  begins : ∀ name visible, P (note (.began name visible))

/-- What runs a step does what the tool for it does. -/
theorem runStep_holds {sh : Shell} {actions : Actions} (ht : e.tools.AreStandard sh actions)
    {c : StepContext} (h : ∀ simulate, ({ c with simulate } : StepContext).Permits @P sh actions)
    (s : Step) : P (e.runStep s c) := by
  refine hP.look (fun s t alike => by simp only [alike.scope, alike.collector]) fun st => ?_
  split
  · exact hP.pure _
  · dsimp only
    split
    · exact hP.pure _
    · split
      · exact hP.pure _
      next t found =>
        have standard := ht t (Tools.get?_eq_some found).1
        exact runTool_holds hP (Tool.execute_holds hP (h _) standard s)

theorem step_holds {sh : Shell} {actions : Actions} (ht : e.tools.AreStandard sh actions)
    (h : e.Permits options @P sh actions) (earlier : Record StepResult) (s : Step) :
    P (e.step r b options answers earlier s) := by
  refine hP.look (fun s t alike => by rw [alike.scope]) fun st => ?_
  refine hP.bind (hP.ofExcept _) fun visible => ?_
  refine hP.bind (h.sees visible) fun _ => ?_
  refine hP.bind (h.begins s.name visible) fun _ => ?_
  exact runStep_holds hP ht (h.tools r answers earlier) s

end Effects

/-- What all steps keep is kept by an execution from the session in which its steps begin. -/
theorem execute_keeps {R : Session → Session → Prop} [IsPreorder Session R] {e : Engine}
    {options : Options} {sh : Shell} {actions : Actions} (ht : e.tools.AreStandard sh actions)
    (h : e.Permits options (Keeps R) sh actions) (r : Recipe) (b : Bindings)
    (answers : Record String) (s : Session) :
    ((e.execute r b options answers).on s).2 = s ∨
      R (s.opened r) ((e.execute r b options answers).on s).2 := by
  cases valid : (e.validate r b.merged answers).valid with
  | false =>
    obtain ⟨f, failed⟩ := execute_on_invalid valid
    exact .inl (by rw [failed])
  | true =>
    right
    have steps : (e.runSteps r b options answers [] r.steps).Keeps R :=
      runSteps_holds (keepsAll R) (step_holds (keepsAll R) ht h) [] r.steps
    have kept := steps (s.opened r)
    rw [runSteps_on] at kept
    rw [execute_on_valid valid s]
    simpa only [history, valid, if_true] using kept

end Engine

/-! ## Steps while prompts are collected -/

/-- A step that asks a model fails while prompts are collected, or it records its inquiry. -/
theorem AiStep.on_collect (a : AiStep) (s : Step) (c : StepContext) (st : Session) :
    (∃ f, (a.collect s c).on st = (.error f, st)) ∨
      ∃ i o, i.key = a.answerKey s.name ∧ o.success = true ∧
        (a.collect s c).on st = (.ok o, { st with collector := st.collector.add i }) := by
  unfold AiStep.collect
  have context : ∃ k, (a.surroundings c).on st = (k, st) :=
    ⟨_, (on_bind_ok (on_get st) _).trans (on_ofExcept _ st)⟩
  obtain ⟨f | context, hcontext⟩ := context
  · exact .inl ⟨f, on_bind_error hcontext _⟩
  · rcases hprompt : (c.render a.prompt).on st with ⟨f | prompt, st'⟩
    · rw [c.on_render] at hprompt
      obtain ⟨-, rfl⟩ := Prod.mk.inj hprompt
      refine .inl ⟨f, (on_bind_ok hcontext _).trans (on_bind_error ?_ _)⟩
      rw [c.on_render, (Prod.mk.inj hprompt).1]
    · rw [c.on_render] at hprompt
      obtain ⟨rendered, rfl⟩ := Prod.mk.inj hprompt
      have prompted : (c.render a.prompt).on st = (.ok prompt, st) := by rw [c.on_render, rendered]
      refine .inr ⟨_, _, ?_, ?_, (on_bind_ok hcontext _).trans ((on_bind_ok prompted _).trans
        ((on_bind_ok (Run.on_collect _ st) _).trans (on_pure _ _)))⟩
      · rfl
      · rfl

/-- While prompts are collected a step that has no answer asks for one. -/
theorem AiStep.execute_collecting {a : AiStep} {s : Step} {c : StepContext} {st : Session}
    (lacks : c.answers.get? (a.answerKey s.name) = none)
    (collecting : st.collector.collecting = true) :
    (a.execute s c).on st = (a.collect s c).on st := by
  unfold AiStep.execute
  rw [lacks]
  dsimp only
  rw [on_bind_ok (on_get st), if_pos collecting]

/-- What may come of a step while prompts are collected. -/
inductive Rehearsed (s : Step) (st : Session) : Except Failure StepResult × Session → Prop where
  /-- It talked to a person at most.  If it asks a model although its condition admits it, it failed. -/
  | talked {o : Except Failure StepResult} {t : Session} (conversed : Conversed st t)
      (failed : s.asks?.isSome = true → s.isExcluded st.scope.visible = false →
        ∀ result, o = .ok result → result.success = false) : Rehearsed s st (o, t)
  /-- It recorded its inquiry. -/
  | recorded {result : StepResult} {i : Inquiry} (asks : s.asks? = some i.key)
      (admitted : s.isExcluded st.scope.visible = false) (success : result.success = true) :
      Rehearsed s st (.ok result, { st with collector := st.collector.add i })

namespace Engine

variable {e : Engine} {r : Recipe} {b : Bindings} {options : Options} {sh : Shell} {actions : Actions}

section Rehearsal

variable {s : Step} {earlier : Record StepResult} {st : Session}

/-- A step that is not put off converses or records its inquiry. -/
theorem runTool_rehearsed (hw : ∀ w, e.prompter = some w → w.Quiet)
    (collecting : st.collector.collecting = true) (admitted : s.isExcluded st.scope.visible = false)
    (now : s.kind.isDeferred = false) :
    let c := { e.context r options [] earlier with simulate := s.kind.mutatesFiles }
    Rehearsed s st ((runTool (Tools.standardFor sh actions s.kind) s c).on st) := by
  intro c
  cases hs : s.body with
  | add a =>
    have kind : s.kind = .add := congrArg StepBody.kind hs
    have dry : c.isDry = true := by simp [c, StepContext.isDry, kind, StepKind.mutatesFiles]
    have run : (runTool .add s c).Keeps Conversed := by
      refine runTool_holds conversedAll ?_
      simp only [Tool.add, hs]
      exact AddStep.execute_holds conversedAll (by simp [dry]) (fun _ w h => (hw w h).confirm) a s
    rw [kind]
    exact .talked (run st) (by simp [Step.asks?, hs])
  | inject a =>
    have kind : s.kind = .inject := congrArg StepBody.kind hs
    have dry : c.isDry = true := by simp [c, StepContext.isDry, kind, StepKind.mutatesFiles]
    have run : (runTool .inject s c).Keeps Conversed := by
      refine runTool_holds conversedAll ?_
      simp only [Tool.inject, hs]
      exact InjectStep.execute_holds conversedAll (by simp [dry]) a s
    rw [kind]
    exact .talked (run st) (by simp [Step.asks?, hs])
  | ai a =>
    have kind : s.kind = .ai := congrArg StepBody.kind hs
    have run : (a.execute s c).on st = (a.collect s c).on st :=
      AiStep.execute_collecting rfl collecting
    have asks : s.asks? = some (a.answerKey s.name) := by rw [Step.asks?, hs]
    rw [kind, on_runTool]
    simp only [Tools.standardFor, Tool.model, hs, run]
    rcases a.on_collect s c st with ⟨f, h⟩ | ⟨i, o, key, ok, h⟩
    · rw [h]
      refine .talked (refl_of Conversed st) fun _ _ result hresult => ?_
      cases hresult
      rfl
    · rw [h]
      exact .recorded (by rw [asks, key]) admitted ok
  | _ => simp [Step.kind, hs, StepBody.kind, StepKind.isDeferred] at now

theorem runStep_rehearsed (ht : e.tools.AreStandard sh actions)
    (hw : ∀ w, e.prompter = some w → w.Quiet) (collecting : st.collector.collecting = true) :
    Rehearsed s st ((e.runStep s (e.context r options [] earlier)).on st) := by
  have unchanged (o : StepResult) (h : s.asks?.isSome = true →
      s.isExcluded st.scope.visible = false → o.success = false) :
      Rehearsed s st ((pure o : Run StepResult).on st) := by
    refine .talked (refl_of Conversed st) fun asks admitted result hresult => ?_
    cases hresult
    exact h asks admitted
  unfold runStep
  rw [on_bind_ok (on_get st)]
  split
  next excluded => exact unchanged _ fun _ admitted => by simp [excluded] at admitted
  next admitted =>
    simp only [collecting, Bool.true_and]
    split
    next deferred =>
      -- none of the steps that are put off asks a model
      refine unchanged _ fun asks => ?_
      cases hs : s.body <;> simp_all [Step.asks?, Step.kind, StepBody.kind, StepKind.isDeferred]
    next now =>
      split
      next => exact unchanged _ fun _ _ => rfl
      next t found =>
        rw [ht.get? found]
        exact runTool_rehearsed hw collecting (by simpa using admitted) (by simpa using now)

end Rehearsal

/-! ## Executions while prompts are collected -/

end Engine

namespace Session

/-- From `s` to `t` effects are held back and no variable is set, if prompts are collected. -/
def Rehearses (s t : Session) : Prop :=
  s.collector.collecting = true → HeldBack s t ∧ t.scope.produced = s.scope.produced

instance rehearsesPreorder : IsPreorder Session Rehearses where
  refl _ _ := ⟨refl_of HeldBack _, rfl⟩
  trans s t u h h' collecting := by
    obtain ⟨held, produced⟩ := h collecting
    obtain ⟨held', produced'⟩ := h' (held.collecting.trans collecting)
    exact ⟨trans_of HeldBack held held', produced'.trans produced⟩

end Session

theorem Rehearsed.heldBack {s : Step} {st : Session} {p : Except Failure StepResult × Session}
    (h : Rehearsed s st p) : HeldBack st p.2 ∧ p.2.scope.produced = st.scope.produced := by
  cases h with
  | talked conversed _ => exact ⟨conversed.heldBack, by rw [conversed.scope]⟩
  | recorded _ _ _ => exact ⟨⟨rfl, rfl, logs_of_journal_eq rfl⟩, rfl⟩

theorem Collector.mem_keys_add (c : Collector) (i : Inquiry) (k : String) :
    k ∈ (c.add i).keys ↔ k ∈ c.keys ∨ k = i.key :=
  Record.mem_keys_put c.inquiries i.key k i

theorem Collector.collecting_addAll (c : Collector) (is : List Inquiry) :
    (is.foldl add c).collecting = c.collecting := by
  induction is generalizing c with
  | nil => rfl
  | cons i is ih => exact ih (c.add i)

theorem Collector.mem_keys_addAll (c : Collector) (is : List Inquiry) (k : String) :
    k ∈ (is.foldl add c).keys ↔ k ∈ c.keys ∨ ∃ i ∈ is, i.key = k := by
  induction is generalizing c with
  | nil => simp
  | cons i is ih =>
    rw [List.foldl_cons, ih, mem_keys_add, or_assoc, @eq_comm _ k]
    simp only [List.mem_cons, exists_eq_or_imp]

/-- A step that succeeds has recorded the inquiry for the answer it asks for, if it is admitted. -/
theorem Rehearsed.mem_keys {s : Step} {st t : Session} {o : StepResult}
    (h : Rehearsed s st (.ok o, t)) (success : o.success = true) (k : String) :
    k ∈ t.collector.keys ↔
      k ∈ st.collector.keys ∨ s.asks? = some k ∧ s.isExcluded st.scope.visible = false := by
  cases h with
  | talked conversed failed =>
    rw [conversed.collector]
    -- an admitted step that asks a model and only talked has failed
    refine ⟨.inl, ?_⟩
    rintro (h | ⟨asks, admitted⟩)
    · exact h
    · have fails := failed (by rw [asks]; rfl) admitted o rfl
      rw [fails] at success
      cases success
  | recorded asks admitted _ =>
    rw [Collector.mem_keys_add, asks]
    simp only [Option.some.injEq, admitted, and_true]
    exact or_congr_right eq_comm

namespace Engine

section Collecting

variable {e : Engine} {r : Recipe} {b : Bindings} {options : Options} {sh : Shell} {actions : Actions}
variable (ht : e.tools.AreStandard sh actions) (hw : ∀ w, e.prompter = some w → w.Quiet)

include ht hw in
theorem step_rehearses (earlier : Record StepResult) (s : Step) :
    (e.step r b options [] earlier s).Keeps Rehearses := by
  intro st collecting
  rcases seen : s.values b st.scope.produced [] with f | visible
  · rw [step_on_error seen]
    exact ⟨refl_of HeldBack st, rfl⟩
  · rw [step_on_ok seen]
    have began : HeldBack st (st.begun s visible) := ⟨rfl, rfl, logs_note rfl⟩
    have rehearsed : Rehearsed s (st.begun s visible)
        ((e.runStep s (e.context r options [] earlier)).on (st.begun s visible)) :=
      runStep_rehearsed ht hw collecting
    obtain ⟨held, produced⟩ := rehearsed.heldBack
    exact ⟨trans_of HeldBack began held, produced⟩

include ht hw in
/-- While prompts are collected an execution holds its effects back. -/
theorem execute_heldBack {s : Session} (collecting : s.collector.collecting = true) :
    HeldBack s ((e.execute r b options).on s).2 := by
  cases valid : (e.validate r b.merged []).valid with
  | false =>
    obtain ⟨f, failed⟩ := execute_on_invalid valid
    rw [failed]
    exact refl_of HeldBack s
  | true =>
    have steps : (e.runSteps r b options [] [] r.steps).Keeps Rehearses :=
      runSteps_holds (keepsAll Rehearses) (step_rehearses ht hw) [] r.steps
    have opened : HeldBack s (s.opened r) := ⟨rfl, rfl, logs_note collecting⟩
    have kept := (steps (s.opened r) collecting).1
    rw [runSteps_on] at kept
    rw [execute_on_valid valid s]
    simp only [history, valid, if_true]
    exact trans_of HeldBack opened kept

include ht hw in
theorem mem_keys_step {earlier : Record StepResult} {s : Step} {st t : Session} {o : StepResult}
    (collecting : st.collector.collecting = true) (produced : st.scope.produced = [])
    (h : (e.step r b options [] earlier s).on st = (.ok o, t)) (success : o.success = true)
    (k : String) :
    k ∈ t.collector.keys ↔ k ∈ st.collector.keys ∨ s.asks? = some k ∧ s.IsAdmitted b := by
  rcases seen : s.values b st.scope.produced [] with f | visible
  · rw [step_on_error seen] at h
    cases h
  · rw [step_on_ok seen] at h
    have rehearsed : Rehearsed s (st.begun s visible) (.ok o, t) := by
      rw [← h]
      exact runStep_rehearsed ht hw collecting
    have admitted : s.IsAdmitted b ↔ s.isExcluded visible = false := by
      rw [produced] at seen
      simp [Step.IsAdmitted, seen]
    rw [rehearsed.mem_keys success k, admitted]
    rfl

include ht hw in
theorem mem_keys_runSteps {steps : List Step} {earlier : Record StepResult} {st t : Session}
    {os : List StepResult} (collecting : st.collector.collecting = true)
    (produced : st.scope.produced = [])
    (h : (e.runSteps r b options [] earlier steps).on st = (.ok os, t))
    (success : os.all (·.success) = true) (k : String) :
    k ∈ t.collector.keys ↔
      k ∈ st.collector.keys ∨ ∃ s ∈ steps, s.asks? = some k ∧ s.IsAdmitted b := by
  induction steps generalizing earlier st os with
  | nil =>
    cases h
    simp
  | cons s rest ih =>
    -- the step keeps collecting and sets nothing, so the rest begins as the step did
    obtain ⟨o, st', hs, h⟩ := on_bind_eq_ok h
    have kept : Rehearses st ((e.step r b options [] earlier s).on st).2 :=
      step_rehearses ht hw earlier s st
    rw [hs] at kept
    obtain ⟨held, produced'⟩ := kept collecting
    have ok : o.success = true := by
      cases failed : o.success with
      | true => rfl
      | false =>
        simp only [failed, Bool.not_false, if_true] at h
        cases h
        simp [failed] at success
    simp only [ok, Bool.not_true, Bool.false_eq_true, if_false] at h
    obtain ⟨more, t', hrest, h⟩ := on_bind_eq_ok h
    cases h
    simp only [List.all_cons, ok, Bool.true_and] at success
    have here := mem_keys_step ht hw collecting produced hs ok k
    have behind := ih (held.collecting.trans collecting) (produced'.trans produced) hrest success
    rw [behind, here, or_assoc]
    simp only [List.mem_cons, exists_eq_or_imp]

include ht hw in
/-- Where collecting succeeds, the keys are those of the steps that were admitted. -/
theorem mem_keys_execute {s t : Session} {o : RecipeResult}
    (collecting : s.collector.collecting = true)
    (h : (e.execute r b options).on s = (.ok o, t)) (success : o.success = true) (k : String) :
    k ∈ t.collector.keys ↔
      k ∈ s.collector.keys ∨ ∃ st ∈ r.steps, st.asks? = some k ∧ st.IsAdmitted b := by
  cases valid : (e.validate r b.merged []).valid with
  | false =>
    obtain ⟨f, failed⟩ := execute_on_invalid valid
    rw [failed] at h
    cases h
  | true =>
    have steps : (e.runSteps r b options [] [] r.steps).on (s.opened r) = _ := runSteps_on _ _ _
    rw [execute_on_valid valid s] at h
    simp only [history, valid, if_true] at h
    rcases hts : (e.turns r b options [] [] r.steps (s.opened r)).mapM (·.outcome) with f | os
    · rw [hts] at h
      cases h
    · rw [hts] at h steps
      cases h
      simp only [RecipeResult.success, Bool.and_eq_true] at success
      have opened : (s.opened r).collector.collecting = true := collecting
      exact mem_keys_runSteps ht hw opened rfl steps success.2 k

end Collecting

end Engine

end Scaffold
