import Scaffold.Proofs.Engine.Admission
import Scaffold.Proofs.Engine.Turns
import Scaffold.Proofs.Transport.Outcomes

/-!
# What becomes of a call that fails

Behind a call of a model that fails there is nothing: whatever was to be done with its reply is not done,
and what asked for it fails in the same way.  A step that asks a model reports each such failure as its
own, whatever it is.  A transport takes it for an outcome if it is one of the transport, and passes it
on if it is any other.
-/

namespace Scaffold

open Run Session

namespace Session

/-- The model is not called. -/
def SameCalls (s t : Session) : Prop := t.calls = s.calls

instance sameCallsPreorder : IsPreorder Session SameCalls where
  refl _ := rfl
  trans _ _ _ h h' := h'.trans h

theorem sameCalls_note {e : Event} (s : Session) (h : e.isCall = false) : SameCalls s (s.note e) := by
  unfold SameCalls calls note
  rw [List.filterMap_append]
  cases e with
  | called c => cases h
  | _ => exact List.append_nil _

end Session

theorem sameCallsAll : Compositional (Keeps SameCalls) := keepsAll SameCalls

namespace Run

variable {α β : Type} {client : Client}

/-- From `s` to `t` calls were added, and where one of them failed the outcome is that failure. -/
structure Heeded (client : Client) (s t : Session) (outcome : Except Failure α) : Prop where
  grown : s.calls <+: t.calls
  fails : ∀ i call f, s.calls.length ≤ i → t.calls[i]? = some call → client i call = .error f →
    outcome = .error f

/-- Where a call of a run fails, so does the run. -/
def Heeds (client : Client) (r : Run α) : Prop := ∀ s, Heeded client s (r.on s).2 (r.on s).1

theorem heeded_of_sameCalls {s t : Session} {outcome : Except Failure α} (same : SameCalls s t) :
    Heeded client s t outcome := by
  refine ⟨⟨[], (List.append_nil _).trans same.symm⟩, fun i call f behind there _ => ?_⟩
  rw [same, List.getElem?_eq_none behind] at there
  cases there

theorem heeds_of_keeps {r : Run α} (h : r.Keeps SameCalls) : r.Heeds client := fun s =>
  heeded_of_sameCalls (h s)

theorem heeds_pure (a : α) : (pure a : Run α).Heeds client := heeds_of_keeps (sameCallsAll.pure a)

theorem heeds_throw (e : Failure) : (throw e : Run α).Heeds client := heeds_of_keeps (sameCallsAll.throw e)

theorem heeds_look {f : Session → Run α} (h : ∀ s, (f s).Heeds client) :
    ((get : Run Session) >>= f).Heeds client := fun s => h s s

/-- A call of the second part is behind those of the first, which then did not fail. -/
theorem Heeds.bind {x : Run α} {f : α → Run β} (hx : x.Heeds client) (hf : ∀ a, (f a).Heeds client) :
    (x >>= f).Heeds client := by
  intro s
  have first := hx s
  rw [on_bind]
  rcases ran : x.on s with ⟨e | a, s'⟩ <;> rw [ran] at first <;> dsimp only
  · refine ⟨first.grown, fun i call failure behind there failed => ?_⟩
    cases first.fails i call failure behind there failed
    rfl
  · have second := hf a s'
    refine ⟨first.grown.trans second.grown, fun i call failure behind there failed => ?_⟩
    rcases Nat.lt_or_ge i s'.calls.length with before | later
    · obtain ⟨later, added⟩ := second.grown
      rw [← added, List.getElem?_append_left before] at there
      cases first.fails i call failure behind there failed
    · exact second.fails i call failure later there failed

end Run

/-! ## Generators -/

namespace Generator

variable (g : Generator)

/-- A call that is refused is none, and one that is made comes to what the model replies. -/
theorem complete_heeds (prompt system : String) (temperature : Option Number) (maxTokens : Option Int)
    (budget : Allowance) : (g.complete prompt system temperature maxTokens budget).Heeds g.client := by
  intro s
  by_cases admits : (limitsWithin g.limits budget).Admits s.ledger (estimateTokens (system ++ prompt))
  · let k := g.consult prompt system temperature maxTokens budget s
    obtain ⟨outcome, added⟩ : k.outcome = g.client s.calls.length k.call ∧ k.after.calls = s.calls ++ [k.call] :=
      on_complete_admitted admits
    refine ⟨⟨_, added.symm⟩, fun i call f behind there failed => ?_⟩
    have only : k.after.calls[i]? = some call := there
    rw [added, List.getElem?_append_right behind, List.getElem?_singleton] at only
    split at only
    next here =>
      cases only
      rw [show i = s.calls.length by omega] at failed
      exact outcome.trans failed
    next => cases only
  · obtain ⟨message, refused⟩ := on_complete_refused temperature maxTokens admits
    rw [refused]
    exact heeded_of_sameCalls rfl

variable {g} in
/-- Behind an attempt that failed there is no other. -/
theorem attempts_heeds (d : Demand) (left made : Nat) (prompt : String) (used : Usage) (spent : Binary64) :
    (g.attempts d left made prompt used spent).Heeds g.client := by
  induction left generalizing made prompt used spent with
  | zero =>
    refine Heeds.bind (g.complete_heeds _ _ _ _ _) fun reply => ?_
    refine heeds_look fun s => ?_
    refine (heeds_of_keeps (sameCallsAll.ofExcept _)).bind fun report => ?_
    split
    · exact heeds_pure _
    · split
      · exact heeds_pure _
      · exact heeds_throw _
  | succ left ih =>
    refine Heeds.bind (g.complete_heeds _ _ _ _ _) fun reply => ?_
    refine heeds_look fun s => ?_
    refine (heeds_of_keeps (sameCallsAll.ofExcept _)).bind fun report => ?_
    split
    · exact heeds_pure _
    · exact ih _ _ _ _

theorem generate_heeds (d : Demand) : (g.generate d).Heeds g.client :=
  attempts_heeds d _ _ _ _ _

end Generator

/-! ## Steps -/

/-- A failure as a step tells of it: one of the domain by its message, any other with its kind. -/
def Failure.told (f : Failure) : String := if f.isDomain then f.message else f.report

namespace AiStep

variable {a : AiStep} {step : Step} {c : StepContext} {g : Generator}

theorem generate_heeds (given : c.generator = some g) (prompt : Option String) :
    (a.generate step c prompt).Heeds g.client := by
  unfold AiStep.generate
  rw [given]
  dsimp only
  have asked (p : String) : (do
      let made ← g.generate
        { key := a.answerKey step.name, prompt := p, system := a.system
          temperature := a.temperature.map .float, maxTokens := a.maxTokens
          guardrails := a.guardrails, budget := a.budget }
      return made.text : Run String).Heeds g.client :=
    Heeds.bind (g.generate_heeds _) fun _ => heeds_pure _
  split
  · exact Heeds.bind (heeds_pure _) asked
  · exact Heeds.bind (heeds_of_keeps (a.fullPrompt_holds sameCallsAll)) asked

theorem acquire_heeds (given : c.generator = some g) : (a.acquire step c).Heeds g.client := by
  unfold acquire
  split
  · unfold checked
    refine Heeds.bind (heeds_of_keeps (sameCallsAll.ofExcept _)) fun report => ?_
    split
    · exact heeds_pure _
    · split
      · exact Heeds.bind (heeds_of_keeps (a.fullPrompt_holds sameCallsAll)) fun _ => generate_heeds given _
      · exact heeds_pure _
      · exact heeds_throw _
  · exact generate_heeds given none

/-- What is done with a text calls no model. -/
theorem deliver_sameCalls (x : String) : (a.deliver step c x).Keeps SameCalls :=
  a.deliver_holds sameCallsAll (fun _ p text s => by rw [on_writeText]; exact rfl)
    (fun _ _ _ => rfl) (fun _ s => s.sameCalls_note rfl) step x

theorem on_guarded_of_error {r : Run StepResult} {s t : Session} {f : Failure} (h : r.on s = (.error f, t)) :
    (guarded step r).on s = (if f.isDomain then .ok (step.failed f.message) else .error f, t) := by
  unfold guarded
  rw [on_bind_ok (on_attempt r s), h]
  dsimp only
  split <;> rfl

section Failed

variable {s : Session} {i : Nat} {call : ModelCall} {f : Failure}

theorem not_called {α : Type} {r : Run α} (same : r.Keeps SameCalls) (behind : s.calls.length ≤ i) :
    (r.on s).2.calls[i]? ≠ some call := by
  rw [same s, List.getElem?_eq_none behind]
  exact nofun

/-- While a step executes a failure of the domain is caught, and any other passes. -/
theorem execute_of_failed (given : c.generator = some g) (behind : s.calls.length ≤ i)
    (there : ((a.execute step c).on s).2.calls[i]? = some call) (failed : g.client i call = .error f) :
    ((a.execute step c).on s).1 = if f.isDomain then .ok (step.failed f.message) else .error f := by
  by_cases awaits : a.Awaits step c s
  · have asks : (a.execute step c).on s = (a.collect step c).on s := by
      unfold AiStep.execute
      rw [awaits.1]
      dsimp only
      rw [on_bind_ok (on_get s), awaits.2]
      rfl
    rw [asks] at there
    exact absurd there (not_called (collect_holds sameCallsAll (fun _ _ => rfl) a step) behind)
  · have heeds : (a.acquire step c >>= a.deliver step c).Heeds g.client :=
      (acquire_heeds given).bind fun x => heeds_of_keeps (deliver_sameCalls x)
    rw [execute_of_not_awaits awaits] at there ⊢
    rw [on_guarded] at there
    have outcome := (heeds s).fails i call f behind there failed
    rcases ran : (a.acquire step c >>= a.deliver step c).on s with ⟨o, t⟩
    rw [ran] at outcome
    cases outcome
    rw [on_guarded_of_error ran]

/-- A step in which a call of the model fails is a failed step, and tells of that failure. -/
theorem on_model_of_failed (given : c.generator = some g) (behind : s.calls.length ≤ i)
    (there : ((Engine.runTool Tool.model step c).on s).2.calls[i]? = some call)
    (failed : g.client i call = .error f) :
    ((Engine.runTool Tool.model step c).on s).1 = .ok (step.failed f.told) := by
  have executed : ((Engine.runTool Tool.model step c).on s).2 = ((Tool.model.execute step c).on s).2 := by
    rw [Engine.on_runTool]
    rcases (Tool.model.execute step c).on s with ⟨_ | _, _⟩ <;> rfl
  rw [executed] at there
  rw [Engine.on_runTool]
  have outcome : ((Tool.model.execute step c).on s).1 =
      if f.isDomain then .ok (step.failed f.message) else .error f := by
    dsimp only [Tool.model] at there ⊢
    split at there
    · exact execute_of_failed given behind there failed
    · exact absurd there (not_called (sameCallsAll.pure _) behind)
  rcases ran : (Tool.model.execute step c).on s with ⟨o, t⟩
  rw [ran] at outcome
  unfold Failure.told
  split at outcome
  next domain =>
    cases outcome
    rw [if_pos domain]
  next foreign =>
    cases outcome
    rw [if_neg foreign]

end Failed

end AiStep

/-! ## Transports -/

namespace Transport

variable {g : Generator} {q : TransportRequest} {s : Session} {i : Nat} {call : ModelCall} {f : Failure}

theorem on_guarded (r : Run TransportOutcome) (s : Session) : ((guarded r).on s).2 = (r.on s).2 := by
  unfold guarded
  rw [on_bind_ok (on_attempt r s)]
  split <;> rfl

/-- A failure of a call passes, unless it is one of the transport. -/
theorem on_api_of_failed (behind : s.calls.length ≤ i)
    (there : (((api g).resolve q).on s).2.calls[i]? = some call) (failed : g.client i call = .error f) :
    (f.IsTransport → (((api g).resolve q).on s).1 = .ok (.failed f)) ∧
      (¬ f.IsTransport → (((api g).resolve q).on s).1 = .error f) := by
  let asked : Run TransportOutcome := do
    let reply ← g.complete (Prompt.document q.collector) (Prompt.batchSystem q.collector.keys)
    return .resolved (← Run.ofExcept (batchAnswers reply.text q.collector.keys))
  have heeds : asked.Heeds g.client :=
    Heeds.bind (g.complete_heeds _ _ _ _ _) fun reply =>
      Heeds.bind (heeds_of_keeps (sameCallsAll.ofExcept _)) fun answers => heeds_pure _
  have resolved : ((api g).resolve q).on s = (guarded asked).on s := rfl
  rw [resolved, on_guarded] at there
  have outcome : (asked.on s).1 = .error f := (heeds s).fails i call f behind there failed
  rw [resolved]
  unfold guarded
  rw [on_bind_ok (on_attempt asked s), outcome]
  constructor
  · rintro ⟨m, rfl⟩
    rfl
  · intro foreign
    split
    next same => cases same
    next m same =>
      cases same
      exact absurd ⟨m, rfl⟩ foreign
    next same =>
      cases same
      rfl

end Transport

end Scaffold
