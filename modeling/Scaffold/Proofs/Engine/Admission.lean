import Scaffold.Proofs.Engine.Delivery
import Scaffold.Proofs.Engine.Effects
import Scaffold.Proofs.Generation.Limits

/-!
# Only admitted text is delivered

A step that asks a model first acquires its text and then delivers it.  On the way there nothing happens
but calls of the model: no file is written, no variable set, nothing printed.  What it acquires passes the
checks of the step, or it is the fallback that the step names for text that does not.  And whatever
changes behind that is the delivery of this very text, as it is.

So where no text is acquired nothing changes at all, and the step fails.  This is so whichever way the
text would have come: an answer, an answer in whose place text is generated, text that is generated, or
the fallback.  While prompts are collected a step without an answer acquires none; it asks for one.
-/

namespace Scaffold

open Run Session

/-! ## On the way to a text -/

/-- A call of a model. -/
def Event.isCall : Event → Bool
  | .called _ => true
  | _ => false

namespace Session

/-- From `s` to `t` a model may have been called, and nothing else was done. -/
structure Consulted (s t : Session) : Prop where
  tree : t.tree = s.tree
  scope : t.scope = s.scope
  collector : t.collector = s.collector
  journal : Logs Event.isCall s t

instance consultedPreorder : IsPreorder Session Consulted where
  refl _ := ⟨rfl, rfl, rfl, logs_of_journal_eq rfl⟩
  trans _ _ _ h h' :=
    ⟨h'.tree.trans h.tree, h'.scope.trans h.scope, h'.collector.trans h.collector,
      h.journal.trans h'.journal⟩

/-- The calls of a model print nothing. -/
theorem Consulted.printed {s t : Session} (h : Consulted s t) (p : Channel → Bool) :
    t.printed p = s.printed p := by
  obtain ⟨es, journal, calls⟩ := h.journal
  unfold Session.printed
  rw [journal, List.filterMap_append]
  refine congrArg String.join ?_
  rw [List.append_right_eq_self, List.filterMap_eq_nil_iff]
  intro e he
  have call := calls e he
  cases e with
  | called _ => rfl
  | _ => cases call

end Session

/-- The calls of a model are all that generating comes to. -/
theorem Generator.generate_consults (g : Generator) (d : Demand) : (g.generate d).Keeps Consulted :=
  g.generate_keeps (fun _ _ => ⟨rfl, rfl, rfl, logs_of_journal_eq rfl⟩)
    (fun _ _ => ⟨rfl, rfl, rfl, logs_note rfl⟩) d

namespace AiStep

variable {a : AiStep} {step : Step} {c : StepContext} {s t : Session} {x : String}

/-- A text passes the checks of a step, or it is the fallback of a step that falls back. -/
def Admits (a : AiStep) (x : String) : Prop :=
  a.guardrails.Passes x ∨ (a.guardrails.onFailure = .fallback ∧ a.guardrails.fallback = some x)

/-- How a step comes by its text. -/
def acquire (a : AiStep) (step : Step) (c : StepContext) : Run String :=
  match c.answers.get? (a.answerKey step.name) with
  | some answer => a.checked step c (Check.unfence answer)
  | none => a.generate step c

/-- A step asks for an answer that it does not have while prompts are collected. -/
def Awaits (a : AiStep) (step : Step) (c : StepContext) (s : Session) : Prop :=
  c.answers.get? (a.answerKey step.name) = none ∧ s.collector.collecting = true

/-- A step that does not ask for its answer acquires its text and delivers it. -/
theorem execute_of_not_awaits (h : ¬ a.Awaits step c s) :
    (a.execute step c).on s =
      (guarded step (a.acquire step c >>= fun x => a.deliver step c x)).on s := by
  unfold AiStep.execute AiStep.acquire
  cases given : c.answers.get? (a.answerKey step.name) with
  | some answer => rfl
  | none =>
    have elsewhere : s.collector.collecting = false := by
      rw [Bool.eq_false_iff]
      exact fun collecting => h ⟨given, collecting⟩
    dsimp only
    rw [on_bind_ok (on_get s), elsewhere]
    rfl

theorem acquire_consults : (a.acquire step c).Keeps Consulted := by
  have all : Compositional (Keeps Consulted) := keepsAll Consulted
  have calls : ∀ g, c.generator = some g → ∀ d, (g.generate d).Keeps Consulted :=
    fun g _ d => g.generate_consults d
  unfold acquire
  split
  · exact checked_holds all calls a step _
  · exact generate_holds all calls a step none

theorem Provides.admits {name : String} (h : a.Provides name c x) : a.Admits x := by
  cases h with
  | answer _ passes => exact .inl passes
  | fallback _ _ _ policy fallback => exact .inr ⟨policy, fallback⟩
  | generated _ admitted => exact admitted.imp_right Generator.fallback?_eq_some.mp

/-- What a step acquires is admitted, whichever way it came. -/
theorem acquire_admits (h : (a.acquire step c).on s = (.ok x, t)) : a.Admits x := by
  unfold acquire at h
  split at h
  next answer given => exact (checked_provides given h).admits
  next => exact (generate_admitted h).2.imp_right Generator.fallback?_eq_some.mp

/-- An answer that was given does not pass its checks, and there is no fallback for it. -/
def LacksText (a : AiStep) (name : String) (c : StepContext) : Prop :=
  ∀ answer report, c.answers.get? (a.answerKey name) = some answer →
    a.guardrails.check (Check.unfence answer) = .ok report →
      report.passed = false ∧ (a.guardrails.onFailure = .fallback → a.guardrails.fallback = none)

theorem lacksText_of_raised {f : Failure} (h : (a.acquire step c).on s = (.error f, t)) :
    a.LacksText step.name c := by
  intro answer report given checks
  have raised : (a.checked step c (Check.unfence answer)).on s = (.error f, t) := by
    rw [← h, acquire, given]
  unfold checked at raised
  rw [checks, on_bind_ok (on_ofExcept _ s)] at raised
  cases passed : report.passed with
  | true =>
    rw [if_pos passed] at raised
    cases raised
  | false =>
    refine ⟨rfl, fun policy => ?_⟩
    cases fallback : a.guardrails.fallback with
    | none => rfl
    | some text =>
      rw [if_neg (by simp [passed]), policy, fallback] at raised
      cases raised

/-! ## Delivery -/

/-- What may become of a session when a text is delivered: nothing, or this text goes where the output
of the step says. -/
inductive Delivered (a : AiStep) (name : String) (c : StepContext) (x : String) (s : Session) :
    Session → Prop where
  /-- Nothing is to be changed, or it cannot be. -/
  | nothing : Delivered a name c x s s
  | variable {v : String} (sets : a.sets? name = some v) :
      Delivered a name c x s { s with scope := s.scope.set v (.str x) }
  | printed : Delivered a name c x s (s.note (.printed .steps (x ++ "\n")))
  | file {target : String} {p : Path} (given : a.output.bind (·.target) = some target)
      (path : (c.resolve target).on s = (.ok p, s)) (wet : c.isDry = false) :
      Delivered a name c x s { s with tree := (s.tree.replace p x).2 }
  | splice {target content : String} {p : Path} {rule : Splice.Rule} {o : Splice.Outcome}
      (given : a.output.bind (·.target) = some target)
      (path : (c.resolve target).on s = (.ok p, s)) (wet : c.isDry = false)
      (read : (readText p).on s = (.ok content, s)) (applied : Splice.apply content x rule = .ok o) :
      Delivered a name c x s { s with tree := (s.tree.replace p o.content).2 }

/-- What only looks at a session can come first. -/
theorem delivered_bind {α β : Type} {r : Run α} {f : α → Run β} {name : String}
    (looks : r.Keeps (· = ·))
    (h : ∀ b, r.on s = (.ok b, s) → a.Delivered name c x s ((f b).on s).2) :
    a.Delivered name c x s ((r >>= f).on s).2 := by
  have same := looks s
  rw [on_bind]
  rcases ran : r.on s with ⟨e | b, s'⟩ <;> rw [ran] at same <;> dsimp only at same <;> subst same
  · exact .nothing
  · exact h b ran

theorem looksAll : Compositional (Keeps (· = ·)) := keepsAll (· = ·)

theorem deliverFile_delivers {target name : String} (given : a.output.bind (·.target) = some target) :
    a.Delivered name c x s ((deliverFile target step c x).on s).2 := by
  unfold deliverFile
  refine delivered_bind (c.resolve_holds looksAll _) fun p path => ?_
  dsimp only
  split
  · exact .nothing
  next wet =>
    refine delivered_bind (fun _ => rfl) fun st _ => ?_
    refine delivered_bind (holdsText_holds looksAll p x) fun same _ => ?_
    split
    · exact .nothing
    · have written : ((writeText p x >>= fun _ => (pure (step.completed ("wrote: " ++ c.shown p)
          (.str x) (if st.tree.present p then { modified := [c.shown p] }
            else { created := [c.shown p] })) : Run StepResult)).on s).2 =
            { s with tree := (s.tree.replace p x).2 } := by
        rw [on_bind, on_writeText]
        cases (s.tree.replace p x).1.mapError Failure.file <;> rfl
      rw [written]
      exact .file given path (by simpa using wet)

theorem deliverSplice_delivers {target name : String} {out : Output}
    (given : a.output.bind (·.target) = some target) :
    a.Delivered name c x s ((deliverSplice out target step c x).on s).2 := by
  unfold deliverSplice
  refine delivered_bind (c.resolve_holds looksAll _) fun p path => ?_
  refine delivered_bind (looksAll.mapM? _ (c.render_holds looksAll)) fun skipIf _ => ?_
  -- what the splice leaves is what the step leaves
  have spliced (rule : Splice.Rule) :
      a.Delivered name c x s ((Run.splice p x rule c.isDry).on s).2 := by
    unfold Run.splice
    refine delivered_bind (fun _ => rfl) fun st _ => ?_
    dsimp only
    split
    · exact .nothing
    refine delivered_bind (looksAll.readText p) fun content read => ?_
    cases applied : Splice.apply content x rule with
    | error f => exact .nothing
    | ok o =>
      have found : (ofExcept ((Except.ok o).mapError Failure.ofSplice)).on s = (.ok o, s) := rfl
      rw [on_bind_ok found]
      split
      · exact .nothing
      split
      next writes =>
        have wet : c.isDry = false := by simpa using (Bool.and_eq_true_iff.mp writes).2
        have written : ((writeText p o.content >>= fun _ =>
            (pure (o.changed, none) : Run (Bool × Option String))).on s).2 =
              { s with tree := (s.tree.replace p o.content).2 } := by
          rw [on_bind, on_writeText]
          cases (s.tree.replace p o.content).1.mapError Failure.file <;> rfl
        rw [written]
        exact .splice given path wet read applied
      next => exact .nothing
  have behind := spliced { location := out.insertion.location, skipIf }
  rw [on_bind]
  rcases ran : (Run.splice p x { location := out.insertion.location, skipIf } c.isDry).on s with
    ⟨f | ⟨changed, reason⟩, t⟩
  · rw [ran] at behind
    exact behind
  · rw [ran] at behind
    dsimp only
    split
    · exact behind
    · split <;> exact behind

/-- To deliver a text is to put this text where the output says, or to change nothing. -/
theorem deliver_delivers : a.Delivered step.name c x s ((a.deliver step c x).on s).2 := by
  unfold AiStep.deliver
  dsimp only
  split
  next type =>
    rw [on_bind_ok (on_setVariable _ _ s)]
    exact .variable (if_pos type)
  next => exact .printed
  next =>
    cases given : a.output.bind (·.target) with
    | none => exact .nothing
    | some target => exact deliverFile_delivers given
  next out _ =>
    cases given : a.output.bind (·.target) with
    | none => exact .nothing
    | some target => exact deliverSplice_delivers given
  next => exact .nothing

variable (step) in
/-- A failure is caught, or it passes; the session stays as the failure left it. -/
theorem guarded_of_error {r : Run StepResult} {f : Failure} (h : r.on s = (.error f, t)) :
    (guarded step r).on s = (.ok (step.failed f.message), t) ∨
      (guarded step r).on s = (.error f, t) := by
  unfold guarded
  rw [on_bind_ok (on_attempt r s), h]
  dsimp only
  split
  · exact .inl rfl
  · exact .inr rfl

variable (step) in
theorem on_guarded (r : Run StepResult) (s : Session) : ((guarded step r).on s).2 = (r.on s).2 := by
  rcases ran : r.on s with ⟨f | o, t⟩
  · rcases guarded_of_error step ran with h | h <;> rw [h]
  · unfold guarded
    rw [on_bind_ok (on_attempt r s), ran]
    rfl

/-! ## What comes of a step -/

/-- What comes of a step that asks a model, if all failures become results. -/
inductive Gated (a : AiStep) (step : Step) (c : StepContext) (s : Session) :
    Except Failure StepResult × Session → Prop where
  /-- It asked for its answer, and delivered nothing. -/
  | awaiting {o : StepResult} {t : Session} (awaits : a.Awaits step c s) (tree : t.tree = s.tree)
      (scope : t.scope = s.scope) (journal : t.journal = s.journal) : Gated a step c s (.ok o, t)
  /-- It acquired a text that is admitted, and whatever changed then is the delivery of that text. -/
  | delivered {x : String} {o : StepResult} {s' t : Session}
      (acquired : (a.acquire step c).on s = (.ok x, s')) (admitted : a.Admits x)
      (consulted : Consulted s s') (delivery : a.Delivered step.name c x s' t) :
      Gated a step c s (.ok o, t)
  /-- It acquired no text: the answer that was given does not pass and no fallback stands in for it, or
  nothing was generated.  It failed and changed nothing. -/
  | refused {f : Failure} {o : StepResult} {t : Session}
      (raised : (a.acquire step c).on s = (.error f, t))
      (lacks : a.LacksText step.name c)
      (failed : o.status = .failed) (consulted : Consulted s t) : Gated a step c s (.ok o, t)

/-- A step delivers no text but one that its checks admit; where it has none it fails, and all that
happened is calls of the model. -/
theorem runTool_gated (body : step.body = .ai a) :
    a.Gated step c s ((Engine.runTool .model step c).on s) := by
  have executed : Tool.model.execute step c = a.execute step c := by simp only [Tool.model, body]
  rw [Engine.on_runTool, executed]
  by_cases awaits : a.Awaits step c s
  · rw [execute_collecting awaits.1 awaits.2]
    rcases a.on_collect step c s with ⟨f, h⟩ | ⟨i, o, -, -, h⟩
    · rw [h]
      exact .awaiting awaits rfl rfl rfl
    · rw [h]
      exact .awaiting awaits rfl rfl rfl
  rw [execute_of_not_awaits awaits]
  have consulted : Consulted s ((a.acquire step c).on s).2 := acquire_consults s
  rcases acquired : (a.acquire step c).on s with ⟨f | x, s'⟩
  · rw [acquired] at consulted
    have raised : (a.acquire step c >>= fun x => a.deliver step c x).on s = (.error f, s') :=
      on_bind_error acquired _
    have lacks := lacksText_of_raised acquired
    -- caught here or by the engine, the failure is the failure of the step
    rcases guarded_of_error step raised with h | h
    · rw [h]
      exact .refused acquired lacks rfl consulted
    · rw [h]
      exact .refused acquired lacks rfl consulted
  · rw [acquired] at consulted
    have delivery : a.Delivered step.name c x s'
        ((guarded step (a.acquire step c >>= fun x => a.deliver step c x)).on s).2 := by
      rw [on_guarded, on_bind_ok acquired]
      exact a.deliver_delivers
    rcases ran : (guarded step (a.acquire step c >>= fun x => a.deliver step c x)).on s with ⟨f | o, t⟩
    · rw [ran] at delivery
      exact .delivered acquired (acquire_admits acquired) consulted delivery
    · rw [ran] at delivery
      exact .delivered acquired (acquire_admits acquired) consulted delivery

end AiStep

/-! ## An answer that is too long -/

namespace Overlong

/-- A step that writes a short text into a file and fails on any other. -/
def asking : AiStep where
  key := some "text"
  prompt := "Write some text."
  output := some { type := "file", target := some "a.txt" }
  guardrails := { maxLength := some 20 }

def step : Step := { name := "ask", body := .ai asking }

/-- The answer has more characters than that. -/
def context : StepContext where
  recipe := { name := "overlong" }
  project := .ofString "/project"
  answers := [("text", "There is a lot to be said about this.")]

/-- The answer is refused: the step fails, and there is no file, no variable and no output. -/
theorem refuses_answer : step.body = .ai asking ∧ ∃ o t,
    (Engine.runTool .model step context).on {} = (.ok o, t) ∧ o.status = .failed ∧
      t.tree = .bare ∧ t.scope.produced = [] ∧ ∀ p, t.printed p = "" := by
  refine ⟨rfl, ?_⟩
  have gated : asking.Gated step context {} ((Engine.runTool .model step context).on {}) :=
    AiStep.runTool_gated rfl
  have raises : ((asking.acquire step context).on {}).1.toOption.isSome = false := by decide +kernel
  rcases same : (Engine.runTool .model step context).on {} with ⟨r, t⟩
  rw [same] at gated
  cases gated with
  | awaiting awaits _ _ _ => cases awaits.2
  | delivered acquired _ _ _ =>
    rw [acquired] at raises
    cases raises
  | @refused f o _ raised lacks failed consulted =>
    refine ⟨o, t, rfl, failed, consulted.tree, ?_, fun p => consulted.printed p⟩
    rw [consulted.scope]

end Overlong

end Scaffold
