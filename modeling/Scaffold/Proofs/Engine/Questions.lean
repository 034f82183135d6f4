import Mathlib.Data.List.Nodup
import Scaffold.Proofs.Engine.Effects
import Scaffold.Proofs.Tool.Consent

/-!
# Questions in an execution

An execution that is not refused begins, and then its steps begin, one in each turn.  What is asked in a
turn is asked on behalf of its step: consent once or not at all where the step adds a file, and nothing
but consent while prompts are collected.  Since names of steps are distinct, an execution asks for
consent on behalf of such a step once at most.

Nothing here depends on whether files are written.  Whether a step asks for consent is decided before it
is looked at whether it may change anything.
-/

namespace Scaffold

open Run Session

/-! ## Consent and values -/

namespace Session

variable {s t u : Session} {name : String} {n n' : Nat}

/-- From `s` to `t` consent was asked for a number of times on behalf of the steps of a name. -/
def Confirmed (name : String) (n : Nat) (s t : Session) : Prop :=
  ∃ ms, Marked ms s t ∧ Event.Confirms name n ms

theorem confirmed_refl (name : String) (s : Session) : Confirmed name 0 s s :=
  ⟨[], (refl_of Unmarked s).marked, Event.confirms_nil⟩

theorem Confirmed.trans (h : Confirmed name n s t) (h' : Confirmed name n' t u) :
    Confirmed name (n + n') s u := by
  obtain ⟨ms, marked, confirms⟩ := h
  obtain ⟨ms', marked', confirms'⟩ := h'
  exact ⟨ms ++ ms', marked.trans marked', confirms.append confirms'⟩

/-- From `s` to `t` no value was asked for, and it is still collected or not. -/
structure Unasked (s t : Session) : Prop where
  mode : t.collector.collecting = s.collector.collecting
  journal : Logs (fun e => !e.isAsk) s t

instance unaskedPreorder : IsPreorder Session Unasked where
  refl _ := ⟨rfl, logs_of_journal_eq rfl⟩
  trans _ _ _ h h' := ⟨h'.mode.trans h.mode, h.journal.trans h'.journal⟩

theorem unaskedAll : Compositional (Keeps Unasked) := keepsAll Unasked

theorem Unnoticed.unasked (h : Unnoticed s t) : Unasked s t where
  mode := h.mode
  journal := h.journal.mono fun e unmarked => by simp_all [Event.isMark]

theorem Unnoticed.begins_nothing (h : Unnoticed s t) : Logs (fun e => !e.isBeginning) s t :=
  h.journal.mono fun e unmarked => by simp_all [Event.isMark]

/-- While prompts are collected, from `s` to `t` no value was asked for. -/
def UnaskedWhileCollecting (s t : Session) : Prop := s.collector.collecting = true → Unasked s t

instance unaskedWhileCollectingPreorder : IsPreorder Session UnaskedWhileCollecting where
  refl _ _ := refl_of Unasked _
  trans _ _ _ h h' collecting :=
    trans_of Unasked (h collecting) (h' ((h collecting).mode.trans collecting))

end Session

namespace Prompter

variable {w : Prompter}

/-- Asking for consent is no question for a value. -/
theorem Silent.confirm_unasked (h : w.Silent) (message : String) :
    (w.announcing.confirm message).Keeps Unasked := by
  refine unaskedAll.bind (keeps_modify fun s => ⟨rfl, logs_note rfl⟩) fun _ => ?_
  exact (h.confirm message).mono fun _ _ => Unnoticed.unasked

/-- Questions are no beginnings. -/
theorem Silent.ask_begins_nothing (h : w.Silent) (name : String) (d : Variable) :
    (w.announcing.ask name d).Keeps (Logs fun e => !e.isBeginning) := by
  refine (keepsAll _).bind (keeps_modify fun s => logs_note rfl) fun _ => ?_
  exact (h.ask name d).mono fun _ _ => Unnoticed.begins_nothing

theorem Silent.confirm_begins_nothing (h : w.Silent) (message : String) :
    (w.announcing.confirm message).Keeps (Logs fun e => !e.isBeginning) := by
  refine (keepsAll _).bind (keeps_modify fun s => logs_note rfl) fun _ => ?_
  exact (h.confirm message).mono fun _ _ => Unnoticed.begins_nothing

end Prompter

namespace Engine

/-- An engine whose questions are announced, and whose actions begin neither executions nor steps. -/
structure Announces (e : Engine) (w : Option Prompter) (sh : Shell) (actions : Actions) : Prop where
  tools : e.tools.AreStandard sh actions
  prompter : e.prompter = w.map Prompter.announcing
  silent : ∀ p, w = some p → p.Silent
  handlers : ∀ name a, actions.find? name = some a → ∀ params c,
    (a.handler params c).Keeps (Logs fun e => !e.isBeginning)

/-- What a step that changes files may know in a session: while prompts are collected it simulates. -/
def fileContext (e : Engine) (r : Recipe) (options : Options) (answers : Record String)
    (earlier : Record StepResult) (s : Session) : StepContext :=
  { e.context r options answers earlier with simulate := s.collector.collecting }

/-- Whether consent is asked for in a turn. -/
def asksConsent (e : Engine) (r : Recipe) (options : Options) (answers : Record String) (t : Turn) :
    Bool :=
  match t.visible, t.step.body with
  | .ok visible, .add a =>
    let s := t.before.begun t.step visible
    !t.step.isExcluded visible && (e.tools.get? .add).isSome &&
      a.asksConsent t.step (e.fileContext r options answers t.earlier s) s
  | _, _ => false

/-- How often an execution asks for consent on behalf of the steps of a name. -/
def consents (e : Engine) (r : Recipe) (b : Bindings) (options : Options) (answers : Record String)
    (s : Session) (name : String) : Nat :=
  (e.history r b options answers s).countP fun t =>
    t.step.name == name && e.asksConsent r options answers t

variable {e : Engine} {w : Option Prompter} {sh : Shell} {actions : Actions}
variable {r : Recipe} {b : Bindings} {options : Options} {answers : Record String} {name : String}

/-- In an execution each name comes up once at most. -/
theorem consents_le_one (distinct : (r.steps.map (·.name)).Nodup) (s : Session) (name : String) :
    e.consents r b options answers s name ≤ 1 := by
  have names : ((e.history r b options answers s).map (·.step.name)).Nodup := by
    have front : (e.history r b options answers s).map (·.step) <+: r.steps := history_prefix s
    have names := front.map (·.name)
    rw [List.map_map] at names
    exact distinct.sublist names.sublist
  calc e.consents r b options answers s name
    _ ≤ (e.history r b options answers s).countP (fun t => t.step.name == name) :=
      List.countP_mono_left fun t _ both => (Bool.and_eq_true _ _ ▸ both).1
    _ = ((e.history r b options answers s).map (·.step.name)).count name := by
      rw [List.count, List.countP_map]
      rfl
    _ ≤ 1 := List.nodup_iff_count_le_one.mp names name

section Announcing

variable (h : e.Announces w sh actions)

include h

/-! ## One turn -/

/-- A prompter of the engine is one that announces. -/
theorem Announces.announcing {p : Prompter} (there : e.prompter = some p) :
    ∃ p' : Prompter, p'.Silent ∧ p'.announcing = p := by
  rw [h.prompter] at there
  obtain ⟨p', some, rfl⟩ := Option.map_eq_some_iff.mp there
  exact ⟨p', h.silent p' some, rfl⟩

/-- A step begins nothing while it runs. -/
theorem Announces.permits (earlier : Record StepResult) (simulate : Bool) :
    ({ e.context r options answers earlier with simulate } : StepContext).Permits
      (Keeps (Logs fun e => !e.isBeginning)) sh actions where
  writes _ p text s := logs_of_journal_eq (by rw [on_writeText])
  runs _ k := command_holds (keepsAll _) (fun _ => keeps_modify fun _ => logs_note rfl)
    (fun _ => keeps_modify fun _ => logs_of_journal_eq rfl) sh k
  asks _ p there name d := by
    obtain ⟨p', silent, rfl⟩ := h.announcing there
    exact silent.ask_begins_nothing name d
  confirms _ p there message := by
    obtain ⟨p', silent, rfl⟩ := h.announcing there
    exact silent.confirm_begins_nothing message
  prints _ := keeps_modify fun _ => logs_note rfl
  acts _ _ := keeps_modify fun _ => logs_note rfl
  handles _ name a found params := h.handlers name a found params _
  shares _ := keeps_modify fun _ => logs_of_journal_eq rfl
  sets _ _ := keeps_modify fun _ => logs_of_journal_eq rfl
  records _ := keeps_modify fun _ => logs_of_journal_eq rfl
  calls g _ d := g.generate_keeps (fun _ _ => logs_of_journal_eq rfl) (fun _ _ => logs_note rfl) d

theorem Announces.runStep_begins_nothing (earlier : Record StepResult) (s : Step) :
    (e.runStep s (e.context r options answers earlier)).Keeps (Logs fun e => !e.isBeginning) :=
  runStep_holds (keepsAll _) h.tools (h.permits earlier) s

/-- A step that adds a file asks for consent once, or not at all. -/
theorem Announces.runStep_asks {a : AddStep} {s : Step} (adds : s.body = .add a)
    (earlier : Record StepResult) (st : Session) :
    AskedConsent (!s.isExcluded st.scope.visible && (e.tools.get? .add).isSome &&
      a.asksConsent s (e.fileContext r options answers earlier st) st).toNat st
      ((e.runStep s (e.context r options answers earlier)).on st).2 := by
  have still : AskedConsent 0 st st := (refl_of Unmarked st).askedConsent
  have kind : s.kind = .add := congrArg StepBody.kind adds
  have now : (st.collector.collecting && s.kind.isDeferred) = false := by
    rw [kind]
    exact Bool.and_false _
  cases excluded : s.isExcluded st.scope.visible with
  | true =>
    unfold runStep
    rw [on_bind_ok (on_get st), if_pos excluded]
    exact still
  | false =>
    cases found : e.tools.get? .add with
    | none =>
      unfold runStep
      rw [on_bind_ok (on_get st), if_neg (by simp [excluded])]
      dsimp only
      rw [if_neg (by simp [now]), kind, found]
      exact still
    | some t =>
      obtain rfl : t = .add := h.tools.get? found
      have asked : AskedConsent (a.asksConsent s (e.fileContext r options answers earlier st) st).toNat st
          ((a.execute s (e.fileContext r options answers earlier st)).on st).2 :=
        AddStep.execute_asks h.prompter h.silent a s st
      have run : Tool.add.execute s { e.context r options answers earlier with
            simulate := st.collector.collecting && s.kind.mutatesFiles } =
          a.execute s (e.fileContext r options answers earlier st) := by
        simp only [Tool.add, adds, fileContext, kind, StepKind.mutatesFiles, Bool.and_true]
      rw [runStep_on (kind ▸ found) excluded now, on_runTool, run]
      rcases ran : (a.execute s (e.fileContext r options answers earlier st)).on st with ⟨f | o, t⟩ <;>
        rw [ran] at asked <;> exact asked

/-- In a turn consent is asked for on behalf of its step. -/
theorem Announces.turn_confirmed {s : Session} {t : Turn} (mem : t ∈ e.history r b options answers s)
    (only : t.step.name = name → t.step.kind = .add) :
    Confirmed name (t.step.name == name && e.asksConsent r options answers t).toNat t.before t.after := by
  have turned := (mem_history mem).1
  have sees : t.visible = t.step.values b t.before.scope.produced answers := by
    rw [turned]
    rfl
  have after : t.after = ((e.step r b options answers t.earlier t.step).on t.before).2 := by
    rw [turned]
    rfl
  rw [after]
  cases seen : t.step.values b t.before.scope.produced answers with
  | error f =>
    have asks : e.asksConsent r options answers t = false := by simp only [asksConsent, sees, seen]
    rw [step_on_error seen, asks, Bool.and_false]
    exact confirmed_refl name t.before
  | ok visible =>
    rw [step_on_ok seen]
    have began : Marked [.began t.step.name visible] t.before (t.before.begun t.step visible) :=
      marked_note rfl
    have quiet : (e.runStep t.step (e.context r options answers t.earlier)).Keeps
        (Logs fun e => !e.isBeginning) := h.runStep_begins_nothing t.earlier t.step
    obtain ⟨ms, marked, kinds⟩ := Marked.of_logs (quiet (t.before.begun t.step visible))
    have inside : ∀ m ∈ ms, m.isBeginning = false := fun m mem => by simpa using (kinds m mem).1
    refine ⟨.began t.step.name visible :: ms, began.trans marked, ?_⟩
    have confirms : Event.Confirms name
        (if t.step.name = name then ms.countP Event.isConsent else 0)
        (.began t.step.name visible :: ms) := Event.confirms_began inside
    by_cases same : t.step.name = name
    · rw [if_pos same] at confirms
      cases adds : t.step.body with
      | add a =>
        have asked : AskedConsent _ (t.before.begun t.step visible)
            ((e.runStep t.step (e.context r options answers t.earlier)).on
              (t.before.begun t.step visible)).2 := h.runStep_asks adds t.earlier _
        obtain ⟨ms', marked', consents, length⟩ := asked
        obtain rfl : ms = ms' := marked.unique marked'
        rw [List.countP_eq_length.mpr consents, length] at confirms
        have asks : e.asksConsent r options answers t = (!t.step.isExcluded visible &&
            (e.tools.get? .add).isSome && a.asksConsent t.step
              (e.fileContext r options answers t.earlier (t.before.begun t.step visible))
              (t.before.begun t.step visible)) := by
          simp only [asksConsent, sees, seen, adds]
        rw [asks, beq_iff_eq.mpr same, Bool.true_and]
        exact confirms
      | _ =>
        have kind := only same
        simp [Step.kind, adds, StepBody.kind] at kind
    · rw [if_neg same] at confirms
      rw [beq_eq_false_iff_ne.mpr same, Bool.false_and]
      exact confirms

/-! ## All turns -/

omit h in
/-- What is asked in turns one after the other adds up. -/
theorem Chained.confirmed {p : Turn → Bool} {st : Session} {ts : List Turn} (chained : Chained st ts)
    (each : ∀ t ∈ ts, Confirmed name (p t).toNat t.before t.after) :
    Confirmed name (ts.countP p) st (leaves st ts) := by
  induction ts generalizing st with
  | nil => exact confirmed_refl name st
  | cons t ts ih =>
    obtain ⟨rfl, rest⟩ := chained
    obtain ⟨here, behind⟩ := List.forall_mem_cons.mp each
    have both := here.trans (ih rest behind)
    rw [List.countP_cons, Nat.add_comm]
    cases asks : p t <;> rw [asks] at both <;> exact both

/-- An execution asks for consent on behalf of a step that adds a file exactly where a turn does. -/
theorem Announces.execute_confirmed (only : ∀ x ∈ r.steps, x.name = name → x.kind = .add)
    (s : Session) :
    Confirmed name (e.consents r b options answers s name) s
      ((e.execute r b options answers).on s).2 := by
  cases valid : (e.validate r b.merged answers).valid with
  | false =>
    obtain ⟨f, failed⟩ := execute_on_invalid valid
    rw [failed, consents, history_of_invalid valid]
    exact confirmed_refl name s
  | true =>
    have opened : Confirmed name 0 s (s.opened r) :=
      ⟨[.executed r.name s.collector.collecting], marked_note rfl, Event.confirms_executed _ _⟩
    have steps : Confirmed name (e.consents r b options answers s name) (s.opened r)
        (leaves (s.opened r) (e.history r b options answers s)) :=
      (history_chained s).confirmed fun t mem =>
        h.turn_confirmed mem (only t.step (mem_history mem).2)
    rw [execute_on_valid valid s]
    simpa using opened.trans steps

/-! ## While prompts are collected -/

/-- While prompts are collected a step asks for consent at most. -/
theorem Announces.runTool_unasked {s : Step} {c : StepContext} (hc : c.prompter = e.prompter)
    (now : s.kind.isDeferred = false) :
    (runTool (Tools.standardFor sh actions s.kind) s c).Keeps Unasked := by
  have writes (p : Path) (text : String) : (writeText p text).Keeps Unasked := fun s => by
    rw [on_writeText]
    exact ⟨rfl, logs_of_journal_eq rfl⟩
  have confirms (p : Prompter) (there : c.prompter = some p) (message : String) :
      (p.confirm message).Keeps Unasked := by
    obtain ⟨p', silent, rfl⟩ := h.announcing (hc ▸ there)
    exact silent.confirm_unasked message
  refine runTool_holds unaskedAll ?_
  cases hs : s.body with
  | add a =>
    have kind : s.kind = .add := congrArg StepBody.kind hs
    simp only [kind, Tools.standardFor, Tool.add, hs]
    exact AddStep.execute_holds unaskedAll (fun _ => writes) (fun _ => confirms) a s
  | inject a =>
    have kind : s.kind = .inject := congrArg StepBody.kind hs
    simp only [kind, Tools.standardFor, Tool.inject, hs]
    exact InjectStep.execute_holds unaskedAll (fun _ => writes) a s
  | ai a =>
    have kind : s.kind = .ai := congrArg StepBody.kind hs
    simp only [kind, Tools.standardFor, Tool.model, hs]
    exact AiStep.execute_holds unaskedAll (fun _ => keeps_modify fun _ => ⟨rfl, logs_of_journal_eq rfl⟩)
      (fun g _ d => g.generate_keeps (fun _ _ => ⟨rfl, logs_of_journal_eq rfl⟩)
        (fun _ _ => ⟨rfl, logs_note rfl⟩) d) (fun _ => writes)
      (fun _ _ => keeps_modify fun _ => ⟨rfl, logs_of_journal_eq rfl⟩)
      (fun _ => keeps_modify fun _ => ⟨rfl, logs_note rfl⟩) a s
  | _ => simp [Step.kind, hs, StepBody.kind, StepKind.isDeferred] at now

theorem Announces.step_unasked (earlier : Record StepResult) (s : Step) :
    (e.step r b options answers earlier s).Keeps UnaskedWhileCollecting := by
  intro st collecting
  rcases seen : s.values b st.scope.produced answers with f | visible
  · rw [step_on_error seen]
    exact refl_of Unasked st
  · rw [step_on_ok seen]
    have began : Unasked st (st.begun s visible) := ⟨rfl, logs_note rfl⟩
    refine trans_of Unasked began ?_
    unfold runStep
    rw [on_bind_ok (on_get _)]
    split
    · exact refl_of Unasked _
    · simp only [begun_collector, collecting, Bool.true_and]
      split
      · exact refl_of Unasked _
      next now =>
        split
        · exact refl_of Unasked _
        next t found =>
          rw [h.tools.get? found]
          exact h.runTool_unasked rfl (by simpa using now) _

/-! ## The marks of an execution -/

theorem Announces.step_executes_nothing (earlier : Record StepResult) (s : Step) :
    (e.step r b options answers earlier s).Keeps (Logs fun e => !e.isExecution) := by
  intro st
  rcases seen : s.values b st.scope.produced answers with f | visible
  · rw [step_on_error seen]
    exact logs_of_journal_eq rfl
  · rw [step_on_ok seen]
    have began : Logs (fun e => !e.isExecution) st (st.begun s visible) := logs_note rfl
    refine began.trans ((h.runStep_begins_nothing earlier s _).mono fun e begins => ?_)
    cases e <;> simp_all [Event.isBeginning, Event.isExecution]

/-- An execution that is not refused leaves its beginning and that of no other, and while prompts are
collected no question for a value. -/
theorem Announces.execute_marks (s : Session) :
    ∃ ms, Marked ms s ((e.execute r b options answers).on s).2 ∧
      (ms = [] ∨ ∃ es, ms = .executed r.name s.collector.collecting :: es ∧
        ∀ m ∈ es, m.isExecution = false ∧ (s.collector.collecting = true → m.isAsk = false)) := by
  cases valid : (e.validate r b.merged answers).valid with
  | false =>
    obtain ⟨f, failed⟩ := execute_on_invalid valid
    rw [failed]
    exact ⟨[], (refl_of Unmarked s).marked, .inl rfl⟩
  | true =>
    have ends : ((e.execute r b options answers).on s).2 =
        ((e.runSteps r b options answers [] r.steps).on (s.opened r)).2 := by
      rw [execute_on_valid valid s, runSteps_on, history_of_valid valid]
    rw [ends]
    have began : Marked [.executed r.name s.collector.collecting] s (s.opened r) := marked_note rfl
    have quiet : (e.runSteps r b options answers [] r.steps).Keeps (Logs fun e => !e.isExecution) :=
      runSteps_holds (keepsAll _) h.step_executes_nothing [] r.steps
    have unasked : (e.runSteps r b options answers [] r.steps).Keeps UnaskedWhileCollecting :=
      runSteps_holds (keepsAll _) h.step_unasked [] r.steps
    obtain ⟨ms, marked, others⟩ := Marked.of_logs (quiet (s.opened r))
    refine ⟨_, began.trans marked, .inr ⟨ms, rfl, fun m mem => ⟨?_, fun collecting => ?_⟩⟩⟩
    · simpa using (others m mem).1
    · obtain ⟨ms', marked', unasked⟩ := Marked.of_logs (unasked (s.opened r) collecting).journal
      obtain rfl : ms = ms' := marked.unique marked'
      simpa using (unasked m mem).1

end Announcing

end Engine

end Scaffold
