import Scaffold.Proofs.Engine.Effects
import Scaffold.Run

/-!
# Runs hold back until they have their answers

A run that is given no answers executes its recipe for good once at most.  Everything that it does
before is harmless: it resolves variables, which is a conversation, and it executes the recipe with its
prompts collected.  Between that and the execution for good stands at most one request to the transport.
So a run that ends early, because answers are deferred, because the recipe fails while prompts are
collected, because the transport fails, or because something is raised, leaves the project as it was.

What surrounds a run is not looked into.  A person only converses, no handler of an action begins an
execution, and a transport leaves the files alone and begins none either.
-/

namespace Scaffold

open Run Session

/-! ## Harmless stretches -/

namespace Session

/-- From `s` to `t` no file was changed and nothing but harmless events happened. -/
structure Harmless (s t : Session) : Prop where
  tree : t.tree = s.tree
  journal : Logs Event.isHarmless s t

instance harmlessPreorder : IsPreorder Session Harmless where
  refl _ := ⟨rfl, logs_of_journal_eq rfl⟩
  trans _ _ _ h h' := ⟨h'.tree.trans h.tree, h.journal.trans h'.journal⟩

variable {s t u : Session}

theorem HeldBack.harmless (h : HeldBack s t) : Harmless s t := ⟨h.tree, h.journal⟩

theorem Conversed.harmless (h : Conversed s t) : Harmless s t := h.heldBack.harmless

theorem harmless_collector (c : Collector) : Harmless s { s with collector := c } :=
  ⟨rfl, logs_of_journal_eq rfl⟩

/-- From `s` to `t` one execution was begun, and that for good. -/
def ExecutedOnce (s t : Session) : Prop :=
  ∃ name es, t.journal = s.journal ++ .executed name false :: es ∧
    ∀ e ∈ es, (!e.isExecution) = true

end Session

/-- What came of a run: no execution was begun for good, or one was after a stretch in `A`. -/
inductive Course (A : Session → Session → Prop) (s : Session) :
    Except Failure RunOutcome × Session → Prop where
  | held {o : Except Failure RunOutcome} {t : Session} (h : A s t) : Course A s (o, t)
  | executed {o : Except Failure RunOutcome} {s' t : Session} (h : A s s') (once : ExecutedOnce s' t)
      (ended : ∀ out, o = .ok out →
        out.status ≠ .deferred ∧ ∀ f, out.transport ≠ some (.failed f)) : Course A s (o, t)

/-- A stretch before a run belongs to its course. -/
theorem Course.after {A B C : Session → Session → Prop} {s s' : Session}
    {p : Except Failure RunOutcome × Session} (h : Course B s' p) (hA : A s s')
    (hC : ∀ t, A s s' → B s' t → C s t) : Course C s p := by
  cases h with
  | held h => exact .held (hC _ hA h)
  | executed h once ended => exact .executed (hC _ hA h) once ended

theorem Course.mono {A C : Session → Session → Prop} {s : Session}
    {p : Except Failure RunOutcome × Session} (h : Course A s p) (hC : ∀ t, A s t → C s t) :
    Course C s p := by
  cases h with
  | held h => exact .held (hC _ h)
  | executed h once ended => exact .executed (hC _ h) once ended

theorem Course.cleared {A : Session → Session → Prop} {s t : Session}
    {o : Except Failure RunOutcome} (h : Course A s (o, t)) (hA : A s t → A s t.cleared) :
    Course A s (o, t.cleared) := by
  cases h with
  | held h => exact .held (hA h)
  | executed h once ended => exact .executed h once ended

/-! ## What surrounds a run -/

/-- What is asked of the surroundings of runs. -/
structure Runner.Surrounded (u : Runner) (sh : Shell) (actions : Actions) : Prop where
  tools : u.engine.tools.AreStandard sh actions
  prompter : ∀ w, u.engine.prompter = some w → w.Quiet
  handlers : ∀ name a, actions.find? name = some a → ∀ params c,
    (a.handler params c).Keeps (Logs fun e => !e.isExecution)
  files : ∀ tr, u.transport = .ok tr → ∀ request s, ((tr.resolve request).on s).2.tree = s.tree
  requests : ∀ tr, u.transport = .ok tr → ∀ request,
    (tr.resolve request).Keeps (Logs fun e => !e.isExecution)

/-- From `s` to `t` no file was changed, and all that happened is harmless but for one request to the
transport at most. -/
structure Runner.OnlyAsks (u : Runner) (s t : Session) : Prop where
  tree : t.tree = s.tree
  journal : Logs Event.isHarmless s t ∨ ∃ tr request s', u.transport = .ok tr ∧
    Logs Event.isHarmless s s' ∧ Logs Event.isHarmless ((tr.resolve request).on s').2 t

/-! ## Executions for good -/

namespace Session

theorem executesNothing : Compositional (Keeps (Logs fun e => !e.isExecution)) := keepsAll _

end Session

theorem Generator.generate_logs (g : Generator) (d : Demand) :
    (g.generate d).Keeps (Logs fun e => !e.isExecution) :=
  g.generate_keeps (fun _ _ => logs_of_journal_eq rfl)
    (fun _ _ => ⟨[_], rfl, by simp [Event.isExecution]⟩) d

namespace Runner

variable {u : Runner} {sh : Shell} {actions : Actions}

theorem Surrounded.permits (h : u.Surrounded sh actions) (options : Options) :
    u.engine.Permits options (Keeps (Logs fun e => !e.isExecution)) sh actions where
  tools r answers earlier simulate :=
    have talk {s t : Session} (c : Conversed s t) : Logs (fun e => !e.isExecution) s t :=
      c.journal.mono fun _ => Event.not_isExecution_of_isTalk
    { writes := fun _ p text s => logs_of_journal_eq (by rw [on_writeText])
      runs := fun _ k => command_holds executesNothing (fun _ => keeps_modify fun _ => logs_note rfl)
        (fun _ => keeps_modify fun _ => logs_of_journal_eq rfl) sh k
      asks := fun _ w hw name d => ((h.prompter w hw).ask name d).mono fun _ _ => talk
      confirms := fun _ w hw message => ((h.prompter w hw).confirm message).mono fun _ _ => talk
      prints := fun _ => keeps_modify fun _ => logs_note rfl
      acts := fun _ _ => keeps_modify fun _ => logs_note rfl
      handles := fun _ name a found params => h.handlers name a found params _
      shares := fun _ => keeps_modify fun _ => logs_of_journal_eq rfl
      sets := fun _ _ => keeps_modify fun _ => logs_of_journal_eq rfl
      records := fun _ => keeps_modify fun _ => logs_of_journal_eq rfl
      calls := fun g _ d => g.generate_logs d }
  sees _ := keeps_modify fun _ => logs_of_journal_eq rfl
  begins _ _ := keeps_modify fun _ => logs_note rfl

/-- Collecting prompts does no harm. -/
theorem collectPrompts_harmless (ht : u.engine.tools.AreStandard sh actions)
    (hw : ∀ w, u.engine.prompter = some w → w.Quiet) (r : Recipe) (q : RunRequest) (b : Bindings) :
    (u.collectPrompts r q b).Keeps Harmless := by
  intro s
  unfold collectPrompts
  rw [on_bind_ok (Run.on_collect _ s)]
  let c := (r.inquiriesFor b.missing).foldl Collector.add s.collector.enter
  let s' : Session := { s with collector := c }
  have collecting : s'.collector.collecting = true := Collector.collecting_addAll _ _
  have held : HeldBack s' ((u.engine.execute r b q.options).on s').2 :=
    Engine.execute_heldBack ht hw collecting
  exact trans_of Harmless (harmless_collector c) held.harmless

/-! ## Courses of runs -/

theorem on_clearing {α : Type} (x : Run α) (s : Session) :
    (clearing x).on s = match x.on s with
      | (.ok a, t) => (.ok a, t)
      | (.error f, t) => (.error f, t.cleared) := by
  unfold clearing
  rw [on_bind_ok (on_attempt x s)]
  rcases x.on s with ⟨f | a, t⟩ <;> rfl

/-! ## Requests to the transport -/

theorem OnlyAsks.behind {s t t' : Session} (h : u.OnlyAsks s t) (behind : Harmless t t') :
    u.OnlyAsks s t' where
  tree := behind.tree.trans h.tree
  journal := by
    rcases h.journal with quiet | ⟨tr, request, s', htr, before, after⟩
    · exact .inl (quiet.trans behind.journal)
    · exact .inr ⟨tr, request, s', htr, before, after.trans behind.journal⟩

theorem OnlyAsks.before {s s' t : Session} (h : u.OnlyAsks s' t) (before : Harmless s s') :
    u.OnlyAsks s t where
  tree := h.tree.trans before.tree
  journal := by
    rcases h.journal with quiet | ⟨tr, request, s'', htr, earlier, after⟩
    · exact .inl (before.journal.trans quiet)
    · exact .inr ⟨tr, request, s'', htr, before.journal.trans earlier, after⟩

theorem OnlyAsks.logs (h : u.Surrounded sh actions) {s t : Session} (asked : u.OnlyAsks s t) :
    Logs (fun e => !e.isRealExecution) s t := by
  have harmless {s t : Session} (logs : Logs Event.isHarmless s t) :
      Logs (fun e => !e.isRealExecution) s t :=
    logs.mono fun e he => by rw [Event.not_isRealExecution_of_isHarmless he]; rfl
  rcases asked.journal with quiet | ⟨tr, request, s', htr, before, behind⟩
  · exact harmless quiet
  · have noted : Logs (fun e => !e.isRealExecution) s' ((tr.resolve request).on s').2 :=
      (h.requests tr htr request s').mono fun e he => by
        rw [Event.not_isRealExecution_of_not_isExecution he]
        rfl
    exact (harmless before).trans (noted.trans (harmless behind))

end Runner

end Scaffold
