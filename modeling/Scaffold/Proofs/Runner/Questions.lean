import Mathlib
import Scaffold.Proofs.Engine.Questions
import Scaffold.Proofs.Recipe.Names
import Scaffold.Proofs.Recipe.Questions
import Scaffold.Proofs.Runner.Filling
import Scaffold.Proofs.Runner.HoldingBack

/-!
# How often a run asks

A run goes through stages: it resolves the variables of its recipe, and it executes the recipe.  Each
stage asks once at most, for a variable the one kind of stages and for consent on behalf of a step the
other.  A run without answers may go through both kinds twice: it collects prompts in an execution of
its own, and when it has the answers it starts over with them.

So nobody is asked twice for a variable exactly where the second resolution asks for nothing, and nobody
is asked twice for consent exactly where no step asks for it in two executions.  Neither goes without
saying.  The second resolution asks again for all that is open and has no answer, and what it is told
then may differ from what the prompts were rendered with.  A step asks for consent before it is looked
at whether files may be changed, so it does so while prompts are collected too.
-/

namespace Scaffold

open Run Session

namespace Session

/-- The marks that came into a journal that grew from `s` to `t`. -/
def newMarks (s t : Session) : List Event :=
  (t.journal.drop s.journal.length).filter Event.isMark

theorem Marked.newMarks {s t : Session} {ms : List Event} (h : Marked ms s t) : newMarks s t = ms := by
  obtain ⟨es, journal, rfl⟩ := h
  rw [Session.newMarks, journal, List.drop_left]

end Session

namespace Runner

/-! ## Stages -/

/-- A part of a run that may ask someone. -/
inductive Stage where
  /-- The variables are resolved with answers. -/
  | resolving (answers : Record String) (before : Session)
  /-- The recipe is executed with answers. -/
  | executing (b : Bindings) (answers : Record String) (before : Session)

section Stages

variable (u : Runner) (r : Recipe) (q : RunRequest) (words : List String)

/-- The stages of a run that is given answers. -/
def resumeStages (answers : Record String) (s : Session) : List Stage :=
  .resolving answers s.cleared ::
    match (u.scope r q words (some answers)).on s.cleared with
    | (.ok b, t) => if b.missing.isEmpty then [.executing b answers t] else []
    | (.error _, _) => []

/-- The stages of a run behind the reply of a transport. -/
def concludeStages (o : TransportOutcome) (s : Session) : List Stage :=
  match o with
  | .resolved answers => u.resumeStages r q words answers s.cleared
  | _ => []

/-- The session in which the collecting of prompts begins, with those for the variables that are left to the
model. -/
def gathering (b : Bindings) (s : Session) : Session :=
  { s with collector := (r.inquiriesFor b.missing).foldl Collector.add s.collector.enter }

/-- The stages of a run from the collecting of prompts on. -/
def collectStages (b : Bindings) (s : Session) : List Stage :=
  .executing b [] (gathering r b s) ::
    match (u.collectPrompts r q b).on s with
    | (.error _, _) => []
    | (.ok first, t) =>
      if !first.success then []
      else if !t.collector.isPending then [.executing b [] t.cleared]
      else
        match u.transport with
        | .error _ => []
        | .ok tr =>
          match (tr.resolve ⟨t.collector, q.command, q.answersPath⟩).on t with
          | (.error _, _) => []
          | (.ok o, t') => u.concludeStages r q words o t'

/-- The stages of a run. -/
def stages (s : Session) : List Stage :=
  match q.answers with
  | some answers => u.resumeStages r q words answers s
  | none =>
    .resolving [] s.cleared ::
      match (u.scope r q words none).on s.cleared with
      | (.ok b, t) =>
        if b.missing.isEmpty && !r.asksModel then [.executing b [] t]
        else u.collectStages r q words b t
      | (.error _, _) => []

namespace Stage

/-- The session in which a stage begins. -/
def before : Stage → Session
  | resolving _ before => before
  | executing _ _ before => before

/-- The session that a stage leaves. -/
def after : Stage → Session
  | resolving answers before => ((u.scope r q words (some answers)).on before).2
  | executing b answers before => ((u.engine.execute r b q.options answers).on before).2

/-- Whether a stage comes before an execution for good: it is none itself. -/
def isEarly : Stage → Bool
  | resolving _ _ => true
  | executing _ _ before => before.collector.collecting

/-- Whether consent is asked for on behalf of a step in a stage. -/
def Confirms (x : Step) : Stage → Prop
  | resolving _ _ => False
  | executing b answers before => ∃ t ∈ u.engine.history r b q.options answers before,
      t.step = x ∧ u.engine.asksConsent r q.options answers t = true

/-- How often a variable is asked for in a stage. -/
def asks (v : String) (a : Stage) : Nat :=
  match a with
  | resolving _ _ => (newMarks a.before (a.after u r q words)).countP (Event.asksFor v)
  | executing _ _ _ => 0

/-- How often consent is asked for in a stage on behalf of the steps of a name. -/
def consents (name : String) : Stage → Nat
  | resolving _ _ => 0
  | executing b answers before => u.engine.consents r b q.options answers before name

end Stage

/-- From one session to another a run goes through stages, and asks for nothing between them.  A stage
that is not early is the last one. -/
inductive Through : List Stage → Session → Session → Prop where
  | still {s t : Session} (rest : Unmarked s t) : Through [] s t
  | early {a : Stage} {as : List Stage} {s t : Session} (isEarly : a.isEarly = true)
      (before : Unmarked s a.before) (behind : Through as (a.after u r q words) t) :
      Through (a :: as) s t
  | last {a : Stage} {s t : Session} (before : Unmarked s a.before)
      (behind : Unmarked (a.after u r q words) t) : Through [a] s t

end Stages

variable {u : Runner} {r : Recipe} {q : RunRequest} {words : List String}

/-! ## A run goes through its stages -/

section Course

theorem unmarked_cleared {s t : Session} (h : Unmarked s t) : Unmarked s t.cleared :=
  h.trans (logs_of_journal_eq rfl)

/-- Clearing the collector behind a run leaves no marks. -/
theorem Through.cleared {as : List Stage} {s t : Session} (h : u.Through r q words as s t) :
    u.Through r q words as s t.cleared := by
  induction h with
  | still rest => exact .still (unmarked_cleared rest)
  | early isEarly before _ ih => exact .early isEarly before ih
  | last before behind => exact .last before (unmarked_cleared behind)

/-- A run with answers goes through its stages. -/
theorem resume_through (answers : Record String) {s₀ s : Session} (before : Unmarked s₀ s) :
    u.Through r q words (u.resumeStages r q words answers s) s₀
      ((u.resume r q words answers).on s).2 := by
  unfold resume resumeStages
  rw [on_bind_ok (on_clear s)]
  have after : (Stage.resolving answers s.cleared).after u r q words =
      ((u.scope r q words (some answers)).on s.cleared).2 := rfl
  refine .early rfl (unmarked_cleared before) ?_
  rw [after, on_bind]
  rcases (u.scope r q words (some answers)).on s.cleared with ⟨f | b, t⟩
  · exact .still (refl_of Unmarked t)
  · dsimp only
    by_cases full : b.missing.isEmpty = true
    · rw [if_pos full, if_neg (by simp [full]), on_bind]
      refine .last (refl_of Unmarked t) ?_
      show Unmarked ((u.engine.execute r b q.options answers).on t).2 _
      rcases (u.engine.execute r b q.options answers).on t with ⟨f | result, t'⟩ <;>
        exact refl_of Unmarked t'
    · rw [if_neg full, if_pos (by simp [full])]
      exact .still (refl_of Unmarked t)

variable (transports : ∀ tr, u.transport = .ok tr → ∀ request, (tr.resolve request).Keeps Unmarked)

/-- An execution for good without answers is the last stage. -/
theorem runPlain_through (b : Bindings) {s₀ s : Session} (before : Unmarked s₀ s) :
    u.Through r q words [.executing b [] s] s₀ ((u.runPlain r q b).on s).2 := by
  refine .last before ?_
  unfold runPlain
  show Unmarked ((u.engine.execute r b q.options []).on s).2 _
  rw [on_bind]
  rcases (u.engine.execute r b q.options []).on s with ⟨f | result, t⟩ <;> exact refl_of Unmarked t

/-- What follows the reply of a transport. -/
theorem conclude_through (first : RecipeResult) (o : TransportOutcome) {s₀ s : Session}
    (before : Unmarked s₀ s) :
    u.Through r q words (u.concludeStages r q words o s) s₀
      ((u.conclude r q words first o).on s).2 := by
  have cleared : Unmarked s₀ s.cleared := unmarked_cleared before
  unfold conclude
  rw [on_bind_ok (on_clear s)]
  cases o with
  | resolved answers =>
    have resumed : u.Through r q words (u.resumeStages r q words answers s.cleared) s₀
        ((u.resume r q words answers).on s.cleared).2 := resume_through answers cleared
    dsimp only
    rw [on_bind]
    rcases ran : (u.resume r q words answers).on s.cleared with ⟨f | done, t⟩ <;> rw [ran] at resumed
    · exact resumed
    · exact resumed
  | _ => exact .still cleared

include transports in
/-- A run goes through its stages from the collecting of prompts on. -/
theorem collect_through (b : Bindings) (s : Session) :
    u.Through r q words (u.collectStages r q words b s) s
      (((do
        match (← clearing (u.collect r q b)) with
        | .ended o => return o
        | .answered first o => u.conclude r q words first o) : Run RunOutcome).on s).2 := by
  have collecting : (gathering r b s).collector.collecting = true := Collector.collecting_addAll _ _
  have executed : (u.collectPrompts r q b).on s =
      (u.engine.execute r b q.options).on (gathering r b s) := on_bind_ok (Run.on_collect _ s) _
  unfold collectStages
  refine .early collecting (logs_of_journal_eq rfl) ?_
  show u.Through r q words _ ((u.engine.execute r b q.options []).on (gathering r b s)).2 _
  rw [← executed, on_bind, on_clearing]
  unfold collect
  rcases ran : (u.collectPrompts r q b).on s with ⟨f | first, t⟩
  · rw [on_bind_error ran]
    exact .still (logs_of_journal_eq rfl)
  rw [on_bind_ok ran]
  dsimp only
  by_cases failed : (!first.success) = true
  · rw [if_pos failed, if_pos failed, on_bind_ok (on_clear t)]
    exact .still (logs_of_journal_eq rfl)
  rw [if_neg failed, if_neg failed, on_bind_ok (on_get t)]
  by_cases none : (!t.collector.isPending) = true
  · rw [if_pos none, if_pos none, on_bind_ok (on_clear t), on_bind]
    have plain : u.Through r q words [.executing b [] t.cleared] t
        ((u.runPlain r q b).on t.cleared).2 :=
      runPlain_through b (unmarked_cleared (refl_of Unmarked t))
    rcases ran : (u.runPlain r q b).on t.cleared with ⟨f | o, t'⟩ <;> rw [ran] at plain
    · exact plain.cleared
    · exact plain
  · rw [if_neg none, if_neg none, on_bind, on_ofExcept]
    rcases there : u.transport with f | tr
    · exact .still (logs_of_journal_eq rfl)
    dsimp only
    rw [on_bind_ok (on_get t), on_bind]
    have asked : Unmarked t ((tr.resolve ⟨t.collector, q.command, q.answersPath⟩).on t).2 :=
      transports tr there _ t
    rcases replied : (tr.resolve ⟨t.collector, q.command, q.answersPath⟩).on t with ⟨f | o, t'⟩ <;>
      rw [replied] at asked
    · exact .still (unmarked_cleared asked)
    · exact conclude_through first o asked

include transports in
/-- A run goes through its stages. -/
theorem runLoaded_through (s : Session) :
    u.Through r q words (u.stages r q words s) s ((u.runLoaded r q words).on s).2 := by
  unfold runLoaded stages
  cases q.answers with
  | some answers => exact resume_through answers (refl_of Unmarked s)
  | none =>
    dsimp only
    rw [on_bind_ok (on_clear s)]
    refine .early rfl (unmarked_cleared (refl_of Unmarked s)) ?_
    show u.Through r q words _ ((u.scope r q words none).on s.cleared).2 _
    rw [on_bind]
    rcases (u.scope r q words none).on s.cleared with ⟨f | b, t⟩
    · exact .still (refl_of Unmarked t)
    dsimp only
    by_cases plain : (b.missing.isEmpty && !r.asksModel) = true
    · rw [if_pos plain, if_pos plain]
      exact runPlain_through b (refl_of Unmarked t)
    · rw [if_neg plain, if_neg plain]
      exact collect_through transports b t

end Course

/-! ## What is asked in a stage -/

/-- A runner whose questions are announced, and whose transport leaves no marks. -/
structure Announces (u : Runner) (w : Option Prompter) (sh : Shell) (actions : Actions) : Prop where
  engine : u.engine.Announces w sh actions
  transport : ∀ tr, u.transport = .ok tr → ∀ request, (tr.resolve request).Keeps Unmarked

section Asking

variable {w : Option Prompter} {sh : Shell} {actions : Actions} (h : u.Announces w sh actions)

include h

variable (r q words) in
/-- To resolve variables with answers is to ask for open ones. -/
theorem Announces.resolving_asks (answers : Record String) (before : Session) :
    let a : Stage := .resolving answers before
    ∃ asked, asked <+: Recipe.openIn (u.sources r q words answers) r.declared ∧
      (asked.map (·.1)).head? = Recipe.firstAsked? (u.sources r q words answers) r.declared ∧
      Marked (asked.map Recipe.question) before (a.after u r q words) ∧
      (∀ v, a.asks u r q words v = (asked.map (·.1)).count v) ∧
      ∀ b t, (u.scope r q words (some answers)).on before = (.ok b, t) →
        asked = Recipe.openIn (u.sources r q words answers) r.declared := by
  intro a
  obtain ⟨asked, front, first, marked, all⟩ := Recipe.resolveVariables_asks
    (s := u.sources r q words answers) h.engine.prompter h.engine.silent r before
  refine ⟨asked, front, first, marked, fun v => ?_, fun b t ran => all b (congrArg Prod.fst ran)⟩
  have marks : newMarks before (a.after u r q words) = asked.map Recipe.question := marked.newMarks
  show (newMarks before (a.after u r q words)).countP (Event.asksFor v) = _
  rw [marks, List.count, List.countP_map, List.countP_map]
  rfl

variable (r q words) in
/-- What a stage leaves in the journal. -/
theorem Announces.stage_marks (a : Stage) :
    ∃ ms, Marked ms a.before (a.after u r q words) ∧
      (∀ v, Event.timesAsked v ms = a.asks u r q words v) ∧
      (a.isEarly = true → ∀ m ∈ ms, m.isRealExecution = false) ∧
      ∀ name, (∀ x ∈ r.steps, x.name = name → x.kind = .add) →
        Event.Confirms name (a.consents u r q name) ms := by
  cases a with
  | resolving answers before =>
    obtain ⟨asked, -, -, marked, count, -⟩ := h.resolving_asks r q words answers before
    have asks : ∀ m ∈ asked.map Recipe.question, m.isAsk = true := by
      intro m mem
      obtain ⟨e, -, rfl⟩ := List.mem_map.mp mem
      rfl
    have early : ∀ m ∈ asked.map Recipe.question, m.isRealExecution = false := by
      intro m mem
      have ask := asks m mem
      cases m <;> simp_all [Event.isAsk, Event.isRealExecution]
    refine ⟨_, marked, fun v => ?_, fun _ => early, fun name _ => Event.confirms_asks asks⟩
    rw [Event.timesAsked_early early, count, List.count, List.countP_map, List.countP_map]
    rfl
  | executing b answers before =>
    obtain ⟨ms, marked, begins⟩ : ∃ ms, Marked ms before
        ((u.engine.execute r b q.options answers).on before).2 ∧ (ms = [] ∨ ∃ es,
          ms = .executed r.name before.collector.collecting :: es ∧ ∀ m ∈ es,
            m.isExecution = false ∧ (before.collector.collecting = true → m.isAsk = false)) :=
      h.engine.execute_marks before
    refine ⟨ms, marked, fun v => ?_, fun early => ?_, fun name only => ?_⟩
    · show Event.timesAsked v ms = 0
      rcases begins with rfl | ⟨es, rfl, inside⟩
      · rfl
      · cases collecting : before.collector.collecting with
        | false => exact Event.timesAsked_real r.name
        | true =>
          -- only consent is asked for while prompts are collected
          refine Event.timesAsked_unasked (List.forall_mem_cons.mpr ⟨rfl, fun m mem => ?_⟩)
          exact (inside m mem).2 collecting
    · have collecting : before.collector.collecting = true := early
      rcases begins with rfl | ⟨es, rfl, inside⟩
      · exact List.forall_mem_nil _
      · refine List.forall_mem_cons.mpr ⟨by simp [Event.isRealExecution, collecting], fun m mem => ?_⟩
        exact Event.not_isRealExecution_of_not_isExecution (by rw [(inside m mem).1]; rfl)
    · obtain ⟨ms', marked', confirms⟩ : Confirmed name
          (u.engine.consents r b q.options answers before name) before
          ((u.engine.execute r b q.options answers).on before).2 :=
        h.engine.execute_confirmed only before
      rw [marked.unique marked']
      exact confirms

/-- Over all stages of a run the questions add up. -/
theorem Announces.through_marks {as : List Stage} {s t : Session} (through : u.Through r q words as s t) :
    ∃ ms, Marked ms s t ∧ (∀ v, Event.timesAsked v ms = (as.map (·.asks u r q words v)).sum) ∧
      ∀ name, (∀ x ∈ r.steps, x.name = name → x.kind = .add) →
        Event.Confirms name (as.map (·.consents u r q name)).sum ms := by
  induction through with
  | still rest => exact ⟨[], rest.marked, fun _ => rfl, fun _ _ => Event.confirms_nil⟩
  | @early a as s t isEarly before _ ih =>
    obtain ⟨ms, marked, asks, early, confirms⟩ := h.stage_marks r q words a
    obtain ⟨ms', marked', asks', confirms'⟩ := ih
    refine ⟨ms ++ ms', (before.marked.trans marked).trans marked', fun v => ?_, fun name only => ?_⟩
    · rw [Event.timesAsked_append (early isEarly), ← Event.timesAsked_early (early isEarly), asks, asks',
        List.map_cons, List.sum_cons]
    · exact (confirms name only).append (confirms' name only)
  | @last a s t before behind =>
    obtain ⟨ms, marked, asks, -, confirms⟩ := h.stage_marks r q words a
    have all := (before.marked.trans marked).trans behind.marked
    rw [List.append_nil] at all
    refine ⟨ms, all, fun v => ?_, fun name only => ?_⟩
    · rw [asks, List.map_cons, List.map_nil, List.sum_singleton]
    · rw [List.map_cons, List.map_nil, List.sum_singleton]
      exact confirms name only

end Asking

/-! ## How the stages of a run hang together -/

variable (u r q words) in
/-- Variables are resolved at the beginning.  Where they are resolved once more, they were resolved
without answers before, and that succeeded. -/
theorem stages_resolving (s : Session) : ∃ answers rest,
    u.stages r q words s = .resolving answers s.cleared :: rest ∧
      ∀ answers' before, .resolving answers' before ∈ rest →
        answers = [] ∧ ∃ b t, (u.scope r q words (some [])).on s.cleared = (.ok b, t) := by
  unfold stages
  cases q.answers with
  | some answers =>
    refine ⟨answers, _, rfl, fun answers' before mem => ?_⟩
    split at mem
    · split at mem <;> simp at mem
    · cases mem
  | none =>
    refine ⟨[], _, rfl, fun answers' before mem => ⟨rfl, ?_⟩⟩
    split at mem
    next b t ran => exact ⟨b, t, ran⟩
    next => cases mem

/-- An execution with answers has the bindings that the resolution before it came to. -/
theorem scope_of_resumeStages {s s₂ s₃ : Session} {b : Bindings}
    {answers answers₂ answers₃ : Record String}
    (h : u.resumeStages r q words answers s = [.resolving answers₂ s₂, .executing b answers₃ s₃]) :
    (u.scope r q words (some answers₂)).on s₂ = (.ok b, s₃) := by
  unfold resumeStages at h
  split at h
  next b' t ran =>
    split at h
    · cases h
      exact ran
    · cases h
  next => cases h

theorem scope_of_collectStages {s s₁ s₂ s₃ : Session} {b b₁ b₃ : Bindings}
    {answers₂ answers₃ : Record String}
    (h : u.collectStages r q words b s =
      [.executing b₁ [] s₁, .resolving answers₂ s₂, .executing b₃ answers₃ s₃]) :
    b₁ = b ∧ (u.scope r q words (some answers₂)).on s₂ = (.ok b₃, s₃) := by
  unfold collectStages at h
  obtain ⟨first, rest⟩ := List.cons.inj h
  refine ⟨by cases first; rfl, ?_⟩
  split at rest
  · cases rest
  split at rest
  · cases rest
  split at rest
  · cases rest
  split at rest
  · cases rest
  split at rest
  · cases rest
  unfold concludeStages at rest
  split at rest
  · exact scope_of_resumeStages rest
  · cases rest

/-- The bindings of two executions between which answers came in. -/
theorem scope_of_stages {s s₀ s₁ s₂ s₃ : Session} {b₁ b₃ : Bindings}
    {answers₂ answers₃ : Record String}
    (h : u.stages r q words s = [.resolving [] s₀, .executing b₁ [] s₁, .resolving answers₂ s₂,
      .executing b₃ answers₃ s₃]) :
    (∃ t, (u.scope r q words (some [])).on s₀ = (.ok b₁, t)) ∧
      (u.scope r q words (some answers₂)).on s₂ = (.ok b₃, s₃) := by
  unfold stages at h
  split at h
  · -- a run that is given answers has two stages at most
    unfold resumeStages at h
    obtain ⟨-, rest⟩ := List.cons.inj h
    split at rest
    · split at rest <;> cases rest
    · cases rest
  · obtain ⟨first, rest⟩ := List.cons.inj h
    split at rest
    next b t ran =>
      split at rest
      · cases rest
      · obtain ⟨rfl, resumed⟩ := scope_of_collectStages rest
        cases first
        exact ⟨⟨t, ran⟩, resumed⟩
    next => cases rest

/-! ## Once -/

/-- Where each of some things counts once at most, all of them do together exactly where no two count. -/
theorem sum_le_one_iff {α : Type} {f : α → Nat} {p : α → Prop} {as : List α}
    (each : ∀ a ∈ as, f a ≤ 1 ∧ (f a = 1 ↔ p a)) :
    (as.map f).sum ≤ 1 ↔ as.Pairwise fun a a' => ¬ (p a ∧ p a') := by
  induction as with
  | nil => simp
  | cons a as ih =>
    obtain ⟨⟨once, counts⟩, rest⟩ := List.forall_mem_cons.mp each
    rw [List.map_cons, List.sum_cons, List.pairwise_cons, ← ih rest]
    by_cases here : p a
    · -- nothing behind may count any more
      have one : f a = 1 := counts.mpr here
      have others : (as.map f).sum = 0 ↔ ∀ a' ∈ as, ¬ (p a ∧ p a') := by
        rw [List.sum_eq_zero_iff_forall_eq_nat, List.forall_mem_map]
        refine forall₂_congr fun a' mem => ?_
        obtain ⟨once', counts'⟩ := rest a' mem
        rw [← counts', and_iff_right here]
        omega
      rw [← others]
      omega
    · have zero : f a = 0 := by
        rw [← counts] at here
        omega
      rw [zero, Nat.zero_add, and_iff_right fun _ _ both => here both.1]

/-- In a stage consent is asked for once at most on behalf of a step that adds a file, and exactly where a
turn of the step asks for it. -/
theorem Stage.consents_spec (distinct : r.Distinct) {x : Step} (mem : x ∈ r.steps) (a : Stage) :
    a.consents u r q x.name ≤ 1 ∧ (a.consents u r q x.name = 1 ↔ a.Confirms u r q x) := by
  cases a with
  | resolving answers before => exact ⟨Nat.zero_le 1, by simp [consents, Confirms]⟩
  | executing b answers before =>
    have once : u.engine.consents r b q.options answers before x.name ≤ 1 :=
      Engine.consents_le_one distinct.steps before x.name
    refine ⟨once, ?_⟩
    show u.engine.consents r b q.options answers before x.name = 1 ↔ _
    have positive : u.engine.consents r b q.options answers before x.name = 1 ↔
        0 < u.engine.consents r b q.options answers before x.name := by omega
    rw [positive, Engine.consents, List.countP_pos_iff]
    refine exists_congr fun t => and_congr_right fun turn => ?_
    rw [Bool.and_eq_true, beq_iff_eq]
    refine and_congr_left fun _ => ⟨fun same => ?_, fun same => by rw [same]⟩
    exact List.inj_on_of_nodup_map distinct.steps (Engine.mem_history turn).2 mem same

/-- No variable is asked for twice exactly where no second resolution asks for any: what that one asks for
was open before, and so it was asked for. -/
theorem Announces.asks_once {w : Option Prompter} {sh : Shell} {actions : Actions}
    (h : u.Announces w sh actions) (distinct : r.Distinct) (s : Session) :
    (∀ v, ((u.stages r q words s).map (·.asks u r q words v)).sum ≤ 1) ↔
      ∀ answers before, .resolving answers before ∈ (u.stages r q words s).tail →
        Recipe.firstAsked? (u.sources r q words answers) r.declared = none := by
  obtain ⟨answers₀, rest, shape, again⟩ := stages_resolving u r q words s
  obtain ⟨asked₀, front₀, -, -, count₀, all₀⟩ := h.resolving_asks r q words answers₀ s.cleared
  rw [shape, List.tail_cons]
  simp only [List.map_cons, List.sum_cons]
  constructor
  · -- the first that a second resolution asks for counts twice
    intro once answers before mem
    obtain ⟨rfl, b, t, ran⟩ := again answers before mem
    obtain ⟨asked, front, first, -, count, -⟩ := h.resolving_asks r q words answers before
    by_contra asks
    obtain ⟨v, asks⟩ := Option.ne_none_iff_exists'.mp asks
    have here : v ∈ asked.map (·.1) := List.mem_of_mem_head? (first.trans asks)
    have there : v ∈ asked₀.map (·.1) := by
      obtain ⟨e, mem, rfl⟩ := List.mem_map.mp here
      rw [all₀ b t ran]
      exact List.mem_map_of_mem (Recipe.mem_openIn_unanswered (front.mem mem))
    have first : 1 ≤ (Stage.resolving [] s.cleared).asks u r q words v := by
      rw [count₀]
      exact List.count_pos_iff.mpr there
    have second : 1 ≤ (Stage.resolving answers before).asks u r q words v := by
      rw [count]
      exact List.count_pos_iff.mpr here
    have among : (Stage.resolving answers before).asks u r q words v ≤
        (rest.map (·.asks u r q words v)).sum :=
      List.le_sum_of_mem (List.mem_map_of_mem mem)
    have := once v
    omega
  · intro nothing v
    have others : (rest.map (·.asks u r q words v)).sum = 0 := by
      refine List.sum_eq_zero (List.forall_mem_map.mpr fun a mem => ?_)
      cases a with
      | executing => rfl
      | resolving answers before =>
        obtain ⟨asked, -, first, -, count, -⟩ := h.resolving_asks r q words answers before
        rw [nothing answers before mem, List.head?_eq_none_iff] at first
        rw [count, first, List.count_nil]
    have names : (asked₀.map (·.1)).Nodup :=
      distinct.declared.sublist ((front₀.sublist.trans List.filter_sublist).map _)
    rw [others, count₀, Nat.add_zero]
    exact List.nodup_iff_count_le_one.mp names v

theorem runRecipe_on_loaded (u : Runner) (q : RunRequest) (words : List String) {file : Path}
    {s : Session} (loaded : Recipe.load s.tree file = .ok r) :
    (u.runRecipe file q words).on s = (u.runLoaded r q words).on s := by
  unfold runRecipe
  rw [on_bind_ok (on_get s), loaded]
  rfl

/-- Nobody is asked twice for a variable in a run exactly where a second resolution of the variables asks
for none, and nobody is asked twice for consent on behalf of a step that adds a file exactly where no
two executions ask for it.  Where a second resolution asks for nothing, every variable that has no
answer has the value with which the prompts were rendered. -/
theorem asked_once_iff {w : Option Prompter} {sh : Shell} {actions : Actions}
    (h : u.Announces w sh actions) {file : Path} {s : Session}
    (loaded : Recipe.load s.tree file = .ok r) :
    let stages := u.stages r q words s
    let asksNothing (answers : Record String) : Prop :=
      Recipe.firstAsked? (u.sources r q words answers) r.declared = none
    ∃ es, ((u.runRecipe file q words).on s).2.journal = s.journal ++ es ∧
      ((∀ v, Event.timesAsked v es ≤ 1) ↔
        ∀ answers before, .resolving answers before ∈ stages.tail → asksNothing answers) ∧
      ((∀ x ∈ r.steps, x.kind = .add → Event.timesConfirmed x.name none es ≤ 1) ↔
        ∀ x ∈ r.steps, x.kind = .add →
          stages.Pairwise fun a a' => ¬ (a.Confirms u r q x ∧ a'.Confirms u r q x)) ∧
      ∀ s₀ b s₁ answers s₂ b' s₃, stages = [.resolving [] s₀, .executing b [] s₁,
          .resolving answers s₂, .executing b' answers s₃] → asksNothing answers →
        ∀ v, answers.get? v = none → b'.merged.get? v = b.merged.get? v := by
  intro stages asksNothing
  have ran := u.runRecipe_on_loaded q words loaded
  have distinct : r.Distinct := Recipe.load_distinct loaded
  have through : u.Through r q words stages s ((u.runLoaded r q words).on s).2 :=
    runLoaded_through h.transport s
  obtain ⟨ms, ⟨es, journal, rfl⟩, asks, confirms⟩ := h.through_marks through
  refine ⟨es, by rw [ran, journal], ?_, ?_, ?_⟩
  · rw [← h.asks_once distinct s]
    refine forall_congr' fun v => ?_
    rw [← Event.timesAsked_filter, asks]
  · refine forall₂_congr fun x mem => forall_congr' fun adds => ?_
    have only : ∀ y ∈ r.steps, y.name = x.name → y.kind = .add := by
      intro y there same
      rw [List.inj_on_of_nodup_map distinct.steps there mem same]
      exact adds
    rw [← Event.timesConfirmed_filter, (confirms x.name only).times]
    exact sum_le_one_iff fun a _ => a.consents_spec distinct mem
  · intro s₀ b s₁ answers s₂ b' s₃ shape nothing v unanswered
    obtain ⟨⟨t, before⟩, behind⟩ := scope_of_stages shape
    obtain ⟨asked, -, first, -, -, all⟩ := h.resolving_asks r q words answers s₂
    have unasked : Recipe.openIn (u.sources r q words answers) r.declared = [] := by
      rw [← all _ _ behind]
      rw [nothing, List.head?_eq_none_iff, List.map_eq_nil_iff] at first
      exact first
    exact Recipe.merged_unanswered unasked before behind unanswered

end Runner

/-! ## A title and a file that is there -/

namespace Titled

/-- A recipe that has a file added and a note written, and has a title for the note. -/
def text : String :=
  "variables:\n  title:\n    required: true\nsteps:\n" ++
  "  - tool: add\n    name: put\n    to: a.txt\n    body: new\n" ++
  "  - tool: ai\n    key: note\n    prompt: Write of \x7b\x7btitle\x7d\x7d.\n"

def file : Path := .ofString "/project/cookbooks/noted/recipe.yml"

/-- The file to add is there with another text. -/
def start : Session :=
  { tree := ((Tree.bare.replace file text).2.replace (.ofString "/project/a.txt") "old\n").2 }

/-- Someone who always gives the same title, and consents. -/
def author : Prompter where
  ask _ _ := return .str "Pumps"
  confirm _ := return true

/-- A runner that gets its answer at once. -/
def runner : Runner where
  engine :=
    { project := .ofString "/project", tools := .standard (fun _ _ => .error .noProgram) []
      prompter := some author.announcing }
  transport := .ok { resolve := fun _ => return .resolved [("note", "a note of some length")] }

theorem runner_announces : runner.Announces (some author) (fun _ _ => .error .noProgram) [] where
  engine :=
    { tools := fun _ h => h
      prompter := rfl
      silent := by
        rintro _ ⟨⟩
        exact ⟨fun _ _ _ => ⟨rfl, logs_of_journal_eq rfl⟩, fun _ _ => ⟨rfl, logs_of_journal_eq rfl⟩⟩
      handlers := fun _ _ found => by cases found }
  transport := by
    rintro _ ⟨⟩ request s
    exact logs_of_journal_eq rfl

/-- A person is asked, for variables and for consent. -/
def request : RunRequest := { ask := some .person, options := { interactive := true } }

/-- A recipe adds a file, and a run that completes asks twice for the title and twice for consent. -/
def AsksTwice (r : Recipe) (ran : Except Failure RunOutcome × Session) : Prop :=
  (∃ x ∈ r.steps, x.name = "put" ∧ x.kind = .add) ∧
    ran.1.toOption.map (·.status) = some .completed ∧
    Event.timesAsked "title" ran.2.journal = 2 ∧ Event.timesConfirmed "put" none ran.2.journal = 2

instance (r : Recipe) (ran : Except Failure RunOutcome × Session) : Decidable (AsksTwice r ran) :=
  inferInstanceAs (Decidable (_ ∧ _ ∧ _ ∧ _))

/-- With the recipe at hand the file is read only once. -/
theorem decided : (Recipe.load start.tree file).toOption.any (fun r =>
    decide (AsksTwice r ((runner.runLoaded r request []).on start))) = true := by
  decide +kernel

theorem loads : ∃ r, Recipe.load start.tree file = .ok r ∧
    AsksTwice r ((runner.runRecipe file request []).on start) := by
  have asks := decided
  rcases loaded : Recipe.load start.tree file with f | r <;> rw [loaded] at asks
  · cases asks
  · refine ⟨r, rfl, ?_⟩
    rw [runner.runRecipe_on_loaded request [] loaded]
    exact of_decide_eq_true asks

/-- The run asks for a variable more than once, and more than once for consent on behalf of a step that
adds a file. -/
theorem asked_twice : ∃ r, Recipe.load start.tree file = .ok r ∧
    let es := ((runner.runRecipe file request []).on start).2.journal
    ¬ (∀ v, Event.timesAsked v es ≤ 1) ∧
    ¬ ∀ x ∈ r.steps, x.kind = .add → Event.timesConfirmed x.name none es ≤ 1 := by
  obtain ⟨r, loaded, ⟨x, mem, name, adds⟩, -, title, put⟩ := loads
  refine ⟨r, loaded, fun once => ?_, fun once => ?_⟩
  · have := once "title"
    omega
  · have := once x mem adds
    rw [name] at this
    omega

/-- The second resolution asks again, and so does a step in the second execution. -/
theorem asks_again : ∃ r, runner.Announces (some author) (fun _ _ => .error .noProgram) [] ∧
    Recipe.load start.tree file = .ok r ∧
    (∃ answers before, .resolving answers before ∈ (runner.stages r request [] start).tail ∧
      Recipe.firstAsked? (runner.sources r request [] answers) r.declared ≠ none) ∧
    ∃ x ∈ r.steps, x.kind = .add ∧ ¬ (runner.stages r request [] start).Pairwise fun a a' =>
      ¬ (a.Confirms runner r request x ∧ a'.Confirms runner r request x) := by
  obtain ⟨r, loaded, ⟨x, mem, name, adds⟩, -, title, put⟩ := loads
  obtain ⟨es, grown, asks, confirms, -⟩ := Runner.asked_once_iff (q := request) runner_announces loaded
  have all : ((runner.runRecipe file request []).on start).2.journal = es := grown
  rw [all] at title put
  refine ⟨r, runner_announces, loaded, ?_, ?_⟩
  · by_contra none
    have once := asks.mpr (fun answers before mem => by_contra fun asks =>
      none ⟨answers, before, mem, asks⟩) "title"
    omega
  · by_contra none
    have once := confirms.mpr (fun y there adds => by_contra fun both =>
      none ⟨y, there, adds, both⟩) x mem adds
    rw [name] at once
    omega

end Titled

end Scaffold
