import Scaffold.Proofs.Engine.Discretion
import Scaffold.Proofs.Runner.Tracing

/-!
# No prompts are left behind

Between calls the collector is empty and nothing is collected.  A call of a recipe may collect: it enters
collecting, executes the recipe, asks the transport, and clears the collector.  These legs stand in one
stretch.  Every leg before the stretch and behind it, and with them every step that is run for good,
begins and ends outside collecting with an empty collector.

This holds however a call ends.  It may be that nothing can be loaded, that variables cannot be resolved,
that the recipe is refused or fails, that a failure is raised in the middle of it, that there is no
transport, that the transport fails or raises or replies nothing known, or that the recipe runs to its
end.  Nothing is asked of the transport, which may even have left the collector in any state.
-/

namespace Scaffold

open Run Session

/-! ## Legs outside collecting -/

/-- A leg is outside collecting: it begins and ends with a fresh collector, or it clears one. -/
def Leg.Idle (l : Leg) : Prop :=
  match l.phase with
  | .apart => l.before.collector = {} ∧ l.after.collector = {}
  | .clearing => l.after = l.before.cleared
  | _ => False

/-- All of some legs are outside collecting. -/
def AllIdle (ls : List Leg) : Prop := ∀ l ∈ ls, l.Idle

/-- The legs of a call: of those between the idle ones before and the idle ones behind, first some collect
prompts and then some ask the transport. -/
def Bracketed (ls : List Leg) : Prop :=
  ∃ before pass asked behind, ls = before ++ pass ++ asked ++ behind ∧ AllIdle before ∧
    (∀ l ∈ pass, l.phase = .collecting) ∧ (∀ l ∈ asked, l.phase = .asking) ∧ AllIdle behind

/-- The legs of calls one after the other. -/
def InRounds (ls : List Leg) : Prop :=
  ∃ rounds : List (List Leg), ls = rounds.flatten ∧ ∀ ls ∈ rounds, Bracketed ls

section Legs

variable {ls ls' : List Leg}

theorem allIdle_nil : AllIdle [] := List.forall_mem_nil _

theorem allIdle_singleton {l : Leg} (h : l.Idle) : AllIdle [l] := by
  intro l' hl'
  rw [List.mem_singleton.mp hl']
  exact h

theorem AllIdle.append (h : AllIdle ls) (h' : AllIdle ls') : AllIdle (ls ++ ls') := by
  intro l hl
  exact (List.mem_append.mp hl).elim (h l) (h' l)

theorem AllIdle.bracketed (h : AllIdle ls) : Bracketed ls :=
  ⟨ls, [], [], [], by simp, h, List.forall_mem_nil _, List.forall_mem_nil _, allIdle_nil⟩

theorem Bracketed.before (h : Bracketed ls) (h' : AllIdle ls') : Bracketed (ls' ++ ls) := by
  obtain ⟨before, pass, asked, behind, rfl, idle, rest⟩ := h
  exact ⟨ls' ++ before, pass, asked, behind, by simp, h'.append idle, rest⟩

theorem Bracketed.behind (h : Bracketed ls) (h' : AllIdle ls') : Bracketed (ls ++ ls') := by
  obtain ⟨before, pass, asked, behind, rfl, idle, collecting, asking, after⟩ := h
  exact ⟨before, pass, asked, behind ++ ls', by simp, idle, collecting, asking, after.append h'⟩

theorem Bracketed.inRounds (h : Bracketed ls) : InRounds ls := by
  refine ⟨[ls], by simp, ?_⟩
  intro ls' hls'
  rw [List.mem_singleton.mp hls']
  exact h

theorem InRounds.append (h : InRounds ls) (h' : InRounds ls') : InRounds (ls ++ ls') := by
  obtain ⟨rounds, rfl, bracketed⟩ := h
  obtain ⟨rounds', rfl, bracketed'⟩ := h'
  refine ⟨rounds ++ rounds', List.flatten_append.symm, ?_⟩
  intro ls hls
  exact (List.mem_append.mp hls).elim (bracketed ls) (bracketed' ls)

end Legs

namespace Traced

variable {α β : Type} {L M N : List Leg → Prop} {x : Traced α} {f : α → Traced β} {s t : Session}

/-- From a session on the legs of a run have a property, and it ends with a fresh collector. -/
structure Leads (L : List Leg → Prop) (x : Traced α) (s : Session) : Prop where
  legs : L (x.legs s)
  fresh : (x.run.on s).2.collector = {}

theorem Leads.mono (h : x.Leads L s) (hLM : ∀ ls, L ls → M ls) : x.Leads M s :=
  ⟨hLM _ h.legs, h.fresh⟩

/-- What the legs of two parts have together the legs of the whole have, and those of the first part
alone where it raises a failure. -/
theorem leads_bind (alone : ∀ ls, L ls → N ls) (both : ∀ ls ls', L ls → M ls' → N (ls ++ ls'))
    (hx : x.Leads L s)
    (hf : ∀ a t, x.run.on s = (.ok a, t) → t.collector = {} → (f a).Leads M t) :
    (x >>= f).Leads N s := by
  have fresh := hx.fresh
  rcases ran : x.run.on s with ⟨e | a, t⟩ <;> rw [ran] at fresh
  · refine ⟨?_, ?_⟩
    · rw [legs_bind_error ran]
      exact alone _ hx.legs
    · rw [run_bind, on_bind_error ran]
      exact fresh
  · have behind := hf a t ran fresh
    refine ⟨?_, ?_⟩
    · rw [legs_bind_ok ran]
      exact both _ _ hx.legs behind.legs
    · rw [run_bind, on_bind_ok ran]
      exact behind.fresh

/-- From a session on a run is outside collecting all the way. -/
abbrev Idles (x : Traced α) (s : Session) : Prop := x.Leads AllIdle s

/-- From a session on a run collects prompts and asks for answers in one stretch at most, and it ends
outside collecting. -/
abbrev Brackets (x : Traced α) (s : Session) : Prop := x.Leads Bracketed s

/-- From a session on a run does so several times in turn. -/
abbrev Rounds (x : Traced α) (s : Session) : Prop := x.Leads InRounds s

theorem Leads.brackets (h : x.Idles s) : x.Brackets s := h.mono fun _ => AllIdle.bracketed

theorem Leads.rounds (h : x.Brackets s) : x.Rounds s := h.mono fun _ => Bracketed.inRounds

theorem idles_pure (a : α) (fresh : s.collector = {}) : (pure a : Traced α).Idles s :=
  ⟨allIdle_nil, fresh⟩

theorem idles_leg {y : Run α} (fresh : s.collector = {}) (same : y.Keeps SameCollector) :
    (leg .apart y).Idles s := by
  have after : ((y.on s).2).collector = {} := (same s).trans fresh
  exact ⟨allIdle_singleton ⟨fresh, after⟩, after⟩

/-- To clear the collector is to be outside collecting, whatever was before. -/
theorem idles_clear (s : Session) : Traced.clear.Idles s := ⟨allIdle_singleton rfl, rfl⟩

/-- A look at a fresh session is outside collecting. -/
theorem idles_look {y : Run α} (still : ∀ s, (y.on s).2 = s) (fresh : s.collector = {}) :
    (look y still).Idles s := by
  refine ⟨allIdle_nil, ?_⟩
  show (y.on s).2.collector = {}
  rw [still]
  exact fresh

theorem idles_bind (hx : x.Idles s)
    (hf : ∀ a t, x.run.on s = (.ok a, t) → t.collector = {} → (f a).Idles t) : (x >>= f).Idles s :=
  leads_bind (fun _ h => h) (fun _ _ => AllIdle.append) hx hf

theorem brackets_bind (hx : x.Idles s)
    (hf : ∀ a t, x.run.on s = (.ok a, t) → t.collector = {} → (f a).Brackets t) :
    (x >>= f).Brackets s :=
  leads_bind (fun _ => AllIdle.bracketed) (fun _ _ idle behind => behind.before idle) hx hf

theorem rounds_bind (hx : x.Rounds s)
    (hf : ∀ a t, x.run.on s = (.ok a, t) → t.collector = {} → (f a).Rounds t) : (x >>= f).Rounds s :=
  leads_bind (fun _ h => h) (fun _ _ => InRounds.append) hx hf

end Traced

open Traced

/-! ## Executions -/

/-- Outside collecting an execution stays outside. -/
theorem Engine.Discreet.execute_idles {e : Engine} {sh : Shell} {actions : Actions}
    (h : e.Discreet sh actions) (r : Recipe) (b : Bindings) (options : Options)
    (answers : Record String) {s : Session} (fresh : s.collector = {}) :
    (e.executeTraced .apart r b options answers).Idles s := by
  have opened : (s.opened r).collector = {} := fresh
  cases valid : (e.validate r b.merged answers).valid with
  | false =>
    obtain ⟨f, failed⟩ := execute_on_invalid valid
    refine ⟨?_, ?_⟩
    · show AllIdle (if (e.validate r b.merged answers).valid then _ else [])
      rw [valid]
      exact allIdle_nil
    · show ((e.execute r b options answers).on s).2.collector = {}
      rw [failed]
      exact fresh
  | true =>
    have outside : (∀ u ∈ e.turns r b options answers [] r.steps (s.opened r),
        u.before.collector = {} ∧ u.after.collector = {}) ∧
          (leaves (s.opened r) (e.turns r b options answers [] r.steps (s.opened r))).collector = {} :=
      h.turns_collector [] r.steps opened
    rw [← history_of_valid valid s] at outside
    obtain ⟨turns, last⟩ := outside
    refine ⟨?_, ?_⟩
    · show AllIdle (if (e.validate r b.merged answers).valid then _ else [])
      rw [valid]
      intro l hl
      rcases List.mem_cons.mp hl with rfl | hl
      · exact ⟨fresh, opened⟩
      · obtain ⟨u, hu, rfl⟩ := List.mem_map.mp hl
        exact turns u hu
    · show ((e.execute r b options answers).on s).2.collector = {}
      rw [execute_on_valid valid s]
      exact last

/-! ## Recipes -/

namespace Runner

variable {u : Runner} {sh : Shell} {actions : Actions} (h : u.engine.Discreet sh actions)
variable {r : Recipe} {q : RunRequest} {words : List String} {b : Bindings} {s : Session}

include h

/-- To resolve variables is to ask a person at most, who leaves the collector alone. -/
theorem scope_idles (answers : Option (Record String)) (fresh : s.collector = {}) :
    (leg .apart (u.scope r q words answers)).Idles s :=
  idles_leg fresh (Recipe.resolveVariables_holds sameCollectorAll (fun w hw _ => h.asks w hw) r)

theorem runPlain_idles (fresh : s.collector = {}) : (u.runPlainTraced r q b).Idles s :=
  idles_bind (h.execute_idles r b q.options [] fresh) fun _ _ _ fresh => idles_pure _ fresh

/-- A run with answers is outside collecting from its first leg on, whatever was before. -/
theorem resume_idles (answers : Record String) (s : Session) :
    (u.resumeTraced r q words answers).Idles s := by
  unfold resumeTraced
  refine idles_bind (idles_clear s) fun _ _ _ fresh => ?_
  refine idles_bind (scope_idles h _ fresh) fun b t _ fresh => ?_
  split
  · exact idles_pure _ fresh
  · exact idles_bind (h.execute_idles r b q.options answers fresh) fun _ _ _ fresh =>
      idles_pure _ fresh

/-- So is all that follows the reply of a transport. -/
theorem conclude_idles (first : RecipeResult) (o : TransportOutcome) (s : Session) :
    (u.concludeTraced r q words first o).Idles s := by
  unfold concludeTraced
  refine idles_bind (idles_clear s) fun _ _ _ fresh => ?_
  split
  · exact idles_bind (resume_idles h _ _) fun _ _ _ fresh => idles_pure _ fresh
  · exact idles_pure _ fresh
  · exact idles_pure _ fresh
  · exact ⟨allIdle_nil, fresh⟩

omit h in
theorem collectPrompts_collecting (s : Session) :
    ∀ l ∈ (u.collectPromptsTraced r q b).legs s, l.phase = .collecting := by
  intro l hl
  rcases mem_legs_bind hl with hl | ⟨_, t, -, hl⟩
  · rw [List.mem_singleton.mp hl]
  · unfold Engine.executeTraced at hl
    dsimp only at hl
    split at hl
    · rcases List.mem_cons.mp hl with rfl | hl
      · rfl
      · obtain ⟨turn, -, rfl⟩ := List.mem_map.mp hl
        rfl
    · cases hl

/-- Collecting comes first, then the transport or what is outside; a run that has ended is outside. -/
theorem collect_bracketed (s : Session) :
    Bracketed ((u.collectTraced r q b).legs s) ∧
      ∀ o t, (u.collectTraced r q b).run.on s = (.ok (.ended o), t) → t.collector = {} := by
  have pass : Bracketed ((u.collectPromptsTraced r q b).legs s) :=
    ⟨[], (u.collectPromptsTraced r q b).legs s, [], [], by simp, allIdle_nil,
      collectPrompts_collecting s, List.forall_mem_nil _, allIdle_nil⟩
  -- what is outside behind the collecting ends outside
  have outside {x : Traced Collected} {t : Session} (idles : x.Idles t) :
      Bracketed ((u.collectPromptsTraced r q b).legs s ++ x.legs t) ∧
        ∀ o t', x.run.on t = (.ok (.ended o), t') → t'.collector = {} := by
    refine ⟨pass.behind idles.legs, fun o t' ran => ?_⟩
    have fresh := idles.fresh
    rw [ran] at fresh
    exact fresh
  unfold collectTraced
  rcases ran : (u.collectPromptsTraced r q b).run.on s with ⟨f | first, t⟩
  · rw [legs_bind_error ran, run_bind, on_bind_error ran]
    refine ⟨pass, fun o t' ended => ?_⟩
    cases ended
  rw [legs_bind_ok ran, run_bind, on_bind_ok ran]
  split
  · exact outside (idles_bind (idles_clear t) fun _ _ _ fresh => idles_pure _ fresh)
  rw [legs_session_bind, run_bind, run_session, on_bind_ok (on_get t)]
  split
  · refine outside (idles_bind (idles_clear t) fun _ _ _ fresh => ?_)
    exact idles_bind (runPlain_idles h fresh) fun _ _ _ fresh => idles_pure _ fresh
  cases u.transport with
  | error f =>
    have raised : (Traced.ofExcept (.error f) : Traced Transport).run.on t = (.error f, t) := rfl
    rw [legs_bind_error raised, run_bind, on_bind_error raised]
    refine ⟨pass.behind allIdle_nil, fun o t' ended => ?_⟩
    cases ended
  | ok tr =>
    let asked : Traced Collected := do
      return .answered first (← leg .asking (tr.resolve ⟨t.collector, q.command, q.answersPath⟩))
    show Bracketed (_ ++ asked.legs t) ∧ ∀ o t', asked.run.on t = (.ok (.ended o), t') → _
    have asking : ∀ l ∈ asked.legs t, l.phase = .asking := by
      intro l hl
      rcases mem_legs_bind hl with hl | ⟨_, _, -, hl⟩
      · rw [List.mem_singleton.mp hl]
      · cases hl
    refine ⟨?_, fun o t' ended => ?_⟩
    · exact ⟨[], (u.collectPromptsTraced r q b).legs s, asked.legs t, [], by simp,
        allIdle_nil, collectPrompts_collecting s, asking, allIdle_nil⟩
    · -- a reply of the transport is no end
      obtain ⟨_, _, -, behind⟩ := on_bind_eq_ok ended
      cases behind

omit h in
theorem clearing_ok {α : Type} {x : Traced α} {a : α} {t : Session} (ran : x.run.on s = (.ok a, t)) :
    (clearingTraced x).legs s = x.legs s ∧ (clearingTraced x).run.on s = (.ok a, t) := by
  have tried : x.attempt.run.on s = (.ok (.ok a), t) := by
    rw [run_attempt, on_attempt, ran]
  unfold clearingTraced
  rw [legs_bind_ok tried, run_bind, on_bind_ok tried]
  exact ⟨List.append_nil _, rfl⟩

omit h in
theorem clearing_error {α : Type} {x : Traced α} {f : Failure} {t : Session}
    (ran : x.run.on s = (.error f, t)) :
    (clearingTraced x).legs s = x.legs s ++ [⟨.clearing, t, t.cleared⟩] ∧
      (clearingTraced x).run.on s = (.error f, t.cleared) := by
  have tried : x.attempt.run.on s = (.ok (.error f), t) := by
    rw [run_attempt, on_attempt, ran]
  unfold clearingTraced
  rw [legs_bind_ok tried, run_bind, on_bind_ok tried]
  exact ⟨rfl, rfl⟩

/-- However a run of a recipe goes, prompts are collected in one stretch, and none are left behind. -/
theorem runLoaded_brackets (s : Session) : (u.runLoadedTraced r q words).Brackets s := by
  unfold runLoadedTraced
  cases q.answers with
  | some answers => exact (resume_idles h answers s).brackets
  | none =>
    refine brackets_bind (idles_clear s) fun _ s₁ _ fresh => ?_
    refine brackets_bind (scope_idles h _ fresh) fun b s₂ _ fresh => ?_
    split
    · exact (runPlain_idles h fresh).brackets
    obtain ⟨pass, ended⟩ := collect_bracketed h (r := r) (q := q) (b := b) s₂
    rcases ran : (u.collectTraced r q b).run.on s₂ with ⟨f | c, t⟩
    · -- what is raised leaves a collector that was cleared
      obtain ⟨legs, cleared⟩ := clearing_error ran
      refine ⟨?_, ?_⟩
      · rw [legs_bind_error cleared, legs]
        exact pass.behind (allIdle_singleton rfl)
      · rw [run_bind, on_bind_error cleared]
        rfl
    obtain ⟨legs, went⟩ := clearing_ok ran
    cases c with
    | ended o =>
      refine ⟨?_, ?_⟩
      · rw [legs_bind_ok went, legs]
        exact pass.behind allIdle_nil
      · rw [run_bind, on_bind_ok went]
        exact ended o t ran
    | answered first o =>
      have behind : (u.concludeTraced r q words first o).Idles t := conclude_idles h first o t
      refine ⟨?_, ?_⟩
      · rw [legs_bind_ok went, legs]
        exact pass.behind behind.legs
      · rw [run_bind, on_bind_ok went]
        exact behind.fresh

theorem runRecipe_brackets (file : Path) (fresh : s.collector = {}) :
    (u.runRecipeTraced q words file).Brackets s := by
  unfold runRecipeTraced
  refine brackets_bind (idles_look _ fresh) fun st t _ fresh => ?_
  exact brackets_bind (idles_look _ fresh) fun r t _ _ => runLoaded_brackets h t

/-! ## Groups -/

omit h in
/-- The recipes of a group bracket their collecting one after the other. -/
theorem runEach_rounds {run : Path → Traced RunOutcome} {goOn : Bool} {directory : Path}
    (each : ∀ file s, s.collector = {} → (run file).Brackets s) (files : List Path) {s : Session}
    (fresh : s.collector = {}) : (runEachTraced run goOn directory files).Rounds s := by
  have done (e : List GroupEntry × Option String) {s : Session} (fresh : s.collector = {}) :
      (pure e : Traced (List GroupEntry × Option String)).Rounds s :=
    (idles_pure e fresh).brackets.rounds
  induction files generalizing s with
  | nil => exact done _ fresh
  | cons file rest ih =>
    have tried : (run file).attempt.Rounds s :=
      ⟨(each file s fresh).rounds.legs, (each file s fresh).fresh⟩
    unfold runEachTraced
    refine rounds_bind tried fun o t _ fresh => ?_
    cases o with
    | error e =>
      dsimp only
      split
      · exact (idles_look _ fresh).brackets.rounds
      split
      · exact done _ fresh
      · exact rounds_bind (ih fresh) fun _ _ _ fresh => done _ fresh
    | ok o =>
      dsimp only
      split
      · exact done _ fresh
      split
      · exact done _ fresh
      · exact rounds_bind (ih fresh) fun _ _ _ fresh => done _ fresh

theorem runGroup_rounds (directory : Path) (fresh : s.collector = {}) :
    (u.runGroupTraced q directory).Rounds s := by
  unfold runGroupTraced
  refine rounds_bind (idles_look _ fresh).brackets.rounds fun st t _ fresh => ?_
  refine rounds_bind (idles_look _ fresh).brackets.rounds fun files t _ fresh => ?_
  have each : (runEachTraced (fun file => u.runRecipeTraced q [] file) q.continueOnError directory
      files).Rounds t :=
    runEach_rounds (fun file s fresh => runRecipe_brackets h file fresh) files fresh
  exact rounds_bind each fun _ _ _ fresh => (idles_pure _ fresh).brackets.rounds

end Runner

/-! ## Calls in turn -/

/-- A call that a runner is given. -/
inductive Call where
  | recipe (file : Path) (q : RunRequest) (words : List String)
  | group (directory : Path) (q : RunRequest)

namespace Call

/-- The session that a call leaves, whether it returns or raises. -/
def leaves (u : Runner) (s : Session) : Call → Session
  | recipe file q words => ((u.runRecipe file q words).on s).2
  | group directory q => ((u.runGroup directory q).on s).2

/-- The legs of a call. -/
def legs (u : Runner) (s : Session) : Call → List Leg
  | recipe file q words => (u.runRecipeTraced q words file).legs s
  | group directory q => (u.runGroupTraced q directory).legs s

theorem linked (u : Runner) (s : Session) (c : Call) : Linked s (c.legs u s) (c.leaves u s) := by
  cases c with
  | recipe file q words =>
    have traced := (u.runRecipeTraced q words file).linked s
    rw [u.runRecipeTraced_run q words file] at traced
    exact traced
  | group directory q =>
    have traced := (u.runGroupTraced q directory).linked s
    rw [u.runGroupTraced_run q directory] at traced
    exact traced

/-- A call of a recipe collects prompts in one stretch at most, and a group does so recipe after recipe. -/
def Orderly (u : Runner) (s : Session) (c : Call) : Prop :=
  match c with
  | recipe .. => Bracketed (c.legs u s)
  | group .. => InRounds (c.legs u s)

theorem orderly {u : Runner} {sh : Shell} {actions : Actions} (h : u.engine.Discreet sh actions)
    {s : Session} (fresh : s.collector = {}) (c : Call) :
    c.Orderly u s ∧ (c.leaves u s).collector = {} := by
  cases c with
  | recipe file q words =>
    have brackets : (u.runRecipeTraced q words file).Brackets s := Runner.runRecipe_brackets h file fresh
    refine ⟨brackets.legs, ?_⟩
    show ((u.runRecipe file q words).on s).2.collector = {}
    rw [← u.runRecipeTraced_run q words file]
    exact brackets.fresh
  | group directory q =>
    have rounds : (u.runGroupTraced q directory).Rounds s := Runner.runGroup_rounds h directory fresh
    refine ⟨rounds.legs, ?_⟩
    show ((u.runGroup directory q).on s).2.collector = {}
    rw [← u.runGroupTraced_run q directory]
    exact rounds.fresh

end Call

/-- Calls one after the other, each with the session that it is made in.  Between two of them anything may
happen but to the collector. -/
inductive Runner.Calls (u : Runner) : Session → List (Session × Call) → Session → Prop where
  | none {s : Session} : Calls u s [] s
  | call {s before t : Session} {cs : List (Session × Call)} (c : Call)
      (untouched : before.collector = s.collector) (behind : Calls u (c.leaves u before) cs t) :
      Calls u s ((before, c) :: cs) t

/-- From a fresh collector on, every call leaves a fresh collector, and on its way it is outside collecting
but between the beginning of its collecting and the reply of the transport. -/
theorem Runner.calls_leave_nothing {u : Runner} {sh : Shell} {actions : Actions}
    (h : u.engine.Discreet sh actions) {s t : Session} {cs : List (Session × Call)}
    (calls : u.Calls s cs t) (fresh : s.collector = {}) :
    t.collector = {} ∧ ∀ before c, (before, c) ∈ cs →
      Linked before (c.legs u before) (c.leaves u before) ∧ c.Orderly u before ∧
        (c.leaves u before).collector = {} := by
  induction calls with
  | none => exact ⟨fresh, fun _ _ hc => by cases hc⟩
  | @call s before t cs c untouched behind ih =>
    -- what one call leaves is what the next one finds
    obtain ⟨orderly, left⟩ := c.orderly h (untouched.trans fresh)
    obtain ⟨last, others⟩ := ih left
    refine ⟨last, fun before' c' hc => ?_⟩
    rcases List.mem_cons.mp hc with same | hc
    · cases same
      exact ⟨c.linked u before, orderly, left⟩
    · exact others before' c' hc

/-! ## A prompt and a file that is missing -/

namespace Noted

/-- A recipe that asks for a note. -/
def text : String := "name: noted\nsteps:\n  - tool: ai\n    key: note\n    prompt: Write a note.\n"

def file : Path := .ofString "/project/recipe.yml"

def start : Session := { tree := (Tree.bare.replace file text).2 }

/-- Prompts are printed, to be answered for a later run. -/
def runner : Runner where
  engine := { project := .ofString "/project", tools := .standard (fun _ _ => .error .noProgram) [] }
  transport := .ok .document

theorem runner_discreet : runner.engine.Discreet (fun _ _ => .error .noProgram) [] where
  tools _ standard := standard
  asks _ absent := by cases absent
  confirms _ absent := by cases absent
  handlers _ _ absent := by cases absent

/-- The session behind a run that collects a prompt and defers the answer. -/
def deferred : Session := (Call.recipe file {} []).leaves runner start

/-- A run that defers, and one that raises since there is no such file: nothing is left behind. -/
theorem leaves_nothing : ∃ t,
    runner.Calls start [(start, .recipe file {} []), (deferred, .recipe (.ofString "/none") {} [])] t ∧
      t.collector = {} ∧ deferred.collector = {} ∧
      ((Call.recipe file {} []).legs runner start).map (·.phase) =
        [.clearing, .apart, .collecting, .collecting, .collecting, .asking, .clearing] := by
  have calls : runner.Calls start
      [(start, .recipe file {} []), (deferred, .recipe (.ofString "/none") {} [])]
      ((Call.recipe (.ofString "/none") {} []).leaves runner deferred) :=
    .call _ rfl (.call _ rfl .none)
  obtain ⟨last, each⟩ := Runner.calls_leave_nothing runner_discreet calls rfl
  obtain ⟨-, -, left⟩ := each start (.recipe file {} []) List.mem_cons_self
  exact ⟨_, calls, last, left, by decide +kernel⟩

end Noted

end Scaffold
