import Scaffold.Proofs.Engine.Effects
import Scaffold.Proofs.Engine.Shape

/-!
# Dry runs

A dry run says what it would do and leaves the project alone.  A step that writes, splices, runs a
command or calls an action looks at the mode before it does so, behind its own reading, asking and
setting of variables; so all that comes into the journal is what steps print, what a person is asked
and what a model is asked.  That holds however the run ends: with a report, with a failed step or with
a failure that is raised.  A report of a dry run names no file.

Of the person it is only asked to be no more than a person.  Of the shell and of the handlers of
actions nothing is asked, since none of them comes into play.
-/

namespace Scaffold

open Run Session

/-! ## What a dry run leaves alone -/

/-- Work outside the session: a command is run, or the handler of an action is called. -/
def Event.isWork : Event → Bool
  | .ran _ | .acted _ => true
  | _ => false

theorem Event.not_isWork_of_isTalk {e : Event} (h : e.isTalk = true) : (!e.isWork) = true := by
  cases e <;> simp_all [isTalk, isWork]

namespace Session

/-- From `s` to `t` no file was changed, no command was run and no handler of an action was called. -/
structure Spared (s t : Session) : Prop where
  tree : t.tree = s.tree
  journal : Logs (fun e => !e.isWork) s t

instance sparedPreorder : IsPreorder Session Spared where
  refl _ := ⟨rfl, logs_of_journal_eq rfl⟩
  trans _ _ _ h h' := ⟨h'.tree.trans h.tree, h.journal.trans h'.journal⟩

theorem Conversed.spared {s t : Session} (h : Conversed s t) : Spared s t where
  tree := h.tree
  journal := h.journal.mono fun _ => Event.not_isWork_of_isTalk

end Session

/-- Where nothing may be changed, whatever a tool may do leaves the project alone. -/
theorem StepContext.permits_spared {c : StepContext} (dry : c.isDry = true)
    (hw : ∀ w, c.prompter = some w → w.Quiet) (sh : Shell) (actions : Actions) :
    c.Permits (Keeps Spared) sh actions where
  writes wet := by rw [dry] at wet; cases wet
  runs wet := by rw [dry] at wet; cases wet
  asks _ w h name d := ((hw w h).ask name d).mono fun _ _ => Conversed.spared
  confirms _ w h message := ((hw w h).confirm message).mono fun _ _ => Conversed.spared
  prints _ := keeps_modify fun _ => ⟨rfl, logs_note rfl⟩
  acts wet := by rw [dry] at wet; cases wet
  handles wet := by rw [dry] at wet; cases wet
  shares _ := keeps_modify fun _ => ⟨rfl, logs_of_journal_eq rfl⟩
  sets _ _ := keeps_modify fun _ => ⟨rfl, logs_of_journal_eq rfl⟩
  records _ := keeps_modify fun _ => ⟨rfl, logs_of_journal_eq rfl⟩
  calls g _ d := g.generate_keeps (fun _ _ => ⟨rfl, logs_of_journal_eq rfl⟩)
    (fun _ _ => ⟨rfl, logs_note rfl⟩) d

/-! ## Executions -/

namespace Engine

variable {e : Engine} {r : Recipe} {b : Bindings} {options : Options} {answers : Record String}
variable {sh : Shell} {actions : Actions}

section Dry

variable (ht : e.tools.AreStandard sh actions) (dry : options.dryRun = true)

include dry

theorem context_isDry (earlier : Record StepResult) (simulate : Bool) :
    ({ e.context r options answers earlier with simulate } : StepContext).isDry = true := by
  simp only [StepContext.isDry, context, dry, Bool.true_or]

theorem permits_spared (hw : ∀ w, e.prompter = some w → w.Quiet) :
    e.Permits options (Keeps Spared) sh actions where
  tools _ _ earlier simulate :=
    StepContext.permits_spared (context_isDry dry earlier simulate) hw sh actions
  sees _ := keeps_modify fun _ => ⟨rfl, logs_of_journal_eq rfl⟩
  begins _ _ := keeps_modify fun _ => ⟨rfl, logs_note rfl⟩

include ht

/-- What comes of a step in a dry run names no file. -/
theorem step_names_no_file (earlier : Record StepResult) (s : Step) :
    (e.step r b options answers earlier s).Returns fun o => o.files = {} :=
  step_returns (fun simulate => s.grants_untouched (context_isDry dry earlier simulate))
    fun t mem _ grants => Tool.execute_returns grants (ht t mem)

/-- No entry in the report of a dry run names a file. -/
theorem entries_name_no_file {s t : Session} {o : RecipeResult}
    (h : (e.execute r b options answers).on s = (.ok o, t)) : ∀ x ∈ o.steps, x.files = {} := by
  intro x mem
  have entries := (execute_shaped h).entries
  -- the entry belongs to a turn, and comes of the step of that turn
  obtain ⟨i, hi, rfl⟩ := List.getElem_of_mem mem
  have hi' : i < (e.history r b options answers s).length := entries.length_eq.symm ▸ hi
  have outcome := entries.get hi' hi
  simp only [List.get_eq_getElem] at outcome
  have turned := (mem_history (List.getElem_mem hi')).1
  rw [turned] at outcome
  exact step_names_no_file ht dry _ _ _ _ _ (Prod.ext outcome rfl)

end Dry

/-- A dry run touches nothing, whatever becomes of it: every file is as it was, no command was run and
no handler was called.  Where it reports, it reports no file as created, modified or deleted. -/
theorem execute_dry (ht : e.tools.AreStandard sh actions)
    (hw : ∀ w, e.prompter = some w → w.Quiet) (dry : options.dryRun = true) (r : Recipe)
    (b : Bindings) (answers : Record String) (s : Session) :
    let ran := (e.execute r b options answers).on s
    Spared s ran.2 ∧ ∀ o, ran.1 = .ok o →
      o.filesCreated = [] ∧ o.filesModified = [] ∧ o.filesDeleted = [] := by
  intro ran
  constructor
  · rcases execute_keeps ht (permits_spared dry hw) r b answers s with same | kept
    · rw [show ran.2 = s from same]
      exact refl_of Spared s
    · have opened : Spared s (s.opened r) := ⟨rfl, logs_note rfl⟩
      exact trans_of Spared opened kept
  · intro o outcome
    have silent : ∀ x ∈ o.steps, x.files = {} :=
      entries_name_no_file ht dry (t := ran.2) (Prod.ext outcome rfl)
    have none (files : Touched → List String) (empty : files {} = []) : o.gather files = [] := by
      have all : o.steps.flatMap (fun x => files x.files) = [] :=
        List.flatMap_eq_nil_iff.mpr fun x mem => by rw [silent x mem, empty]
      rw [RecipeResult.gather, all]
      rfl
    refine ⟨none _ rfl, ?_, none _ rfl⟩
    rw [RecipeResult.filesModified, none _ rfl]
    rfl

end Engine

/-! ## A dry run of steps of all kinds -/

namespace Tentative

/-- A recipe with a step for everything that a run can do to a project. -/
def recipe : Recipe where
  name := "tentative"
  steps := [{ name := "put", body := .add { target := "a.txt", body := some "new\n" } },
    { name := "extend", body := .inject { target := "a.txt", body := some "more" } },
    { name := "clean", body := .shell { command := "rm -r ." } },
    { name := "prepare", body := .setup { commands := ["make"] } },
    { name := "publish", body := .action { action := "publish" } },
    { name := "note", body := .ai
        { prompt := "Write.", output := some { type := "file", target := some "note.txt" } } }]

/-- A shell in which every command leaves an empty tree. -/
def shell : Shell := fun _ _ => .ok { status := 0, output := [], errors := [], tree := .bare }

/-- An action that replaces a file. -/
def actions : Actions :=
  Actions.register [] { name := "publish", handler := fun _ _ => do
    Run.writeText (.ofString "/project/a.txt") "published"
    return {} }

def engine : Engine where
  project := .ofString "/project"
  tools := .standard shell actions
  prompter := some Terminal.prompter

/-- Files may be overwritten, without anyone being asked. -/
def options : Options := { dryRun := true, force := true }

def start : Session := { tree := (Tree.bare.replace (.ofString "/project/a.txt") "old\n").2 }

/-- All six steps succeed, and nothing is touched. -/
theorem leaves_alone : ∃ o t,
    (engine.execute recipe {} options [("note", "a note of some length")]).on start = (.ok o, t) ∧
    o.success = true ∧ o.steps.length = 6 ∧ Spared start t ∧
    o.filesCreated = [] ∧ o.filesModified = [] ∧ o.filesDeleted = [] := by
  have ends : ((engine.execute recipe {} options [("note", "a note of some length")]).on start
      |>.1.toOption.map fun o => (o.success, o.steps.length)) = some (true, 6) := by decide +kernel
  have standard : engine.tools.AreStandard shell actions := fun _ h => h
  have quiet : ∀ w, engine.prompter = some w → w.Quiet := by
    rintro _ ⟨⟩
    exact Terminal.prompter_quiet
  have mode : options.dryRun = true := rfl
  have dry := Engine.execute_dry standard quiet mode recipe {} [("note", "a note of some length")] start
  rcases same : (engine.execute recipe {} options [("note", "a note of some length")]).on start
    with ⟨f | o, t⟩
  · rw [same] at ends
    cases ends
  · rw [same] at ends dry
    obtain ⟨success, length⟩ := Prod.mk.inj (Option.some.inj ends)
    exact ⟨o, t, rfl, success, length, dry.1, dry.2 o rfl⟩

end Tentative

end Scaffold
