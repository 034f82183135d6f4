import Scaffold.Proofs.Cli.Parameters
import Scaffold.Proofs.Path.Names
import Scaffold.Proofs.Session.Runs
import Scaffold.Proofs.Shell.Quoting

/-!
# The command of a prompt document

A prompt document ends with the command that takes the answers.  It is written from the words that named
what was run, from the parameters and from the options, without an earlier answers file; the path of the
answers stands behind it.  Here is what a shell reads from that line, and what the options are that are
read from the arguments of a run.
-/

namespace Scaffold

/-- The command line that a prompt document gives. -/
def RunRequest.rerun (q : RunRequest) : String := q.command ++ " --answers " ++ q.answersPath

namespace Prompt

/-- What stands before the command. -/
def instructions : List String :=
  ["## Instructions\n", "Save your response as JSON to a file and run:\n", fence]

/-- A prompt document ends with the command, on lines of its own. -/
theorem document_rerun (c : Collector) {q : RunRequest} (some : q.command ≠ "") :
    ∃ front, document c q.command q.answersPath =
      block (front ++ instructions ++ [q.rerun, fence ++ "\n"]) := by
  have part : commandPart q.command q.answersPath = instructions ++ [q.rerun, fence ++ "\n"] := by
    rw [commandPart]
    simp [filled?, some, RunRequest.rerun, instructions]
  rw [document, part, ← List.append_assoc]
  exact ⟨_, rfl⟩

end Prompt

namespace Arguments

open Cli Cli.Grammar

variable {a : String} {args : List String}

/-- The arguments that name the answers file are those that are left out. -/
theorem nameOf_answers : nameOf a = "--answers" ↔ a = "--answers" ∨ Text.startsWith "--answers=" a = true := by
  rw [nameOf_eq_iff (by decide), Text.startsWith_iff]
  refine or_congr Iff.rfl ⟨?_, fun ⟨value, chars⟩ => ⟨String.ofList value, ?_⟩⟩
  · rintro ⟨value, rfl⟩
    exact ⟨value.toList, by simp⟩
  · rw [← String.toList_inj, ← chars]
    simp

theorem withoutAnswers_sublist (args : List String) : (withoutAnswers args).Sublist args := by
  induction args using withoutAnswers.induct with
  | case1 => rw [withoutAnswers]
  | case2 rest ih =>
    rw [withoutAnswers, if_pos rfl]
    exact ih.trans ((List.drop_sublist 1 rest).trans (List.sublist_cons_self _ rest))
  | case3 a rest other inline ih =>
    rw [withoutAnswers, if_neg other, if_pos inline]
    exact ih.trans (List.sublist_cons_self a rest)
  | case4 a rest other separate ih =>
    rw [withoutAnswers, if_neg other, if_neg separate]
    exact ih.cons_cons a

theorem nameOf_of_mem_withoutAnswers (h : a ∈ withoutAnswers args) : nameOf a ≠ "--answers" := by
  induction args using withoutAnswers.induct with
  | case1 =>
    rw [withoutAnswers] at h
    cases h
  | case2 rest ih =>
    rw [withoutAnswers, if_pos rfl] at h
    exact ih h
  | case3 b rest other inline ih =>
    rw [withoutAnswers, if_neg other, if_pos inline] at h
    exact ih h
  | case4 b rest other separate ih =>
    rw [withoutAnswers, if_neg other, if_neg separate] at h
    rcases List.mem_cons.mp h with rfl | h
    · exact fun named => (nameOf_answers.mp named).elim other separate
    · exact ih h

/-- Where no argument names an answers file nothing is left out. -/
theorem withoutAnswers_eq_self (h : ∀ a ∈ args, nameOf a ≠ "--answers") : withoutAnswers args = args := by
  induction args with
  | nil => rw [withoutAnswers]
  | cons a rest ih =>
    obtain ⟨first, others⟩ := List.forall_mem_cons.mp h
    obtain ⟨other, separate⟩ := not_or.mp (mt nameOf_answers.mpr first)
    rw [withoutAnswers, if_neg other, if_neg separate, ih others]

/-- What a shell reads from the command of a prompt document. -/
theorem split_rerun {q : RunRequest} {words : List String} (command : q.command = commandLine words)
    (some : withoutAnswers words ≠ []) :
    Shell.split q.rerun =
      (Shell.split q.answersPath).map fun path => withoutAnswers words ++ "--answers" :: path := by
  have plain : Shell.IsPlain "--answers" := by decide
  have line : q.rerun =
      Text.join " " ((withoutAnswers words).map Shell.quote) ++ " " ++ "--answers" ++ " " ++ q.answersPath := by
    rw [RunRequest.rerun, command, commandLine]
    simp only [String.append_assoc]
    rfl
  rw [line, Shell.split_line some plain]

end Arguments

namespace Cli

/-! ## The options of a run -/

variable {args : List String} {o : RunOptions}

/-- The options that are read come from what the grammar takes from the arguments. -/
theorem Command.read_run : Command.read ("run" :: args) = .ok (.run o) ↔
    ∃ t, runGrammar.take {} args = .ok t ∧ RunOptions.ofTaken t = .ok o := by
  have read : Command.read ("run" :: args) =
      match runGrammar.take {} args with
      | .error e => .error e
      | .ok t => (RunOptions.ofTaken t).map Command.run := by
    rw [Command.read]
    rcases runGrammar.take {} args with e | t
    · rfl
    · change (RunOptions.ofTaken t >>= fun o => pure (Command.run o)) = (RunOptions.ofTaken t).map _
      rcases RunOptions.ofTaken t with e | o <;> rfl
  rw [read]
  rcases runGrammar.take {} args with e | t
  · simp
  · rcases taken : RunOptions.ofTaken t with e | o' <;> simp [Except.map, taken]

/-- What options come from. -/
theorem RunOptions.ofTaken_eq_ok {t : Taken} (h : RunOptions.ofTaken t = .ok o) :
    o.segments = t.words ∧ o.answers = (t.values.get? "--answers").map Path.ofString ∧
      o.directory = (t.values.get? "--cwd").map Path.ofString := by
  rw [RunOptions.ofTaken] at h
  rcases asked : askOf t with e | ask
  · rw [asked] at h
    cases h
  · rw [asked] at h
    obtain rfl := Except.ok.inj h
    exact ⟨rfl, rfl, rfl⟩

/-- The flags of a run that are written again. -/
def RunOptions.flags (o : RunOptions) : List String :=
  [(o.noDefaults, "--no-defaults"), (o.dry, "--dry"), (o.force, "--force"), (o.yes, "--yes")].filterMap
    fun e => if e.1 then some e.2 else none

theorem RunOptions.flags_subset (o : RunOptions) : o.flags ⊆ runGrammar.flags := by
  intro f mem
  obtain ⟨⟨given, name⟩, among, written⟩ := List.mem_filterMap.mp mem
  dsimp only at written
  split at written
  next =>
    obtain rfl := Option.some.inj written
    simp only [List.mem_cons, Prod.mk.injEq, List.not_mem_nil, or_false] at among
    rcases among with ⟨-, rfl⟩ | ⟨-, rfl⟩ | ⟨-, rfl⟩ | ⟨-, rfl⟩ <;> decide
  next => cases written

/-- What is taken from the options of a run that are written again, behind some words. -/
def RunOptions.handed (o : RunOptions) (words : List String) (path : String) : Taken where
  flags := o.flags
  values := (o.ask.map fun m => ("--ask", m.word)).toList ++
    (o.directory.map fun d => ("--cwd", d.toString)).toList ++ [("--answers", path)]
  words := words

theorem RunOptions.arguments_eq (o : RunOptions) (params : Record Value) :
    o.arguments params = params.map (fun e => Arguments.flagOf e.1 e.2) ++ o.arguments [] := by
  simp [RunOptions.arguments]

theorem RunOptions.arguments_nil (o : RunOptions) :
    o.arguments [] = o.flags ++ (o.ask.map fun m => "--ask" ++ "=" ++ m.word).toList ++
      (o.directory.map fun d => "--cwd" ++ "=" ++ d.toString).toList := by
  have ask : "--ask=" = "--ask" ++ "=" := by decide
  have cwd : "--cwd=" = "--cwd" ++ "=" := by decide
  rw [RunOptions.arguments, ask, cwd]
  rfl

theorem Grammar.take_flags {fs : List String} (known : fs ⊆ runGrammar.flags) (t : Taken)
    (rest : List String) :
    runGrammar.take t (fs ++ rest) = runGrammar.take { t with flags := t.flags ++ fs } rest := by
  induction fs generalizing t with
  | nil => simp
  | cons f fs ih =>
    obtain ⟨first, others⟩ := List.cons_subset.mp known
    have flag : f ∉ runGrammar.valued ∧ f ≠ "--" ∧ Text.startsWith "--" f = true ∧ '=' ∉ f.toList := by
      simp only [runGrammar, List.mem_cons, List.not_mem_nil, or_false] at first
      rcases first with rfl | rfl | rfl | rfl | rfl <;> decide
    rw [List.cons_append, Grammar.take_flag first flag.1 flag.2.1 flag.2.2.1 flag.2.2.2, ih others]
    simp [Taken.addFlag]

/-- Words with flags behind them. -/
theorem Grammar.take_words_flags (words : List String) {fs : List String}
    (keeps : ∀ w ∈ words, runGrammar.kept w = [w])
    (known : fs ⊆ runGrammar.flags) :
    runGrammar.take {} (words ++ fs) = .ok { flags := fs, words := words } := by
  have taken := Grammar.take_flags known { words := words } []
  rw [List.append_nil] at taken
  rw [Grammar.take_words rfl keeps, List.nil_append]
  exact taken.trans (by rw [Grammar.take]; rfl)

/-- The options are taken as they were written. -/
theorem RunOptions.take_arguments (o : RunOptions) (words : List String) (path : String) :
    runGrammar.take { words } (o.arguments [] ++ ["--answers", path]) = .ok (o.handed words path) := by
  have ask (t : Taken) (m : String) (rest : List String) :
      runGrammar.take t (("--ask" ++ "=" ++ m) :: rest) = runGrammar.take (t.addValue "--ask" m) rest :=
    Grammar.take_inline (by decide) (by decide) (by decide) t m rest
  have cwd (t : Taken) (d : String) (rest : List String) :
      runGrammar.take t (("--cwd" ++ "=" ++ d) :: rest) = runGrammar.take (t.addValue "--cwd" d) rest :=
    Grammar.take_inline (by decide) (by decide) (by decide) t d rest
  have answers (t : Taken) :
      runGrammar.take t ["--answers", path] = runGrammar.take (t.addValue "--answers" path) [] :=
    Grammar.take_separate (by decide) (by decide) (by decide) (by decide) t path []
  rw [RunOptions.arguments_nil, List.append_assoc, List.append_assoc,
    Grammar.take_flags o.flags_subset, RunOptions.handed]
  cases o.ask with
  | none =>
    cases o.directory with
    | none =>
      simp only [Option.map_none, Option.toList_none, List.nil_append]
      rw [answers, Grammar.take]
      rfl
    | some d =>
      simp only [Option.map_none, Option.map_some, Option.toList_none, Option.toList_some,
        List.nil_append, List.singleton_append]
      rw [cwd, answers, Grammar.take]
      rfl
  | some m =>
    cases o.directory with
    | none =>
      simp only [Option.map_none, Option.map_some, Option.toList_none, Option.toList_some,
        List.nil_append, List.singleton_append]
      rw [ask, answers, Grammar.take]
      rfl
    | some d =>
      simp only [Option.map_some, Option.toList_some, List.singleton_append]
      rw [ask, cwd, answers, Grammar.take]
      rfl

/-- Options that are written again are read as they were, but for `continueOnError`. -/
theorem RunOptions.ofTaken_handed (proper : ∀ d ∈ o.directory, d.Proper) (words : List String)
    (path : String) :
    RunOptions.ofTaken (o.handed words path) =
      .ok { o with segments := words, answers := some (Path.ofString path), continueOnError := false } := by
  have asked : askOf (o.handed words path) = .ok o.ask := by
    rw [askOf, RunOptions.handed]
    cases o.ask with
    | none => cases o.directory <;> rfl
    | some m => cases m <;> rfl
  have answers : (o.handed words path).values.get? "--answers" = some path := by
    rw [RunOptions.handed]
    cases o.ask <;> cases o.directory <;> rfl
  have directory : directoryOf (o.handed words path) = o.directory := by
    rw [directoryOf, RunOptions.handed]
    cases given : o.directory with
    | none => cases o.ask <;> rfl
    | some d =>
      have read := (proper d given).ofString_toString
      cases o.ask <;> exact congrArg some read
  have flags : (o.handed words path).has "--no-defaults" = o.noDefaults ∧
      (o.handed words path).has "--dry" = o.dry ∧ (o.handed words path).has "--force" = o.force ∧
      (o.handed words path).has "--yes" = o.yes ∧
      (o.handed words path).has "--continue-on-error" = false := by
    simp only [Taken.has, RunOptions.handed, RunOptions.flags]
    cases o.noDefaults <;> cases o.dry <;> cases o.force <;> cases o.yes <;> decide
  obtain ⟨noDefaults, dry, force, yes, continueOnError⟩ := flags
  rw [RunOptions.ofTaken, asked, answers, directory, noDefaults, dry, force, yes, continueOnError]
  rfl

end Cli

end Scaffold
