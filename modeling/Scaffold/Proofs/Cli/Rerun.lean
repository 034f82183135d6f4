import Mathlib.Data.List.Flatten
import Scaffold.Proofs.Cli.CommandLine
import Scaffold.Proofs.Resolver.Accounts

/-!
# Running again

The command of a prompt document is to run again what was run, with the answers.  It is written by hand
from the words, the parameters and the options, and read by the shell and by the grammar of the options.
So it runs the same exactly where nothing in it is read as something else: the path of the answers is
not quoted, words and parameters may look like options, and `--continue-on-error` is never written.
-/

namespace Scaffold

namespace Cli

open Arguments Grammar

variable {w : Workplace} {s : Session} {o again : RunOptions} {p : Prepared} {target : Resolved}
  {words args : List String} {root : Path}

/-! ## What words name at a workplace -/

/-- The resolver of a workplace with its kits. -/
def Workplace.resolver (w : Workplace) (root : Path) (kits : Record Kit) : Resolver :=
  { kits, here := root, searchDirectories := w.settings.search.searchDirectories.map Path.ofString }

theorem Workplace.resolve_eq_ok : ((w.resolve root words).on s).1 = .ok target ↔
    ∃ kits, Kit.discover s.tree (w.settings.search.kitDirectories.map root.child) = .ok kits ∧
      (w.resolver root kits).resolve s.tree words = .ok (some target) := by
  rw [Workplace.resolve, Run.on_bind, Workplace.kits, Run.on_bind, Run.on_get]
  dsimp only
  rw [Run.on_ofExcept]
  rcases Kit.discover s.tree (w.settings.search.kitDirectories.map root.child) with e | kits
  · simp
  · dsimp only
    rw [Run.on_bind, Run.on_get]
    dsimp only
    rw [Run.on_bind, Run.on_ofExcept, ← Workplace.resolver]
    simp only [Except.ok.injEq, exists_eq_left']
    rcases (w.resolver root kits).resolve s.tree words with e | _ | found
    · simp
    · simp
    · simp

/-! ## The same run -/

/-- The options run again what `o` runs, with the answers in a file. -/
structure Reproduces (w : Workplace) (s : Session) (o : RunOptions) (target : Resolved) (path : String)
    (again : RunOptions) : Prop where
  target : ((w.resolve (w.root again.directory) (parse again.segments).positional).on s).1 = .ok target
  params : (parse again.segments).params = (parse o.segments).params
  noDefaults : again.noDefaults = o.noDefaults
  ask : again.ask = o.ask
  dry : again.dry = o.dry
  force : again.force = o.force
  yes : again.yes = o.yes
  continueOnError : again.continueOnError = o.continueOnError
  directory : again.directory = o.directory
  answers : again.answers = some (Path.ofString path)

/-- A word that a grammar with the letter `y` and the parameters leave alone. -/
structure Stays (word : String) : Prop where
  notLong : ¬("--").toList <+: word.toList
  noLetter : ("-").toList <+: word.toList → 'y' ∉ word.toList

/-- The words, the parameters and the options of a run survive being written and read. -/
structure Survives (o : RunOptions) (target : Resolved) (path : String) : Prop where
  continueOnError : o.continueOnError = false
  path : Shell.IsPlain path
  words : ∀ word ∈ target.consumed ++ target.remaining, Stays word
  params : ∀ name ∈ (parse o.segments).params.keys, ¬runGrammar.Declares ("--" ++ name)

theorem mem_others {c : Char} {word : String} :
    c ∈ runGrammar.others word ↔ c ∈ word.toList.drop 1 ∧ c ≠ 'y' := by
  have letter : (runGrammar.letters.lookup c).isNone = (c != 'y') := by
    by_cases yes : c = 'y'
    · subst yes
      rfl
    · have other : (c == 'y') = false := by simpa using yes
      simp [runGrammar, List.lookup, other, yes]
  rw [others, List.mem_filter, letter]
  simp

theorem startsWith_hyphen {word : String} :
    Text.startsWith "-" word = true ↔ ∃ rest, word.toList = '-' :: rest := by
  have hyphen : ("-").toList = ['-'] := by decide
  rw [Text.startsWith_iff, hyphen]
  exact ⟨fun ⟨rest, chars⟩ => ⟨rest, chars.symm⟩, fun ⟨rest, chars⟩ => ⟨rest, chars.symm⟩⟩

/-- Without the letter `y` all letters of a word are left. -/
theorem others_eq_of_not_mem {word : String} {rest : List Char} (chars : word.toList = '-' :: rest)
    (noLetter : 'y' ∉ rest) : runGrammar.others word = rest := by
  have left : ∀ c ∈ rest, c ∈ runGrammar.others word := fun c mem =>
    mem_others.mpr ⟨by simpa [chars] using mem, fun yes => noLetter (yes ▸ mem)⟩
  rw [others, chars]
  exact List.filter_eq_self.mpr fun c mem => (List.mem_filter.mp (left c mem)).2

theorem Stays.short {word : String} (h : Stays word) : Text.startsWith "--" word = false := by
  rw [← Bool.not_eq_true, Text.startsWith_iff]
  exact h.notLong

theorem Stays.unnamed {word : String} (h : Stays word) : isNamed word = false := by
  rw [isNamed, isDashed, h.short, Bool.false_and]

theorem Stays.kept {word : String} (h : Stays word) : runGrammar.kept word = [word] := by
  rw [Grammar.kept, h.short, if_neg Bool.false_ne_true]
  split
  next letters =>
    rw [Bool.and_eq_true, decide_eq_true_eq, ← String.length_toList] at letters
    obtain ⟨short, some⟩ := letters
    obtain ⟨rest, chars⟩ := startsWith_hyphen.mp short
    have noLetter := h.noLetter (Text.startsWith_iff.mp short)
    rw [chars] at some noLetter
    have more : rest.isEmpty = false := by
      cases rest with
      | nil => exact absurd some (by decide)
      | cons c rest => rfl
    have whole : "-" ++ String.ofList rest = word := by
      rw [← String.toList_inj, chars]
      simp
    rw [others_eq_of_not_mem chars (fun yes => noLetter (List.mem_cons_of_mem _ yes)), more,
      if_neg Bool.false_ne_true, whole]
  next => rfl

/-- A word that is not a parameter and that the grammar keeps does not begin like an option. -/
theorem notLong_of_kept {word : String} (unnamed : isNamed word = false)
    (keeps : runGrammar.kept word = [word]) : Text.startsWith "--" word = false := by
  rw [← Bool.not_eq_true]
  intro long
  obtain ⟨rest, chars⟩ := Text.startsWith_iff.mp long
  have written : word = "--" ++ String.ofList rest := by
    rw [← String.toList_inj, ← chars]
    simp
  by_cases empty : String.ofList rest = ""
  · rw [written, empty] at keeps
    exact absurd keeps (by decide)
  · rw [written, isNamed_hyphens empty] at unnamed
    cases unnamed

theorem stays_iff {word : String} :
    Stays word ↔ isNamed word = false ∧ runGrammar.kept word = [word] := by
  refine ⟨fun h => ⟨h.unnamed, h.kept⟩, ?_⟩
  rintro ⟨unnamed, keeps⟩
  have notLong := notLong_of_kept unnamed keeps
  refine ⟨by rwa [← Text.startsWith_iff, Bool.not_eq_true], fun short yes => ?_⟩
  obtain ⟨rest, chars⟩ := startsWith_hyphen.mp (Text.startsWith_iff.mpr short)
  have behind : 'y' ∈ rest := by simpa [chars] using yes
  have letters : (Text.startsWith "-" word && decide (1 < word.length)) = true := by
    have some := List.length_pos_of_mem behind
    rw [Bool.and_eq_true, decide_eq_true_eq, ← String.length_toList, chars, List.length_cons]
    exact ⟨Text.startsWith_iff.mpr short, by omega⟩
  rw [Grammar.kept, notLong, if_neg Bool.false_ne_true, if_pos letters] at keeps
  split at keeps
  next => cases keeps
  next =>
    -- what is kept has no `y` behind the hyphen
    have left : 'y' ∈ runGrammar.others word := by
      rw [← List.head_eq_of_cons_eq keeps, String.toList_append] at yes
      simpa using yes
    exact (mem_others.mp left).2 rfl

/-! ## What is written stays -/

variable {a : String} {e : String × Value} {params : Record Value} {path : String}

theorem kept_of_declares (long : Text.startsWith "--" a = true) (declared : runGrammar.Declares (nameOf a)) :
    runGrammar.kept a = [] := by
  rw [kept, if_pos long, if_pos (.inr declared)]

theorem kept_flagOf (h : IsGiven e) : runGrammar.kept (flagOf e.1 e.2) =
    if runGrammar.Declares ("--" ++ e.1) then [] else [flagOf e.1 e.2] := by
  obtain ⟨named, isName⟩ := h.flagOf
  rw [isNamed, isDashed, Bool.and_eq_true, decide_eq_true_eq] at named
  have some : flagOf e.1 e.2 ≠ "--" := fun none => by
    rw [none] at named
    exact absurd named.2 (by decide)
  rw [kept, if_pos named.1, isName]
  simp only [some, false_or]

/-- The options themselves leave no words. -/
theorem kept_arguments (o : RunOptions) (mem : a ∈ o.arguments []) :
    runGrammar.kept a = [] ∧ nameOf a ≠ "--answers" := by
  have inline {name value : String} (valued : name ∈ ["--ask", "--cwd"]) :
      runGrammar.kept (name ++ "=" ++ value) = [] ∧ nameOf (name ++ "=" ++ value) ≠ "--answers" := by
    have facts : '=' ∉ name.toList ∧ ("--").toList <+: name.toList ∧ runGrammar.Declares name ∧
        name ≠ "--answers" := by
      simp only [List.mem_cons, List.not_mem_nil, or_false] at valued
      rcases valued with rfl | rfl <;> decide
    obtain ⟨free, long, declared, other⟩ := facts
    have isName : nameOf (name ++ "=" ++ value) = name := (nameOf_eq_iff free).mpr (.inr ⟨value, rfl⟩)
    refine ⟨kept_of_declares ?_ (isName.symm ▸ declared), isName.symm ▸ other⟩
    rw [Text.startsWith_iff, String.toList_append, String.toList_append, List.append_assoc]
    exact long.trans (List.prefix_append _ _)
  rw [RunOptions.arguments_nil, List.append_assoc, List.mem_append, List.mem_append] at mem
  rcases mem with mem | mem | mem
  · have flag := o.flags_subset mem
    simp only [runGrammar, List.mem_cons, List.not_mem_nil, or_false] at flag
    rcases flag with rfl | rfl | rfl | rfl | rfl <;> decide
  · rw [Option.mem_toList, Option.map_eq_some_iff] at mem
    obtain ⟨m, -, rfl⟩ := mem
    exact inline (by simp)
  · rw [Option.mem_toList, Option.map_eq_some_iff] at mem
    obtain ⟨d, -, rfl⟩ := mem
    exact inline (by simp)

theorem nameOf_ne_answers (keeps : runGrammar.kept a ≠ []) : nameOf a ≠ "--answers" := fun named => by
  refine keeps (kept_of_declares ?_ ?_)
  · rcases nameOf_answers.mp named with rfl | inline
    · decide
    · rw [Text.startsWith_iff] at inline ⊢
      exact List.IsPrefix.trans (by decide) inline
  · rw [named]
    decide

/-- The options of the run that a written command makes, if everything in it stays. -/
def RunOptions.repeated (o : RunOptions) (words : List String) (params : Record Value) (path : String) :
    RunOptions :=
  { o with segments := words ++ params.map fun e => flagOf e.1 e.2
           answers := some (Path.ofString path), continueOnError := false }

theorem parse_repeated (stays : ∀ word ∈ words, Stays word) (given : ∀ e ∈ params, IsGiven e)
    (nodup : params.keys.Nodup) (o : RunOptions) (path : String) :
    parse (o.repeated words params path).segments = ⟨words, params⟩ := by
  exact parse_words_flags (fun word mem => (stays_iff.mp (stays word mem)).1) given nodup

/-- Everything that stays is written and read as it was. -/
theorem read_repeated (proper : ∀ d ∈ o.directory, d.Proper) (stays : ∀ word ∈ words, Stays word)
    (given : ∀ e ∈ params, IsGiven e) (undeclared : ∀ name ∈ params.keys, ¬runGrammar.Declares ("--" ++ name))
    (path : String) :
    withoutAnswers (words ++ o.arguments params) = words ++ o.arguments params ∧
      Command.read ("run" :: (words ++ o.arguments params ++ ["--answers", path])) =
        .ok (.run (o.repeated words params path)) := by
  have kept : ∀ a ∈ words ++ params.map fun e => flagOf e.1 e.2, runGrammar.kept a = [a] := by
    intro a mem
    rcases List.mem_append.mp mem with mem | mem
    · exact (stays_iff.mp (stays a mem)).2
    · obtain ⟨e, among, rfl⟩ := List.mem_map.mp mem
      rw [kept_flagOf (given e among), if_neg (undeclared e.1 (List.mem_map_of_mem among))]
  constructor
  · refine withoutAnswers_eq_self fun a mem => ?_
    rw [RunOptions.arguments_eq, ← List.append_assoc, List.mem_append] at mem
    rcases mem with mem | mem
    · exact nameOf_ne_answers (by rw [kept a mem]; exact List.cons_ne_nil _ _)
    · exact (kept_arguments o mem).2
  · refine Command.read_run.mpr ⟨o.handed (words ++ params.map fun e => flagOf e.1 e.2) path, ?_, ?_⟩
    · rw [RunOptions.arguments_eq, ← List.append_assoc, List.append_assoc,
        take_words rfl kept]
      exact o.take_arguments _ path
    · exact o.ofTaken_handed proper _ path

/-! ## What is read tells what was written -/

variable {front rest : List String}

/-- What stands next to an option that is not among the arguments in front stands behind them. -/
theorem mem_of_infix {x value : String} (absent : x ∉ front) (h : [x, value] <:+: front ++ x :: rest) :
    value ∈ rest := by
  induction front with
  | nil =>
    rcases List.infix_cons_iff.mp h with h | h
    · exact (List.cons_prefix_cons.mp h).2.subset List.mem_cons_self
    · exact h.subset (by simp)
  | cons b front ih =>
    obtain ⟨other, absent⟩ := not_or.mp (mt List.mem_cons.mpr absent)
    rcases List.infix_cons_iff.mp h with h | h
    · exact absurd (List.cons_prefix_cons.mp h).1 other
    · exact ih absent h

theorem mem_answers : "--answers" ∈ runGrammar.valued := by decide

/-- The path of the answers is read back only if it is one plain word. -/
theorem isPlain_of_read (absent : ∀ a ∈ front, nameOf a ≠ "--answers")
    (split : Shell.split path = .ok rest)
    (read : Command.read ("run" :: (front ++ "--answers" :: rest)) = .ok (.run again))
    (answers : again.answers = some (Path.ofString path)) : Shell.IsPlain path := by
  obtain ⟨t, taken, options⟩ := Command.read_run.mp read
  obtain ⟨-, fromValue, -⟩ := RunOptions.ofTaken_eq_ok options
  rw [answers] at fromValue
  obtain ⟨value, given, same⟩ := Option.map_eq_some_iff.mp fromValue.symm
  -- the value is in a word of the path
  have within : ∃ word ∈ rest, value.toList.Sublist word.toList := by
    have named (a : String) (mem : a ∈ front) (other : a = "--answers" ∨ ∃ v, a = "--answers" ++ "=" ++ v) :
        False := absent a mem ((nameOf_eq_iff (by decide)).mpr other)
    rcases (takes_of_take rfl taken).value_mem given with none | mem | next
    · cases none
    · rcases List.mem_append.mp mem with mem | mem
      · exact (named _ mem (.inr ⟨value, rfl⟩)).elim
      · rcases List.mem_cons.mp mem with same | mem
        · have sign : '=' ∈ ("--answers").toList := by
            rw [← same]
            simp
          exact absurd sign (by decide)
        · refine ⟨_, mem, ?_⟩
          rw [String.toList_append]
          exact List.sublist_append_right _ _
    · exact ⟨value, mem_of_infix (fun mem => named _ mem (.inl rfl)) next, List.Sublist.refl _⟩
  obtain ⟨word, mem, part⟩ := within
  by_contra notPlain
  let counts (c : Char) : Bool := c != '/' && c != '.'
  have counted (c : Char) (special : Shell.isMeta c = true) : counts c = true := by
    rw [Bool.and_eq_true, bne_iff_ne, bne_iff_ne]
    constructor <;> rintro rfl <;> exact absurd special (by decide)
  have fewer := Shell.split_countP_lt counted split mem notPlain
  have all := Path.countP_eq_of_ofString_eq counts (by decide) (by decide) same
  have less := part.countP_le (p := counts)
  omega

/-- No more words are left than the arguments leave one by one. -/
theorem segments_sublist (absent : ∀ a ∈ front, nameOf a ≠ "--answers")
    (read : Command.read ("run" :: (front ++ ["--answers", path])) = .ok (.run again))
    (answers : again.answers ≠ none) : again.segments.Sublist (front.flatMap runGrammar.kept) := by
  obtain ⟨t, taken, options⟩ := Command.read_run.mp read
  obtain ⟨segments, fromValue, -⟩ := RunOptions.ofTaken_eq_ok options
  have given : t.values.get? "--answers" ≠ none := fun none => by
    rw [fromValue, none] at answers
    exact answers rfl
  rw [segments]
  exact (takes_of_take rfl taken).words_sublist rfl mem_answers (by decide) (by decide) absent rfl given

/-- Of the words, the parameters and the options of a run only words and parameters are left. -/
theorem kept_written (o : RunOptions) (words : List String) (params : Record Value) :
    ((withoutAnswers (words ++ o.arguments params)).flatMap runGrammar.kept).Sublist
      (words.flatMap runGrammar.kept ++
        (params.map fun e => flagOf e.1 e.2).flatMap runGrammar.kept) := by
  have none : (o.arguments []).flatMap runGrammar.kept = [] :=
    List.flatMap_eq_nil_iff.mpr fun a mem => (kept_arguments o mem).1
  refine ((withoutAnswers_sublist _).flatMap _).trans ?_
  rw [RunOptions.arguments_eq, List.flatMap_append, List.flatMap_append, none, List.append_nil]

theorem isNamed_of_mem_kept (given : ∀ e ∈ params, IsGiven e)
    (mem : a ∈ (params.map fun e => flagOf e.1 e.2).flatMap runGrammar.kept) : isNamed a = true := by
  obtain ⟨b, among, left⟩ := List.mem_flatMap.mp mem
  obtain ⟨e, there, rfl⟩ := List.mem_map.mp among
  rw [kept_flagOf (given e there)] at left
  split at left
  · cases left
  · rw [List.mem_singleton.mp left]
    exact (given e there).flagOf.1

variable {segments : List String}

/-- The words that are read are among those that are left of words. -/
theorem positional_sublist (given : ∀ e ∈ params, IsGiven e)
    (left : segments.Sublist (words.flatMap runGrammar.kept ++
      (params.map fun e => flagOf e.1 e.2).flatMap runGrammar.kept)) :
    (parse segments).positional.Sublist
      ((words.flatMap runGrammar.kept).filter fun a => !isNamed a) := by
  have positional := (parseFrom_parses {} segments).positional
  rw [← parse, List.nil_append] at positional
  have unnamed := positional.trans (left.filter fun a => !isNamed a)
  have none : ((params.map fun e => flagOf e.1 e.2).flatMap runGrammar.kept).filter
      (fun a => !isNamed a) = [] :=
    List.filter_eq_nil_iff.mpr fun a mem => by simp [isNamed_of_mem_kept given mem]
  rwa [List.filter_append, none, List.append_nil] at unnamed

/-- Words that are read back from what is left of them stay words. -/
theorem stays_of_positional (given : ∀ e ∈ params, IsGiven e)
    (left : segments.Sublist (words.flatMap runGrammar.kept ++
      (params.map fun e => flagOf e.1 e.2).flatMap runGrammar.kept))
    (read : (parse segments).positional = words) : ∀ word ∈ words, Stays word := by
  have among := positional_sublist given left
  rw [read] at among
  have all : words = words.flatMap runGrammar.kept :=
    (among.trans List.filter_sublist).eq_of_length_le (length_flatMap_kept_le _ _)
  intro word mem
  refine stays_iff.mpr ⟨?_, kept_eq_of_flatMap_eq all.symm word mem⟩
  simpa using (List.mem_filter.mp (among.subset mem)).2

/-- Parameters that are read back from what is left of them have no names of options. -/
theorem undeclared_of_params (given : ∀ e ∈ params, IsGiven e) (stays : ∀ word ∈ words, Stays word)
    (left : segments.Sublist (words.flatMap runGrammar.kept ++
      (params.map fun e => flagOf e.1 e.2).flatMap runGrammar.kept))
    (read : (parse segments).params = params) :
    ∀ name ∈ params.keys, ¬runGrammar.Declares ("--" ++ name) := by
  have length : params.length ≤ ((params.map fun e => flagOf e.1 e.2).flatMap runGrammar.kept).length := by
    have count := (parseFrom_parses {} segments).length_params
    rw [← parse, read, List.length_nil, Nat.zero_add] at count
    have named := (left.filter isNamed).length_le
    have none : (words.flatMap runGrammar.kept).filter isNamed = [] := by
      refine List.filter_eq_nil_iff.mpr fun a mem => ?_
      obtain ⟨word, among, kept⟩ := List.mem_flatMap.mp mem
      obtain ⟨unnamed, same⟩ := stays_iff.mp (stays word among)
      rw [same, List.mem_singleton] at kept
      simp [kept, unnamed]
    have fewer := List.length_filter_le isNamed ((params.map fun e => flagOf e.1 e.2).flatMap runGrammar.kept)
    rw [List.filter_append, none, List.nil_append] at named
    omega
  have some : ∀ a ∈ params.map fun e => flagOf e.1 e.2, runGrammar.kept a ≠ [] :=
    kept_ne_nil_of_length (by rwa [List.length_map])
  intro name mem declared
  obtain ⟨e, among, rfl⟩ := List.mem_map.mp mem
  refine some _ (List.mem_map_of_mem among) ?_
  rw [kept_flagOf (given e among), if_pos declared]

/-- What is read names the same as what was written only if it is the same words: the parts of a word
with slashes do not come together again. -/
theorem positional_of_resolve {r : Resolver} {t : Tree} (given : ∀ e ∈ params, IsGiven e)
    (left : segments.Sublist ((target.consumed ++ target.remaining).flatMap runGrammar.kept ++
      (params.map fun e => flagOf e.1 e.2).flatMap runGrammar.kept))
    (found : r.resolve t (parse segments).positional = .ok (some target)) :
    (parse segments).positional = target.consumed ++ target.remaining := by
  obtain ⟨words, once, whole⟩ := Resolver.resolve_eq_some found
  have all := (Resolver.resolveOnce_accounted once).all
  rcases whole with same | apart
  · rw [all, same]
  · obtain ⟨word, single, -, -, slash, none⟩ := Resolver.parts?_eq_some apart
    have mem : word ∈ (parse segments).positional := by
      rw [single]
      exact List.mem_cons_self
    have kept := (List.mem_filter.mp ((positional_sublist given left).subset mem)).1
    rw [all] at kept
    obtain ⟨part, among, left⟩ := List.mem_flatMap.mp kept
    exact absurd (subset_of_mem_kept left slash) (none part among)

/-! ## The command runs the same -/

theorem RunOptions.proper_of_read (read : Command.read ("run" :: args) = .ok (.run o)) :
    ∀ d ∈ o.directory, d.Proper := by
  obtain ⟨t, -, options⟩ := Command.read_run.mp read
  obtain ⟨-, -, directory⟩ := RunOptions.ofTaken_eq_ok options
  intro d mem
  rw [directory, Option.mem_def, Option.map_eq_some_iff] at mem
  obtain ⟨text, -, rfl⟩ := mem
  exact Path.ofString_proper text

/-- The arguments of the command, behind the name of the program. -/
theorem withoutAnswers_request (w : Workplace) (o : RunOptions) (params : Record Value) (p : Prepared) :
    ∃ words, (w.request o params p).command = commandLine words ∧
      withoutAnswers words = "kitgen" :: "run" ::
        withoutAnswers (p.target.consumed ++ p.target.remaining ++ o.arguments params) := by
  refine ⟨"kitgen" :: "run" :: (p.target.consumed ++ p.target.remaining ++ o.arguments params), rfl, ?_⟩
  rw [withoutAnswers, if_neg (by decide), if_neg (by decide), withoutAnswers, if_neg (by decide),
    if_neg (by decide)]

/-- What a shell reads from the command. -/
theorem split_request (w : Workplace) (o : RunOptions) (params : Record Value) (p : Prepared) :
    Shell.split (w.request o params p).rerun =
      (Shell.split (w.request o params p).answersPath).map fun path => "kitgen" :: "run" ::
        (withoutAnswers (p.target.consumed ++ p.target.remaining ++ o.arguments params) ++
          "--answers" :: path) := by
  obtain ⟨words, command, arguments⟩ := withoutAnswers_request w o params p
  rw [split_rerun command (by rw [arguments]; exact List.cons_ne_nil _ _), arguments]
  rfl

/-- The command is not empty, so the document has it. -/
theorem request_command_ne (w : Workplace) (o : RunOptions) (params : Record Value) (p : Prepared) :
    (w.request o params p).command ≠ "" := by
  obtain ⟨words, command, arguments⟩ := withoutAnswers_request w o params p
  rw [command, commandLine, arguments, List.map_cons, List.map_cons, Text.join,
    String.intercalate_cons_cons]
  intro none
  have chars := congrArg String.toList none
  simp at chars

/-- What a prompt document gives as its command runs the same again. -/
def RunsAgain (w : Workplace) (s : Session) (o : RunOptions) (p : Prepared) (q : RunRequest) : Prop :=
  ∃ args again, Shell.split q.rerun = .ok ("kitgen" :: args) ∧
    Command.read args = .ok (.run again) ∧ Reproduces w s o p.target q.answersPath again

section

variable (read : Command.read ("run" :: args) = .ok (.run o))

include read

theorem runsAgain_of_survives
    (found : ((w.resolve (w.root o.directory) (parse o.segments).positional).on s).1 = .ok p.target)
    (h : Survives o p.target (w.request o (parse o.segments).params p).answersPath) :
    RunsAgain w s o p (w.request o (parse o.segments).params p) := by
  obtain ⟨given, nodup⟩ := parse_params o.segments
  obtain ⟨whole, rest⟩ := read_repeated (RunOptions.proper_of_read read) h.words given h.params
    (w.request o (parse o.segments).params p).answersPath
  have parsed := parse_repeated h.words given nodup o
    (w.request o (parse o.segments).params p).answersPath
  refine ⟨_, _, ?_, rest, ?_⟩
  · rw [split_request, h.path.split, whole]
    rfl
  · obtain ⟨kits, discovered, resolved⟩ := Workplace.resolve_eq_ok.mp found
    obtain ⟨words, once, -⟩ := Resolver.resolve_eq_some resolved
    constructor
    case target =>
      refine Workplace.resolve_eq_ok.mpr ⟨kits, discovered, ?_⟩
      rw [parsed]
      dsimp only
      rw [(Resolver.resolveOnce_accounted once).all]
      exact Resolver.resolve_of_resolveOnce once
    case params => rw [parsed]
    case continueOnError => exact h.continueOnError.symm
    all_goals rfl

theorem survives_of_runsAgain (h : RunsAgain w s o p (w.request o (parse o.segments).params p)) :
    Survives o p.target (w.request o (parse o.segments).params p).answersPath := by
  obtain ⟨args', again, split, read', same⟩ := h
  obtain ⟨given, nodup⟩ := parse_params o.segments
  rw [split_request] at split
  rcases pathWords : Shell.split (w.request o (parse o.segments).params p).answersPath with e | rest
  · rw [pathWords] at split
    cases split
  rw [pathWords] at split
  obtain rfl := (List.cons.inj (Except.ok.inj split)).2
  have absent : ∀ a ∈ withoutAnswers (p.target.consumed ++ p.target.remaining ++
      o.arguments (parse o.segments).params), nameOf a ≠ "--answers" :=
    fun a mem => nameOf_of_mem_withoutAnswers mem
  have plain := isPlain_of_read absent pathWords read' same.answers
  obtain rfl : rest = [_] := Except.ok.inj (pathWords.symm.trans plain.split)
  have left := (segments_sublist absent read' (by rw [same.answers]; simp)).trans (kept_written o _ _)
  obtain ⟨kits, -, resolved⟩ := Workplace.resolve_eq_ok.mp same.target
  have positional := positional_of_resolve given left resolved
  have stays := stays_of_positional given left positional
  have undeclared := undeclared_of_params given stays left same.params
  refine ⟨?_, plain, stays, undeclared⟩
  -- now what was read is known, and it has no `--continue-on-error`
  obtain ⟨whole, rest⟩ := read_repeated (RunOptions.proper_of_read read) stays given undeclared
    (w.request o (parse o.segments).params p).answersPath
  rw [whole, rest] at read'
  have known := Command.run.inj (Except.ok.inj read')
  rw [← same.continueOnError, ← known]
  rfl

/-- A prompt document ends with a command.  It runs the same again exactly where `--continue-on-error`
was not given, the path of the answers is one plain word, and neither a word nor a parameter is read as
an option. -/
theorem runsAgain_iff
    (found : ((w.resolve (w.root o.directory) (parse o.segments).positional).on s).1 = .ok p.target) :
    (∀ c : Collector, ∃ front,
      Prompt.document c (w.request o (parse o.segments).params p).command
          (w.request o (parse o.segments).params p).answersPath =
        Prompt.block (front ++ Prompt.instructions ++
          [(w.request o (parse o.segments).params p).rerun, Prompt.fence ++ "\n"])) ∧
      (RunsAgain w s o p (w.request o (parse o.segments).params p) ↔
        Survives o p.target (w.request o (parse o.segments).params p).answersPath) :=
  ⟨fun c => Prompt.document_rerun c (request_command_ne w o _ p),
    survives_of_runsAgain read, runsAgain_of_survives read found⟩

end

end Cli

/-! ## A group that is to go on -/

namespace Continued

open Cli

/-- A group with one recipe, which asks a model. -/
def tree : Tree where
  entries := [
    (["cookbooks"], .directory), (["cookbooks", "docs"], .directory),
    (["cookbooks", "docs", "intro"], .directory),
    (["cookbooks", "docs", "intro", "recipe.yml"],
      .file (.text "name: intro\nsteps:\n  - tool: ai\n    key: note\n    prompt: p\n"))]

def session : Session := { tree }

def workplace : Workplace :=
  { directory := .ofString "/", settings := { search := { kitDirectories := [] } }
    settingsFile := .ofString "/config.json", shell := fun _ _ => .error .noProgram
    web := fun _ => .error "no network" }

/-- The group. -/
def docs : Prepared := ⟨⟨true, .ofString "/cookbooks/docs", ["docs"], [], none, none, none⟩, none, none⟩

def options : RunOptions := { segments := ["docs"], continueOnError := true }

theorem read : Command.read ["run", "docs", "--continue-on-error"] = .ok (.run options) := by
  refine Command.read_run.mpr ⟨{ flags := ["--continue-on-error"], words := ["docs"] }, ?_, rfl⟩
  exact Grammar.take_words_flags ["docs"] (by decide) (by decide)

theorem found (o : RunOptions) (directory : o.directory = none)
    (words : (Arguments.parse o.segments).positional = ["docs"]) :
    ((workplace.resolve (workplace.root o.directory) (Arguments.parse o.segments).positional).on
      session).1 = .ok docs.target := by
  rw [directory, words]
  exact Workplace.resolve_eq_ok.mpr ⟨[], rfl, ok_of_toOption (by decide +kernel)⟩

/-- The request that a run of the group makes. -/
def request (o : RunOptions) : RunRequest := workplace.request o (Arguments.parse o.segments).params docs

/-- The option is not in the command, so the group would stop at the first failure. -/
theorem stops : Command.read ["run", "docs", "--continue-on-error"] = .ok (.run options) ∧
    ((workplace.resolve (workplace.root options.directory)
      (Arguments.parse options.segments).positional).on session).1 = .ok docs.target ∧
    (request options).rerun = "kitgen run docs --answers ./ai-answers.json" ∧
    ¬RunsAgain workplace session options docs (request options) := by
  refine ⟨read, found options rfl (by decide +kernel), by decide +kernel, fun again => ?_⟩
  have left := (survives_of_runsAgain read again).continueOnError
  cases left

/-- Options of a run that can be written again. -/
def dryOptions : RunOptions := { segments := ["docs", "--title=A b"], dry := true }

theorem read_dry : Command.read ["run", "docs", "--title=A b", "--dry"] = .ok (.run dryOptions) := by
  refine Command.read_run.mpr ⟨{ flags := ["--dry"], words := ["docs", "--title=A b"] }, ?_, rfl⟩
  exact Grammar.take_words_flags ["docs", "--title=A b"] (by decide) (by decide)

/-- With a parameter and `--dry` it runs the same. -/
theorem runs_again : Command.read ["run", "docs", "--title=A b", "--dry"] = .ok (.run dryOptions) ∧
    ((workplace.resolve (workplace.root dryOptions.directory)
      (Arguments.parse dryOptions.segments).positional).on session).1 = .ok docs.target ∧
    (request dryOptions).rerun = "kitgen run docs '--title=A b' --dry --answers ./ai-answers.json" ∧
    RunsAgain workplace session dryOptions docs (request dryOptions) := by
  have target := found dryOptions rfl (by decide +kernel)
  refine ⟨read_dry, target, by decide +kernel, ((runsAgain_iff read_dry target).2.mpr ?_)⟩
  refine ⟨rfl, by decide, ?_, by decide +kernel⟩
  intro word mem
  obtain rfl := List.mem_singleton.mp mem
  exact ⟨by decide, by decide⟩

end Continued

end Scaffold
