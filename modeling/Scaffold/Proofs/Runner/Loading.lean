import Scaffold.Proofs.Runner.Groups
import Scaffold.Proofs.Yaml.Faults

/-!
# What leaves a loader

Two loaders read files that people write: that of answers and that of recipes.  Each declares the errors
that it reports, and most files that are malformed end in one of them.  Some do not: octets that are no
text, a version of an answers file that is a list or a mapping, and a scalar of a recipe that has no value of
its kind.  What leaves a loader then is none of its errors.

A group that goes on behind failed recipes goes on behind one whose file is refused with a declared error, and
ends at any other.
-/

namespace Scaffold

open Run

/-! ## Answers -/

namespace AnswersFile

/-- The error that the loader of answers declares. -/
def Declared : Failure → Prop
  | .answersFile _ => True
  | _ => False

/-- A version that can be looked up among the known ones. -/
def IsComparable : Value → Prop
  | .list _ | .dict _ => False
  | _ => True

/-- The version that stands beside answers in an object. -/
def version? (es : Entries) : Option Value :=
  match Entries.field? es "answers" with
  | some (.dict _) => Entries.field? es "version"
  | _ => none

/-- The reading of data ends in an undeclared error only at a version that cannot be looked up. -/
theorem parse_declared_iff (data : Value) (source : String) :
    FailsOnly Declared (parse data source) ↔
      ∀ es v, data = .dict es → version? es = some v → IsComparable v := by
  match data with
  | .dict es =>
    have object (p : Value → Prop) :
        (∀ es' v, Value.dict es = .dict es' → version? es' = some v → p v) ↔ ∀ v, version? es = some v → p v :=
      ⟨fun h v => h es v rfl, fun h _ v same => by cases same; exact h v⟩
    rw [object]
    unfold parse version?
    dsimp only
    split
    next answers version has here =>
      simp only [has, here, Option.some.injEq, forall_eq']
      match version with
      | .list _ | .dict _ => exact ⟨fun h => (FailsOnly.error_iff.mp h : Declared (.badType _)), False.elim⟩
      | .null | .bool _ | .int _ | .float _ | .str _ | .moment _ =>
        refine ⟨fun _ => trivial, fun _ => ?_⟩
        dsimp only
        split
        · exact FailsOnly.error_iff.mpr trivial
        · exact FailsOnly.mapError_iff.mpr fun _ _ => trivial
    next other =>
      refine ⟨fun _ v here => ?_, fun _ => .ok _⟩
      -- there are no answers, or no version beside them
      split at here
      next answers has => exact absurd here (other answers v has)
      next => cases here
  | .null | .bool _ | .int _ | .float _ | .str _ | .moment _ | .list _ =>
    exact ⟨fun _ _ _ same => (nomatch same), fun _ => FailsOnly.error_iff.mpr trivial⟩

/-- A content that is a text, whose version beside answers can be looked up if there is one. -/
structure Loadable (c : Content) : Prop where
  decodes : ∃ text, c.decode = .ok text
  version : ∀ text es v, c.decode = .ok text → Json.read (Text.withLineFeeds text) = .ok (.dict es) →
    version? es = some v → IsComparable v

/-- Only declared errors leave the loader exactly where the file, if there is one, is loadable. -/
theorem load_declared_iff (t : Tree) (path here : Path) :
    FailsOnly Declared (load t path here) ↔ ∀ c, t.read (here.join path) = .ok c → Loadable c := by
  simp only [load, FailsOnly.bind_iff, FailsOnly.mapError_iff, mapError_eq_ok]
  have octets (c : Content) : FailsOnly (fun e => Declared (.badOctets e)) c.decode ↔ _ :=
    FailsOnly.exists_iff fun _ => id
  constructor
  · rintro ⟨-, h⟩ c there
    obtain ⟨decodes, h⟩ := h c there
    refine ⟨(octets c).mp decodes, fun text es v decoded read => ?_⟩
    obtain ⟨-, h⟩ := h text decoded
    exact (parse_declared_iff _ _).mp (h _ read).1 es v rfl
  · intro h
    refine ⟨fun _ _ => trivial, fun c there => ?_⟩
    obtain ⟨decodes, version⟩ := h c there
    refine ⟨(octets c).mpr decodes, fun text decoded => ⟨fun _ _ => trivial, fun data read => ?_⟩⟩
    refine ⟨(parse_declared_iff _ _).mpr fun es v same => ?_, fun _ _ => .ok _⟩
    subst same
    exact version text es v decoded read

end AnswersFile

/-! ## Recipes -/

namespace Recipe

/-- The errors that the loader of recipes declares. -/
def Declared : Failure → Prop
  | .recipeUnreadable .. | .recipeInvalid .. => True
  | _ => False

/-- The file that a recipe is loaded from, if there is one. -/
def source? (t : Tree) (path : Path) : Option Path :=
  if t.isDirectory path then fileIn? t path else some path

/-- A content that is a text, which as a document is refused only for its form. -/
structure Loadable (c : Content) : Prop where
  decodes : ∃ text, c.decode = .ok text
  refused : ∀ text, c.decode = .ok text → FailsOnly Yaml.Fault.IsOfForm (Yaml.read (Text.withLineFeeds text))

/-- The reading of a recipe ends in an undeclared error only where the document has a scalar without a value. -/
theorem parse_declared_iff (text : String) (source : Option Path) :
    FailsOnly Declared (parse text source) ↔ FailsOnly Yaml.Fault.IsOfForm (Yaml.read text) := by
  have form (label : String) (f : Yaml.Fault) :
      Declared (.ofYaml (fun what => .recipeUnreadable label ("invalid YAML: " ++ what)) f) ↔ f.IsOfForm := by
    cases f <;> exact Iff.rfl
  simp only [parse, FailsOnly.bind_iff, FailsOnly.mapError_iff, mapError_eq_ok, form]
  refine and_iff_left fun data _ => ?_
  match data with
  | .dict es => exact FailsOnly.mapError_iff.mpr fun _ _ => trivial
  | .null | .bool _ | .int _ | .float _ | .str _ | .moment _ | .list _ =>
    exact FailsOnly.error_iff.mpr trivial

/-- Only declared errors leave the loader exactly where the file, if there is one, is loadable. -/
theorem load_declared_iff (t : Tree) (path : Path) :
    FailsOnly Declared (load t path) ↔
      ∀ file c, source? t path = some file → t.read file = .ok c → Loadable c := by
  have octets (c : Content) : FailsOnly (fun e => Declared (.badOctets e)) c.decode ↔ _ :=
    FailsOnly.exists_iff fun _ => id
  have reading (file : Path) :
      FailsOnly Declared (textOf t file >>= fun text => parse text (some file.resolved)) ↔
        ∀ file' c, some file = some file' → t.read file' = .ok c → Loadable c := by
    simp only [textOf, bind_assoc, pure_bind, FailsOnly.bind_iff, FailsOnly.mapError_iff, mapError_eq_ok,
      parse_declared_iff, octets]
    constructor
    · rintro ⟨-, h⟩ _ c ⟨⟩ there
      exact ⟨(h c there).1, (h c there).2⟩
    · refine fun h => ⟨fun _ _ => trivial, fun c there => ?_⟩
      exact ⟨(h file c rfl there).decodes, (h file c rfl there).refused⟩
  unfold load source?
  cases t.isDirectory path with
  | false => exact reading path
  | true =>
    cases fileIn? t path with
    | none => exact ⟨fun _ _ _ same => (nomatch same), fun _ => FailsOnly.error_iff.mpr trivial⟩
    | some file => exact reading file

/-- The errors that the loader declares are those of the domain among its own. -/
theorem load_isDomain_iff (t : Tree) (path : Path) :
    FailsOnly (fun e => Declared e ↔ e.isDomain = true) (load t path) := by
  have known (p r : String) : Declared (.recipeUnreadable p r) ↔ (Failure.recipeUnreadable p r).isDomain = true :=
    iff_of_true trivial rfl
  have parsed (text : String) (source : Option Path) :
      FailsOnly (fun e => Declared e ↔ e.isDomain = true) (parse text source) := by
    refine FailsOnly.bind (FailsOnly.mapError_iff.mpr fun f _ => ?_) fun data _ => ?_
    · cases f with
      | malformed what => exact known _ _
      | _ => exact iff_of_false id Bool.false_ne_true
    · match data with
      | .dict es => exact FailsOnly.mapError_iff.mpr fun _ _ => iff_of_true trivial rfl
      | .null | .bool _ | .int _ | .float _ | .str _ | .moment _ | .list _ =>
        exact FailsOnly.error_iff.mpr (known _ _)
  have reading (file : Path) : FailsOnly (fun e => Declared e ↔ e.isDomain = true) (textOf t file) := by
    refine FailsOnly.bind (FailsOnly.mapError_iff.mpr fun _ _ => known _ _) fun c _ => ?_
    exact FailsOnly.bind (FailsOnly.mapError_iff.mpr fun _ _ => iff_of_false id Bool.false_ne_true) fun _ _ => .ok _
  unfold load
  cases t.isDirectory path with
  | false => exact (reading path).bind fun _ _ => parsed _ _
  | true =>
    cases fileIn? t path with
    | none => exact FailsOnly.error_iff.mpr (known _ _)
    | some file => exact (reading file).bind fun _ _ => parsed _ _

end Recipe

/-! ## Groups -/

namespace Group

variable {run : Path → Run RunOutcome} {goOn : Bool} {directory : Path}

/-- The session behind the runs of some recipes. -/
def behind (run : Path → Run RunOutcome) (files : List Path) (s : Session) : Session :=
  files.foldl (fun s file => ((run file).on s).2) s

/-- Some recipes run without an end of the group: none stops it or raises what is no failure of the domain. -/
def Passes (run : Path → Run RunOutcome) (goOn : Bool) (files : List Path) (s : Session) : Prop :=
  ∀ m ∈ members run files s, m.stops goOn = false ∧ ∀ e, m.outcome = .error e → e.isDomain = true

/-- What comes of a group that has entries in front of those that are still to come. -/
def ahead (entries : List GroupEntry) :
    Except Failure (List GroupEntry × Option String) × Session →
      Except Failure (List GroupEntry × Option String) × Session
  | (.ok (later, waiting), t) => (.ok (entries ++ later, waiting), t)
  | (.error e, t) => (.error e, t)

theorem ahead_nil (r : Except Failure (List GroupEntry × Option String) × Session) : ahead [] r = r := by
  rcases r with ⟨_ | _, _⟩ <;> rfl

theorem ahead_ahead (es es' : List GroupEntry) (r : Except Failure (List GroupEntry × Option String) × Session) :
    ahead es (ahead es' r) = ahead (es ++ es') r := by
  rcases r with ⟨_ | ⟨later, waiting⟩, t⟩
  · rfl
  · simp [ahead]

/-- Behind a recipe that does not stop it a group goes on with the others. -/
theorem runEach_goes_on {file : Path} {rest : List Path} {s s' : Session} {outcome : Except Failure RunOutcome}
    (ran : (run file).on s = (outcome, s')) (domain : ∀ e, outcome = .error e → e.isDomain = true)
    (going : (⟨file, outcome⟩ : Member).stops goOn = false) :
    (runEach run goOn directory (file :: rest)).on s =
      ahead [(⟨file, outcome⟩ : Member).entry directory] ((runEach run goOn directory rest).on s') := by
  rw [runEach_cons ran domain, if_neg (by rw [going]; decide)]
  rcases (runEach run goOn directory rest).on s' with ⟨_ | _, _⟩ <;> rfl

/-- Behind recipes that the group passes it goes on with the others. -/
theorem runEach_append {before rest : List Path} {s : Session} (h : Passes run goOn before s) :
    (runEach run goOn directory (before ++ rest)).on s =
      ahead ((members run before s).map (·.entry directory))
        ((runEach run goOn directory rest).on (behind run before s)) := by
  induction before generalizing s with
  | nil => exact (ahead_nil _).symm
  | cons file before ih =>
    rcases ran : (run file).on s with ⟨outcome, s'⟩
    have known : members run (file :: before) s = ⟨file, outcome⟩ :: members run before s' := by
      rw [members, ran]
    have later : behind run (file :: before) s = behind run before s' := by
      rw [behind, List.foldl_cons, ran, behind]
    rw [Passes, known, List.forall_mem_cons] at h
    rw [List.cons_append, runEach_goes_on ran h.1.2 h.1.1, ih h.2, ahead_ahead, known, later]
    rfl

/-- A failure that is none of the domain ends a group. -/
theorem runEach_raises {file : Path} {rest : List Path} {s s' : Session} {e : Failure}
    (ran : (run file).on s = (.error e, s')) (foreign : e.isDomain = false) :
    (runEach run goOn directory (file :: rest)).on s = (.error e, s') := by
  have attempted : (run file).attempt.on s = (.ok (.error e), s') := by rw [on_attempt, ran]
  rw [runEach]
  dsimp only
  rw [on_bind_ok attempted]
  simp only [foreign, Bool.not_false, if_true]
  rfl

end Group

namespace Runner

variable {u : Runner} {q : RunRequest} {s : Session}

theorem runRecipe_on_unloaded {file : Path} {words : List String} {e : Failure}
    (failed : Recipe.load s.tree file = .error e) : (u.runRecipe file q words).on s = (.error e, s) := by
  unfold runRecipe
  rw [on_bind_ok (on_get s), failed]
  rfl

/-- What a group that is told to go on comes to at a recipe that cannot be loaded: behind a declared error it
goes on with the others, and any other error ends it. -/
structure ComesTo (u : Runner) (q : RunRequest) (directory : Path) (before : List Path) (file : Path)
    (rest : List Path) (s : Session) (e : Failure) : Prop where
  goesOn : Recipe.Declared e → ∀ later waiting t,
    (runEach (u.runRecipe · q []) true directory rest).on (Group.behind (u.runRecipe · q []) before s) =
      (.ok (later, waiting), t) →
    (u.runGroup directory q).on s = (.ok
      { path := directory, pending := waiting
        entries := (Group.members (u.runRecipe · q []) before s).map (·.entry directory) ++
          (⟨file, .error e⟩ : Group.Member).entry directory :: later }, t)
  ends : ¬ Recipe.Declared e →
    (u.runGroup directory q).on s = (.error e, Group.behind (u.runRecipe · q []) before s)

theorem comesTo_of_unloaded {directory file : Path} {before rest : List Path} {e : Failure}
    (goes : q.continueOnError = true) (found : Recipe.discover s.tree directory = .ok (before ++ file :: rest))
    (passes : Group.Passes (u.runRecipe · q []) true before s)
    (failed : Recipe.load (Group.behind (u.runRecipe · q []) before s).tree file = .error e) :
    u.ComesTo q directory before file rest s e := by
  let run := (u.runRecipe · q [])
  let s' := Group.behind run before s
  have discovered : (ofFile (Recipe.discover s.tree directory)).on s = (.ok (before ++ file :: rest), s) := by
    rw [found]
    rfl
  have ran : (run file).on s' = (.error e, s') := runRecipe_on_unloaded failed
  have domain : Recipe.Declared e ↔ e.isDomain = true := Recipe.load_isDomain_iff _ _ e failed
  have group : (u.runGroup directory q).on s =
      match (runEach run true directory (before ++ file :: rest)).on s with
      | (.ok (entries, waiting), t) => (.ok { path := directory, entries, pending := waiting }, t)
      | (.error e, t) => (.error e, t) := by
    unfold runGroup
    rw [on_bind_ok (on_get s), on_bind_ok discovered, goes, on_bind]
    rcases (runEach run true directory (before ++ file :: rest)).on s with ⟨_ | _, _⟩ <;> rfl
  rw [Group.runEach_append passes] at group
  constructor
  · rw [group]
    intro declared later waiting t others
    have going : (⟨file, .error e⟩ : Group.Member).stops true = false := rfl
    have known : ∀ e', (Except.error e : Except Failure RunOutcome) = .error e' → e'.isDomain = true := by
      rintro _ ⟨⟩
      exact domain.mp declared
    rw [Group.runEach_goes_on ran known going, others]
    rfl
  · rw [group]
    intro foreign
    rw [Group.runEach_raises ran (Bool.eq_false_iff.mpr fun known => foreign (domain.mpr known))]
    rfl

end Runner

/-! ## Both loaders -/

/-- Only declared errors leave the loaders exactly where what they read is loadable: an answers file has to be
a text whose version can be looked up, and a recipe file a text that as a document is refused only for its
form.  Whatever else a document is refused for is blamed on an escape or on a scalar in it.  A group that is
told to go on goes on behind the declared errors, and no others. -/
theorem loaders_declared_iff (t : Tree) (path here : Path) :
    (FailsOnly AnswersFile.Declared (AnswersFile.load t path here) ↔
      ∀ c, t.read (here.join path) = .ok c → AnswersFile.Loadable c) ∧
    (FailsOnly Recipe.Declared (Recipe.load t path) ↔
      ∀ file c, Recipe.source? t path = some file → t.read file = .ok c → Recipe.Loadable c) ∧
    (∀ (text : String) (f : Yaml.Fault), Yaml.read text = .error f → ¬ f.IsOfForm → Yaml.Blamed text f) ∧
    ∀ (u : Runner) (q : RunRequest) (directory file : Path) (before rest : List Path) (s : Session) (e : Failure),
      q.continueOnError = true → Recipe.discover s.tree directory = .ok (before ++ file :: rest) →
      Group.Passes (u.runRecipe · q []) true before s →
      Recipe.load (Group.behind (u.runRecipe · q []) before s).tree file = .error e →
      u.ComesTo q directory before file rest s e :=
  ⟨AnswersFile.load_declared_iff t path here, Recipe.load_declared_iff t path, fun _ _ => Yaml.blamed_of_read,
    fun _ _ _ _ _ _ _ _ goes found passes failed => Runner.comesTo_of_unloaded goes found passes failed⟩

/-! ## Groups of one recipe -/

/-- The directories in a directory that holds one and nothing else. -/
theorem directoriesIn_only {t : Tree} {p : Path} {place : Place} {name : String}
    (located : t.locate p = .ok place) (there : t.at? place = some .directory)
    (children : t.children place = [(name, .directory)]) : t.directoriesIn p = .ok [name] := by
  unfold Tree.directoriesIn
  rw [located]
  dsimp only [bind, Except.bind]
  rw [there]
  dsimp only
  rw [children]
  exact congrArg Except.ok (List.mergeSort_singleton name)

/-- A group of one recipe. -/
theorem discover_only {t : Tree} {directory file : Path} {name : String}
    (names : t.directoriesIn directory = .ok [name]) (shown : Text.startsWith "." name = false)
    (found : Recipe.fileIn? t ⟨directory.root, directory.parts ++ [name]⟩ = some file) :
    Recipe.discover t directory = .ok [file] := by
  have below : Recipe.belowTo t directory (t.depth + 1) = [file] := by
    simp [Recipe.belowTo, names, shown, found, Except.toOption]
  rw [Recipe.discover, names, below]
  rfl

/-! ## Malformed files -/

namespace Malformed

/-- An answers file whose version is a list. -/
def answers : Path := .ofString "/answers.json"

/-- A recipe that is a list. -/
def listed : Path := .ofString "/first/listed/recipe.yml"

/-- A recipe with a day that no month has. -/
def dated : Path := .ofString "/second/dated/recipe.yml"

def tree : Tree :=
  [(answers, "\x7b\"version\": [1], \"answers\": \x7b\x7d\x7d"), (listed, "- add\n"),
    (dated, "released: 2024-02-30\n")].foldl (fun t e => (t.replace e.1 e.2).2) .bare

theorem answers_failure : AnswersFile.load tree answers = .error (.badType "unhashable type: 'list'") :=
  failure?_eq_some.mp (by decide +kernel)

theorem listed_failure : Recipe.load tree listed =
    .error (.recipeUnreadable "/first/listed/recipe.yml" "expected a mapping at the top level") :=
  failure?_eq_some.mp (by decide +kernel)

theorem dated_failure : Recipe.load tree dated = .error (.badValue "day is out of range for month") :=
  failure?_eq_some.mp (by decide +kernel)

theorem answers_undeclared : ¬ FailsOnly AnswersFile.Declared (AnswersFile.load tree answers) :=
  fun only => only _ answers_failure

/-- The file with a version that cannot be looked up ends the loader of answers in none of its errors, and so
does the one with a day that no month has the loader of recipes. -/
theorem undeclared : ¬ FailsOnly AnswersFile.Declared (AnswersFile.load tree answers) ∧
    ¬ FailsOnly Recipe.Declared (Recipe.load tree dated) :=
  ⟨answers_undeclared, fun only => only _ dated_failure⟩

/-- A runner that is never asked for anything. -/
def runner : Runner where
  engine := { project := .ofString "/", tools := [] }
  transport := .error (.misconfigured "" "")

def request : RunRequest := { continueOnError := true }

theorem listed_discovered : Recipe.discover tree (.ofString "/first") = .ok [listed] := by
  have located : tree.locate (.ofString "/first") = .ok ["first"] := rfl
  have names : tree.directoriesIn (.ofString "/first") = .ok ["listed"] :=
    directoriesIn_only located rfl rfl
  exact discover_only names (by decide) rfl

theorem dated_discovered : Recipe.discover tree (.ofString "/second") = .ok [dated] := by
  have located : tree.locate (.ofString "/second") = .ok ["second"] := rfl
  have names : tree.directoriesIn (.ofString "/second") = .ok ["dated"] :=
    directoriesIn_only located rfl rfl
  exact discover_only names (by decide) rfl

/-- The loaders end as they declare for what is loadable and for the recipe that is a list, which a group reports.
The day that no month has is blamed on its scalar, and a group ends at the recipe with it. -/
theorem judged_and_grouped :
    ¬ (∀ c, tree.read ((Path.ofString "/").join answers) = .ok c → AnswersFile.Loadable c) ∧
    (∀ file c, Recipe.source? tree listed = some file → tree.read file = .ok c → Recipe.Loadable c) ∧
    Yaml.Blamed "released: 2024-02-30\n" (.badValue "day is out of range for month") ∧
    ((runner.runGroup (.ofString "/first") request).on { tree }).1.toOption.map (·.entries.map (·.error)) =
      some [some "Failed to load recipe /first/listed/recipe.yml: expected a mapping at the top level"] ∧
    ((runner.runGroup (.ofString "/second") request).on { tree }).1.toOption.map (·.path) = none := by
  obtain ⟨answersIff, -, blames, groups⟩ := loaders_declared_iff tree answers (.ofString "/")
  have recipesIff := (loaders_declared_iff tree listed (.ofString "/")).2.1
  have alone (directory file : Path) (s : Session) (e : Failure)
      (found : Recipe.discover s.tree directory = .ok [file]) (failed : Recipe.load s.tree file = .error e) :
      runner.ComesTo request directory [] file [] s e :=
    groups runner request directory file [] [] s e rfl found (List.forall_mem_nil _) failed
  have unread := mt answersIff.mpr answers_undeclared
  have declared : FailsOnly Recipe.Declared (Recipe.load tree listed) := by
    rw [listed_failure]
    exact FailsOnly.error_iff.mpr trivial
  have read := recipesIff.mp declared
  have blamed := blames "released: 2024-02-30\n" (.badValue "day is out of range for month")
    (failure?_eq_some.mp (by decide +kernel)) id
  refine ⟨unread, read, blamed, ?_, ?_⟩
  · rw [(alone _ _ { tree } _ listed_discovered listed_failure).goesOn trivial [] none { tree } rfl]
    rfl
  · rw [(alone _ _ { tree } _ dated_discovered dated_failure).ends id]
    rfl

end Malformed

end Scaffold
