import Scaffold.Proofs.Engine.Turns
import Scaffold.Proofs.Tool.Files

/-!
# What an execution reports about files

Over an execution of steps that add files, splice into them or ask a model, a place that holds a
directory goes on holding one, and a place that holds a file goes on holding a file.  So a file comes
into being at most once, in the turn of the step that reports it as created; and a place holds another
content after a turn exactly if its step reports the file as modified.

The report of the execution puts the reports of its steps together.  It tells files by the names that
they are shown under.  Different places have different names, but a place may have two names: a path
from the root `//`, which is none of the project's, and the path below the project.  Where no two paths
of an execution lead to the same place under different names, the report is exact; below the root `/`
this is so if no path is written from `//`.
-/

namespace Scaffold

open Run Session

/-! ## One turn -/

namespace Filed

variable {path : Option Path} {project : Path} {t t' : Tree} {o : Except Failure StepResult}
  {x : Place} {name : String}

theorem keeps (h : Filed path project t o t') : t.KeepsDirectories t' := by
  cases h with
  | nothing => exact fun _ h => h
  | created _ _ absent written => exact written.keeps (by rw [absent]; nofun)
  | modified _ _ held _ written => exact written.keeps held.not_directory

theorem closed (h : Filed path project t o t') (closed : t.Closed) : t'.Closed := by
  cases h with
  | nothing => exact closed
  | created _ _ _ written => exact written.closed
  | modified _ _ _ _ written => exact written.closed

/-- A file stays a file. -/
theorem keepsFile (h : Filed path project t o t') {c : Content} (there : t.at? x = some (.file c)) :
    ∃ c', t'.at? x = some (.file c') := by
  have stays {place : Place} {text : String} (written : t.Written place text t') :
      ∃ c', t'.at? x = some (.file c') := by
    by_cases here : x = place
    · exact ⟨_, here ▸ written.here⟩
    · rcases written.others x here with same | ⟨absent, -⟩
      · exact ⟨c, same.trans there⟩
      · rw [there] at absent
        cases absent
  cases h with
  | nothing => exact ⟨c, there⟩
  | created _ _ _ written => exact stays written
  | modified _ _ _ _ written => exact stays written

/-- Where another file is than before, there the path of the step leads. -/
theorem leads_of_file (h : Filed path project t o t') {c : Content}
    (there : t'.at? x = some (.file c)) (changed : t.at? x ≠ some (.file c)) :
    ∃ p, path = some p ∧ t.Leads p x := by
  have place_eq {place : Place} {text : String} (written : t.Written place text t') : place = x :=
    Classical.byContradiction fun elsewhere =>
      changed (written.at?_of_file (Ne.symm elsewhere) there)
  cases h with
  | nothing => exact absurd there changed
  | created target leads _ written => exact ⟨_, target, place_eq written ▸ leads⟩
  | modified target leads _ _ written => exact ⟨_, target, place_eq written ▸ leads⟩

/-- A step reports nothing but the file that it works on. -/
theorem exists_path (h : Filed path project t o t') {r : StepResult} (result : o = .ok r)
    (listed : name ∈ r.files.created ∨ name ∈ r.files.modified) :
    ∃ p, path = some p ∧ name = Path.shownFrom project p := by
  subst result
  cases h with
  | nothing silent =>
    rw [silent r rfl] at listed
    rcases listed with listed | listed <;> cases listed
  | @created p _ _ _ _ target _ _ _ _ files =>
    rw [files] at listed
    rcases listed with listed | listed
    · exact ⟨p, target, List.mem_singleton.mp listed⟩
    · cases listed
  | @modified p _ _ _ _ _ target _ _ _ _ _ files =>
    rw [files] at listed
    rcases listed with listed | listed
    · cases listed
    · exact ⟨p, target, List.mem_singleton.mp listed⟩

section Named

-- the name stands for the place, as far as the path of the step is concerned
variable (named : ∀ p y, path = some p → t.Leads p y → (Path.shownFrom project p = name ↔ y = x))

include named

/-- A step reports a file as created exactly if there was nothing at its place and then is a file. -/
theorem created_iff (h : Filed path project t o t') :
    (∃ r, o = .ok r ∧ name ∈ r.files.created) ↔
      t.at? x = none ∧ ∃ c, t'.at? x = some (.file c) := by
  constructor
  · rintro ⟨r, rfl, listed⟩
    cases h with
    | nothing silent =>
      rw [silent r rfl] at listed
      cases listed
    | created target leads absent written _ files =>
      rw [files] at listed
      obtain rfl := (named _ _ target leads).mp (List.mem_singleton.mp listed).symm
      exact ⟨absent, _, written.here⟩
    | modified _ _ _ _ _ _ files =>
      rw [files] at listed
      cases listed
  · rintro ⟨absent, c, there⟩
    cases h with
    | nothing =>
      rw [absent] at there
      cases there
    | @created p place _ r _ target leads _ written _ files =>
      by_cases here : place = x
      · have listed := (named p place target leads).mpr here
        exact ⟨r, rfl, by rw [files, listed]; exact List.mem_singleton_self name⟩
      · have before := written.at?_of_file (Ne.symm here) there
        rw [absent] at before
        cases before
    | @modified p place _ _ r _ target leads held _ written _ files =>
      by_cases here : place = x
      · obtain ⟨c', there', -⟩ := held
        rw [here, absent] at there'
        cases there'
      · have before := written.at?_of_file (Ne.symm here) there
        rw [absent] at before
        cases before

/-- A step reports a file as modified exactly if its place holds another content than before. -/
theorem modified_iff (h : Filed path project t o t') :
    (∃ r, o = .ok r ∧ name ∈ r.files.modified) ↔
      ∃ c c', t.at? x = some (.file c) ∧ t'.at? x = some (.file c') ∧ c ≠ c' := by
  constructor
  · rintro ⟨r, rfl, listed⟩
    cases h with
    | nothing silent =>
      rw [silent r rfl] at listed
      cases listed
    | created _ _ _ _ _ files =>
      rw [files] at listed
      cases listed
    | @modified p place old text r _ target leads held other written _ files =>
      rw [files] at listed
      obtain rfl := (named _ _ target leads).mp (List.mem_singleton.mp listed).symm
      obtain ⟨c, there, decoded⟩ := held
      refine ⟨c, .text text, there, written.here, ?_⟩
      rintro rfl
      exact other (Except.ok.inj decoded).symm
  · rintro ⟨c, c', before, after, differs⟩
    have same_if (unchanged : t'.at? x = some (.file c') → t.at? x = some (.file c')) : False := by
      have there := unchanged after
      rw [before] at there
      cases there
      exact differs rfl
    cases h with
    | nothing => exact absurd id same_if
    | @created p place _ r _ target leads absent written _ files =>
      by_cases here : place = x
      · rw [here, before] at absent
        cases absent
      · exact absurd (written.at?_of_file (Ne.symm here)) same_if
    | @modified p place _ _ r _ target leads held _ written _ files =>
      by_cases here : place = x
      · have listed := (named p place target leads).mpr here
        exact ⟨r, rfl, by rw [files, listed]; exact List.mem_singleton_self name⟩
      · exact absurd (written.at?_of_file (Ne.symm here)) same_if

end Named

end Filed

/-! ## The report of a recipe -/

namespace RecipeResult

/-- Names that are gathered one after the other are all there, each once. -/
theorem gathered (names seen : List String) (distinct : seen.Nodup) :
    let all := names.foldl (fun seen p => if seen.contains p then seen else seen ++ [p]) seen
    all.Nodup ∧ ∀ n, n ∈ all ↔ n ∈ seen ∨ n ∈ names := by
  induction names generalizing seen with
  | nil => simpa using distinct
  | cons m names ih =>
    rw [List.foldl_cons]
    split
    next known =>
      obtain ⟨nodup, mem⟩ := ih seen distinct
      refine ⟨nodup, fun n => ?_⟩
      have there : n = m → n ∈ seen := fun same => same ▸ List.contains_iff_mem.mp known
      rw [mem, List.mem_cons, ← or_assoc, or_iff_left_of_imp there]
    next new =>
      have fresh : m ∉ seen := fun there => new (List.contains_iff_mem.mpr there)
      have longer : (seen ++ [m]).Nodup := by
        rw [List.nodup_append]
        refine ⟨distinct, List.nodup_singleton m, fun n hn n' hn' same => ?_⟩
        rw [List.mem_singleton.mp hn'] at same
        exact fresh (same ▸ hn)
      obtain ⟨nodup, mem⟩ := ih (seen ++ [m]) longer
      refine ⟨nodup, fun n => ?_⟩
      rw [mem, List.mem_append, List.mem_singleton, List.mem_cons, or_assoc]

theorem gather_nodup (r : RecipeResult) (files : Touched → List String) :
    (r.gather files).Nodup :=
  (gathered _ [] List.nodup_nil).1

theorem mem_gather (r : RecipeResult) (files : Touched → List String) {n : String} :
    n ∈ r.gather files ↔ ∃ o ∈ r.steps, n ∈ files o.files := by
  rw [gather, (gathered _ [] List.nodup_nil).2, List.mem_flatMap]
  simp only [List.not_mem_nil, false_or]

theorem mem_filesModified (r : RecipeResult) {n : String} :
    n ∈ r.filesModified ↔ n ∈ r.gather (·.modified) ∧ n ∉ r.filesCreated := by
  simp [filesModified]

end RecipeResult

/-- The results of turns are those of their steps. -/
theorem mem_outcomes {us : List Turn} {steps : List StepResult}
    (h : us.mapM (·.outcome) = Except.ok steps) (o : StepResult) :
    o ∈ steps ↔ ∃ u ∈ us, u.outcome = .ok o := by
  induction us generalizing steps with
  | nil =>
    cases h
    simp
  | cons u us ih =>
    rw [List.mapM_cons] at h
    rcases first : u.outcome with f | o₁
    · rw [first] at h
      cases h
    rcases rest : us.mapM (·.outcome) with f | os
    · rw [first, rest] at h
      cases h
    rw [first, rest] at h
    cases h
    rw [List.mem_cons, ih rest]
    simp only [List.mem_cons, exists_eq_or_imp, first, Except.ok.injEq]
    exact or_congr_left eq_comm

namespace Turn

/-- The path that the step of a turn works on, as its variables write it. -/
def written? (u : Turn) : Option String := u.visible.toOption.bind u.step.written?

/-- The path that the step of a turn works on, seen from a project. -/
def path? (u : Turn) (project : Path) : Option Path := u.written?.map project.child

/-- What a turn did to the files. -/
def Filed (u : Turn) (project : Path) : Prop :=
  Scaffold.Filed (u.path? project) project u.before.tree u.outcome u.after.tree

/-- A path leads to another content after a turn than before it. -/
def Rewrites (u : Turn) (p : Path) : Prop :=
  ∃ c c', u.before.tree.read p = .ok c ∧ u.after.tree.read p = .ok c' ∧ c ≠ c'

end Turn

namespace Engine

variable {e : Engine} {r : Recipe} {b : Bindings} {options : Options} {answers : Record String}
variable {sh : Shell} {actions : Actions}

theorem runStep_files (standard : e.tools.AreStandard sh actions)
    (quiet : ∀ w, e.prompter = some w → w.Quiet) {step : Step}
    (kind : step.kind = .add ∨ step.kind = .inject ∨ step.kind = .ai) {st : Session}
    (earlier : Record StepResult) (closed : st.tree.Closed)
    (leads : ∀ p, step.path? e.project st.scope.visible = some p → ∃ place, st.tree.Leads p place) :
    Files (step.path? e.project st.scope.visible) e.project st
      (e.runStep step (e.context r options answers earlier)) := by
  unfold runStep
  refine files_look ?_
  split
  · exact files_pure rfl
  dsimp only
  split
  · exact files_pure rfl
  split
  · exact files_pure rfl
  next tool found =>
    rw [standard.get? found]
    exact runTool_files (c := { e.context r options answers earlier with simulate := _ }) kind quiet
      closed leads

/-- A turn of a step that adds a file, splices or asks a model. -/
theorem turn_filed (standard : e.tools.AreStandard sh actions)
    (quiet : ∀ w, e.prompter = some w → w.Quiet) {step : Step}
    (kind : step.kind = .add ∨ step.kind = .inject ∨ step.kind = .ai) {st : Session}
    (earlier : Record StepResult) (closed : st.tree.Closed)
    (leads : ∀ p, (e.turn r b options answers earlier step st).path? e.project = some p →
      ∃ place, st.tree.Leads p place) :
    (e.turn r b options answers earlier step st).Filed e.project := by
  rcases seen : step.values b st.scope.produced answers with f | visible
  · change Scaffold.Filed _ _ _ ((e.step r b options answers earlier step).on st).1
      ((e.step r b options answers earlier step).on st).2.tree
    rw [step_on_error seen]
    exact .nothing nofun
  · have path : (e.turn r b options answers earlier step st).path? e.project =
        step.path? e.project visible := by
      simp [Turn.path?, Turn.written?, Step.path?, turn, seen, Except.toOption]
    rw [path] at leads
    unfold Turn.Filed
    rw [path]
    change Scaffold.Filed _ _ _ ((e.step r b options answers earlier step).on st).1
      ((e.step r b options answers earlier step).on st).2.tree
    rw [step_on_ok seen]
    have begun : (st.begun step visible).tree.Closed := closed
    exact runStep_files standard quiet kind earlier begun leads

/-! ## All turns -/

/-- Where each turn of a chain works on files as a step does, all of them do. -/
theorem chained_filed {project : Path} {st : Session} {us : List Turn} (chained : Chained st us)
    (closed : st.tree.Closed)
    (leads : ∀ u ∈ us, ∀ p, u.path? project = some p → ∃ place, st.tree.Leads p place)
    (filed : ∀ u ∈ us, u.before.tree.Closed →
      (∀ p, u.path? project = some p → ∃ place, u.before.tree.Leads p place) → u.Filed project) :
    ∀ u ∈ us, u.Filed project ∧ u.before.tree.Closed ∧ st.tree.KeepsDirectories u.before.tree := by
  induction us generalizing st with
  | nil =>
    intro u hu
    cases hu
  | cons u us ih =>
    obtain ⟨rfl, rest⟩ := chained
    have first : u.Filed project :=
      filed u List.mem_cons_self closed (leads u List.mem_cons_self)
    have keeps : u.before.tree.KeepsDirectories u.after.tree := first.keeps
    have leads' : ∀ v ∈ us, ∀ p, v.path? project = some p → ∃ place, u.after.tree.Leads p place := by
      intro v hv p hp
      obtain ⟨place, h⟩ := leads v (List.mem_cons_of_mem u hv) p hp
      exact ⟨place, h.mono keeps⟩
    have behind := ih rest (first.closed closed) leads' fun v hv =>
      filed v (List.mem_cons_of_mem u hv)
    intro v hv
    rcases List.mem_cons.mp hv with rfl | hv
    · exact ⟨first, closed, fun _ h => h⟩
    · obtain ⟨here, closed', keeps'⟩ := behind v hv
      exact ⟨here, closed', keeps.trans keeps'⟩

/-- Directories stay directories and files stay files, from any turn on. -/
theorem leaves_keeps {project : Path} {st : Session} {us : List Turn} (chained : Chained st us)
    (filed : ∀ u ∈ us, u.Filed project) :
    st.tree.KeepsDirectories (leaves st us).tree ∧
      (st.tree.Closed → (leaves st us).tree.Closed) ∧
      ∀ x c, st.tree.at? x = some (.file c) ∨ (∃ u ∈ us, u.before.tree.at? x = some (.file c)) →
        ∃ c', (leaves st us).tree.at? x = some (.file c') := by
  induction us generalizing st with
  | nil =>
    refine ⟨fun _ h => h, id, fun x c there => ?_⟩
    rcases there with there | ⟨u, hu, -⟩
    · exact ⟨c, there⟩
    · cases hu
  | cons u us ih =>
    obtain ⟨rfl, rest⟩ := chained
    have first : u.Filed project := filed u List.mem_cons_self
    obtain ⟨directories, closed, files⟩ := ih rest fun v hv => filed v (List.mem_cons_of_mem u hv)
    refine ⟨first.keeps.trans directories, fun h => closed (first.closed h), fun x c there => ?_⟩
    have begun (there : u.before.tree.at? x = some (.file c)) :
        ∃ c', (leaves u.after us).tree.at? x = some (.file c') := by
      obtain ⟨c', there'⟩ := first.keepsFile there
      exact files x c' (.inl there')
    rcases there with there | ⟨v, hv, there⟩
    · exact begun there
    · rcases List.mem_cons.mp hv with rfl | hv
      · exact begun there
      · exact files x c (.inr ⟨v, hv, there⟩)

/-- Over turns a file comes into being where there was nothing exactly if one of them reports it. -/
theorem created_iff {project : Path} {st : Session} {us : List Turn} (chained : Chained st us)
    (filed : ∀ u ∈ us, u.Filed project) {x : Place} {name : String}
    (named : ∀ u ∈ us, ∀ p y, u.path? project = some p → u.before.tree.Leads p y →
      (Path.shownFrom project p = name ↔ y = x)) :
    (∃ u ∈ us, ∃ o, u.outcome = .ok o ∧ name ∈ o.files.created) ↔
      st.tree.at? x = none ∧ ∃ c, (leaves st us).tree.at? x = some (.file c) := by
  induction us generalizing st with
  | nil =>
    constructor
    · rintro ⟨u, hu, -⟩
      cases hu
    · rintro ⟨absent, c, there⟩
      rw [leaves, absent] at there
      cases there
  | cons u us ih =>
    obtain ⟨rfl, rest⟩ := chained
    have first := filed u List.mem_cons_self
    have here := first.created_iff (named u List.mem_cons_self)
    have behind := ih rest (fun v hv => filed v (List.mem_cons_of_mem u hv))
      (fun v hv => named v (List.mem_cons_of_mem u hv))
    obtain ⟨directories, -, files⟩ :=
      leaves_keeps rest fun v hv => filed v (List.mem_cons_of_mem u hv)
    simp only [List.mem_cons, exists_eq_or_imp, here, behind, leaves]
    constructor
    · rintro (⟨absent, c, there⟩ | ⟨absent, there⟩)
      · exact ⟨absent, files x c (.inl there)⟩
      · refine ⟨?_, there⟩
        -- what was there before the turn is there after it
        cases before : u.before.tree.at? x with
        | none => rfl
        | some entry =>
          cases entry with
          | directory =>
            rw [first.keeps x before] at absent
            cases absent
          | file c =>
            obtain ⟨c', after⟩ := first.keepsFile before
            rw [after] at absent
            cases absent
    · rintro ⟨absent, c, there⟩
      cases after : u.after.tree.at? x with
      | none => exact .inr ⟨rfl, c, there⟩
      | some entry =>
        cases entry with
        | file c' => exact .inl ⟨absent, c', rfl⟩
        | directory =>
          rw [directories x after] at there
          cases there

/-! ## The report of an execution -/

/-- The paths that turns work on lead to places in a tree, and no two of them that are shown
differently lead to the same place. -/
structure WritesApart (project : Path) (us : List Turn) (t : Tree) : Prop where
  /-- The project is written without double points, or it is there. -/
  anchored : ".." ∉ project.parts ∨ t.isDirectory project = true
  straight : ∀ u ∈ us, ∀ text, u.written? = some text → ".." ∉ Path.partsOf text
  apart : ∀ u ∈ us, ∀ v ∈ us, ∀ p q, u.path? project = some p → v.path? project = some q →
    p.normal.parts = q.normal.parts → Path.shownFrom project p = Path.shownFrom project q

section WritesApart

variable {project : Path} {us : List Turn} {t : Tree}

theorem WritesApart.leads (h : WritesApart project us t) {u : Turn} (hu : u ∈ us) {p : Path}
    (hp : u.path? project = some p) :
    ∃ text place, p = project.child text ∧ t.Leads p place := by
  obtain ⟨text, written, rfl⟩ := Option.map_eq_some_iff.mp hp
  obtain ⟨place, leads⟩ := Tree.Leads.of_child h.anchored (h.straight u hu text written)
  exact ⟨text, place, rfl, leads⟩

/-- Two paths that turns work on are shown alike exactly if they lead to the same place. -/
theorem WritesApart.shown_eq_iff (h : WritesApart project us t) {u v : Turn} (hu : u ∈ us)
    (hv : v ∈ us) {p q : Path} (hp : u.path? project = some p) (hq : v.path? project = some q)
    {t' : Tree} {x y : Place} (leads : t.Leads p x) (leads' : t'.Leads q y) :
    Path.shownFrom project q = Path.shownFrom project p ↔ y = x := by
  rw [leads.eq_collapse, leads'.eq_collapse]
  constructor
  · intro alike
    obtain ⟨text, -, rfl, -⟩ := h.leads hu hp
    obtain ⟨text', -, rfl, -⟩ := h.leads hv hq
    rw [Path.parts_eq_of_shownFrom_eq alike]
  · exact fun same => h.apart v hv u hu q p hq hp same

/-- Below the root `/` paths are apart if none of them is written from the root `//`. -/
theorem writesApart_of_rooted (root : project.root = "/") (proper : ".." ∉ project.parts)
    (straight : ∀ u ∈ us, ∀ text, u.written? = some text → ".." ∉ Path.partsOf text)
    (single : ∀ u ∈ us, ∀ text, u.written? = some text → (Path.ofString text).root ≠ "//") :
    WritesApart project us t := by
  have rooted {u : Turn} (hu : u ∈ us) {p : Path} (hp : u.path? project = some p) :
      p = ⟨"/", p.normal.parts⟩ := by
    obtain ⟨text, written, rfl⟩ := Option.map_eq_some_iff.mp hp
    have names := Path.not_mem_child proper (straight u hu text written)
    have parts : (project.child text).parts = (project.child text).normal.parts :=
      (Tree.Leads.of_straight t names).eq_collapse
    rw [← parts, ← Path.root_child root (single u hu text written)]
  refine ⟨.inl proper, straight, fun u hu v hv p q hp hq same => ?_⟩
  rw [rooted hu hp, rooted hv hq, same]

end WritesApart

/-- Every turn of an execution of such steps works on files as its step does. -/
theorem history_filed (standard : e.tools.AreStandard sh actions)
    (quiet : ∀ w, e.prompter = some w → w.Quiet)
    (kinds : ∀ step ∈ r.steps, step.kind = .add ∨ step.kind = .inject ∨ step.kind = .ai)
    {s : Session} (closed : s.tree.Closed)
    (apart : WritesApart e.project (e.history r b options answers s) s.tree) :
    ∀ u ∈ e.history r b options answers s,
      u.Filed e.project ∧ u.before.tree.Closed ∧ s.tree.KeepsDirectories u.before.tree := by
  have opened : (s.opened r).tree.Closed := closed
  apply chained_filed (history_chained s) opened
  case leads =>
    intro u hu p hp
    obtain ⟨-, place, -, leads⟩ := apart.leads hu hp
    exact ⟨place, leads⟩
  case filed =>
    intro u hu closed leads
    obtain ⟨made, mem⟩ := mem_history hu
    rw [made] at leads ⊢
    exact turn_filed standard quiet (kinds u.step mem) u.earlier closed leads

/-- A turn rewrites the file at a path exactly if the place that it leads to holds another content. -/
theorem rewrites_iff {project : Path} {u : Turn} (filed : u.Filed project)
    (closed : u.before.tree.Closed) {p : Path} {x : Place} (leads : u.before.tree.Leads p x) :
    u.Rewrites p ↔ ∃ c c', u.before.tree.at? x = some (.file c) ∧
      u.after.tree.at? x = some (.file c') ∧ c ≠ c' := by
  have leads' : u.after.tree.Leads p x := leads.mono filed.keeps
  have closed' : u.after.tree.Closed := filed.closed closed
  simp only [Turn.Rewrites, leads.read_eq_ok closed, leads'.read_eq_ok closed']

/-- What a recipe reports, name by name. -/
theorem execute_reports {s t : Session} {o : RecipeResult}
    (h : (e.execute r b options answers).on s = (.ok o, t)) :
    t = leaves (s.opened r) (e.history r b options answers s) ∧
      ∀ {n : String} (files : Touched → List String), n ∈ o.gather files ↔
        ∃ u ∈ e.history r b options answers s, ∃ x, u.outcome = .ok x ∧ n ∈ files x.files := by
  cases valid : (e.validate r b.merged answers).valid with
  | false =>
    obtain ⟨f, failed⟩ := execute_on_invalid valid
    rw [failed] at h
    cases h
  | true =>
    rw [execute_on_valid valid s] at h
    rcases outcomes : (e.history r b options answers s).mapM (·.outcome) with f | steps
    · simp only [outcomes] at h
      cases h
    · simp only [outcomes] at h
      cases h
      refine ⟨rfl, fun files => ?_⟩
      rw [RecipeResult.mem_gather]
      constructor
      · rintro ⟨x, hx, listed⟩
        obtain ⟨u, hu, outcome⟩ := (mem_outcomes outcomes x).mp hx
        exact ⟨u, hu, x, outcome, listed⟩
      · rintro ⟨u, hu, x, outcome, listed⟩
        exact ⟨x, (mem_outcomes outcomes x).mpr ⟨u, hu, outcome⟩, listed⟩

/-- Where a file is that was not there before, the path of some turn leads. -/
theorem exists_leads {project : Path} {st : Session} {us : List Turn} (chained : Chained st us)
    (filed : ∀ u ∈ us, u.Filed project) {x : Place} {c : Content}
    (there : (leaves st us).tree.at? x = some (.file c))
    (changed : st.tree.at? x ≠ some (.file c)) :
    ∃ u ∈ us, ∃ p, u.path? project = some p ∧ u.before.tree.Leads p x := by
  induction us generalizing st with
  | nil => exact absurd there changed
  | cons u us ih =>
    obtain ⟨rfl, rest⟩ := chained
    by_cases after : u.after.tree.at? x = some (.file c)
    · obtain ⟨p, target, leads⟩ := (filed u List.mem_cons_self).leads_of_file after changed
      exact ⟨u, List.mem_cons_self, p, target, leads⟩
    · obtain ⟨v, hv, found⟩ := ih rest (fun v hv => filed v (List.mem_cons_of_mem u hv)) there after
      exact ⟨v, List.mem_cons_of_mem u hv, found⟩

/-- Where a file came into being or was rewritten, the path of some turn leads. -/
theorem exists_leads_of_changed {project : Path} {st : Session} {us : List Turn}
    (chained : Chained st us) (filed : ∀ u ∈ us, u.Filed project) {x : Place}
    (changed : (st.tree.at? x = none ∧ ∃ c, (leaves st us).tree.at? x = some (.file c)) ∨
      ∃ v ∈ us, ∃ c c', v.before.tree.at? x = some (.file c) ∧
        v.after.tree.at? x = some (.file c') ∧ c ≠ c') :
    ∃ u ∈ us, ∃ p, u.path? project = some p ∧ u.before.tree.Leads p x := by
  rcases changed with ⟨absent, c, there⟩ | ⟨v, hv, c, c', before, after, differs⟩
  · exact exists_leads chained filed there (by rw [absent]; nofun)
  · have changed : v.before.tree.at? x ≠ some (.file c') := by
      rw [before]
      rintro same
      cases same
      exact differs rfl
    obtain ⟨p, target, leads⟩ := (filed v hv).leads_of_file after changed
    exact ⟨v, hv, p, target, leads⟩

/-- A recipe reports no names but those of the files that its turns work on. -/
theorem execute_named {s t : Session} {o : RecipeResult}
    (h : (e.execute r b options answers).on s = (.ok o, t))
    (filed : ∀ u ∈ e.history r b options answers s, u.Filed e.project) {name : String}
    (listed : name ∈ o.filesCreated ∨ name ∈ o.filesModified) :
    ∃ u ∈ e.history r b options answers s, ∃ p, u.path? e.project = some p ∧
      name = Path.shownFrom e.project p := by
  have from_turns {files : Touched → List String} (listed : name ∈ o.gather files)
      (either : ∀ f : Touched, name ∈ files f → name ∈ f.created ∨ name ∈ f.modified) :
      ∃ u ∈ e.history r b options answers s, ∃ p, u.path? e.project = some p ∧
        name = Path.shownFrom e.project p := by
    obtain ⟨u, hu, x, outcome, listed⟩ := ((execute_reports h).2 files).mp listed
    obtain ⟨p, target, shown⟩ := (filed u hu).exists_path outcome (either _ listed)
    exact ⟨u, hu, p, target, shown⟩
  rcases listed with listed | listed
  · exact from_turns listed fun _ => .inl
  · exact from_turns (o.mem_filesModified.mp listed).1 fun _ => .inr

/-- A report tells, of the paths that turns work on, which lead to a file where there was nothing
before, and which to a file that was there and was rewritten. -/
structure Truthful (project : Path) (us : List Turn) (before after : Tree) (o : RecipeResult) :
    Prop where
  created : ∀ u ∈ us, ∀ p, u.path? project = some p →
    (Path.shownFrom project p ∈ o.filesCreated ↔
      before.present p = false ∧ after.isFile p = true)
  modified : ∀ u ∈ us, ∀ p, u.path? project = some p →
    (Path.shownFrom project p ∈ o.filesModified ↔
      before.present p = true ∧ ∃ v ∈ us, v.Rewrites p)
  /-- No other names are reported. -/
  named : ∀ name, name ∈ o.filesCreated ∨ name ∈ o.filesModified →
    ∃ u ∈ us, ∃ p, u.path? project = some p ∧ name = Path.shownFrom project p
  /-- No other files come into being or are rewritten. -/
  worked : ∀ q : Path, ".." ∉ q.parts →
    (before.present q = false ∧ after.isFile q = true) ∨ (∃ v ∈ us, v.Rewrites q) →
      ∃ u ∈ us, ∃ p, u.path? project = some p ∧ p.normal.parts = q.parts
  nodup_created : o.filesCreated.Nodup
  nodup_modified : o.filesModified.Nodup
  disjoint : ∀ name ∈ o.filesCreated, name ∉ o.filesModified

/-- The report of an execution tells which files came into being and which were rewritten, also where
a step failed. -/
theorem report_truthful (standard : e.tools.AreStandard sh actions)
    (quiet : ∀ w, e.prompter = some w → w.Quiet)
    (kinds : ∀ step ∈ r.steps, step.kind = .add ∨ step.kind = .inject ∨ step.kind = .ai)
    {s t : Session} {o : RecipeResult} (closed : s.tree.Closed)
    (apart : WritesApart e.project (e.history r b options answers s) s.tree)
    (h : (e.execute r b options answers).on s = (.ok o, t)) :
    Truthful e.project (e.history r b options answers s) s.tree t.tree o := by
  have all := history_filed standard quiet kinds closed apart
  have filed := fun u hu => (all u hu).1
  obtain ⟨left, reports⟩ := execute_reports h
  obtain ⟨directories, closes, files⟩ := leaves_keeps (history_chained s) filed
  rw [← left] at directories closes files
  have absent {p : Path} {x : Place} (leads : s.tree.Leads p x) :
      s.tree.present p = false ↔ s.tree.at? x = none := by
    rw [← Bool.not_eq_true, leads.present_iff closed, not_not]
  have isFile {p : Path} {x : Place} (leads : s.tree.Leads p x) :
      t.tree.isFile p = true ↔ ∃ c, t.tree.at? x = some (.file c) :=
    (leads.mono directories).isFile_iff (closes closed)
  have rewrites {v : Turn} (hv : v ∈ e.history r b options answers s) {p : Path} {x : Place}
      (leads : s.tree.Leads p x) : v.Rewrites p ↔ ∃ c c', v.before.tree.at? x = some (.file c) ∧
        v.after.tree.at? x = some (.file c') ∧ c ≠ c' := by
    obtain ⟨filed, closed, keeps⟩ := all v hv
    exact rewrites_iff filed closed (leads.mono keeps)
  have created {u : Turn} (hu : u ∈ e.history r b options answers s) {p : Path}
      (hp : u.path? e.project = some p) : Path.shownFrom e.project p ∈ o.filesCreated ↔
        s.tree.present p = false ∧ t.tree.isFile p = true := by
    obtain ⟨-, x, -, leads⟩ := apart.leads hu hp
    rw [absent leads, isFile leads, left]
    exact (reports _).trans (created_iff (history_chained s) filed fun v hv q y hq =>
      apart.shown_eq_iff hu hv hp hq leads)
  refine ⟨fun u hu p hp => created hu hp, fun u hu p hp => ?_,
    fun name listed => execute_named h filed listed, fun q straight changed => ?_,
    o.gather_nodup _, (o.gather_nodup _).filter _, fun name made changed => ?_⟩
  · obtain ⟨-, x, -, leads⟩ := apart.leads hu hp
    have rewritten : Path.shownFrom e.project p ∈ o.gather (·.modified) ↔
        ∃ v ∈ e.history r b options answers s, v.Rewrites p := by
      refine (reports _).trans (exists_congr fun v => and_congr_right fun hv => ?_)
      rw [rewrites hv leads]
      exact (filed v hv).modified_iff fun q y hq => apart.shown_eq_iff hu hv hp hq leads
    rw [o.mem_filesModified, rewritten, created hu hp, and_comm]
    refine and_congr_left fun ⟨v, hv, rewrote⟩ => ?_
    -- what is rewritten is a file in the end, so it was created unless it was there
    obtain ⟨c, -, found, -, -⟩ := (rewrites hv leads).mp rewrote
    have last := (isFile leads).mpr (files x c (.inr ⟨v, hv, found⟩))
    rw [and_iff_left last, Bool.not_eq_false]
  · have leads : s.tree.Leads q q.parts := .of_straight s.tree straight
    have found : ∃ u ∈ e.history r b options answers s, ∃ p, u.path? e.project = some p ∧
        u.before.tree.Leads p q.parts := by
      refine exists_leads_of_changed (history_chained s) filed (changed.imp ?_ ?_)
      · rintro ⟨before, after⟩
        rw [← left]
        exact ⟨(absent leads).mp before, (isFile leads).mp after⟩
      · rintro ⟨v, hv, rewrote⟩
        exact ⟨v, hv, (rewrites hv leads).mp rewrote⟩
    obtain ⟨u, hu, p, target, leads⟩ := found
    exact ⟨u, hu, p, target, leads.eq_collapse.symm⟩
  · exact (o.mem_filesModified.mp changed).2 made

end Engine

/-! ## A file under two names -/

namespace Respelled

/-- A recipe that adds a file and splices a line into it, which it may write by another path. -/
def recipe (again : String) : Recipe where
  name := "twice"
  steps := [{ name := "add", body := .add { target := "a.txt", body := some "one\n" } },
    { name := "append"
      body := .inject { target := again, body := some "two", insertion := { back := true } } }]

def engine : Engine where
  project := .ofString "/project"
  tools := .standard (fun _ _ => .error .noProgram) []

/-- What comes of the recipe, and the session in the end. -/
def outcome (again : String) : Except Failure RecipeResult × Session :=
  (engine.execute (recipe again) {} {} []).on {}

/-- The files that the recipe reports. -/
def listed (again : String) : Option (List String × List String) :=
  (outcome again).1.toOption.map fun o => (o.filesCreated, o.filesModified)

theorem outcome_eq_ok {again : String} {created modified : List String}
    (h : listed again = some (created, modified)) :
    ∃ o, (engine.execute (recipe again) {} {} []).on {} = (.ok o, (outcome again).2) ∧
      o.filesCreated = created ∧ o.filesModified = modified := by
  unfold listed at h
  rcases result : (outcome again).1 with f | o <;> rw [result] at h
  · cases h
  · cases h
    exact ⟨o, Prod.ext result rfl, rfl, rfl⟩

/-- The file that comes into being has another name, too, and under this it is reported as modified. -/
theorem modified_unseen : ∃ o t, ∃ u ∈ engine.history (recipe "//project/a.txt") {} {} [] {},
    ∃ p, (engine.execute (recipe "//project/a.txt") {} {} []).on {} = (.ok o, t) ∧
      u.written? = some "//project/a.txt" ∧ ".." ∉ Path.partsOf "//project/a.txt" ∧
      u.path? engine.project = some p ∧ Tree.bare.present p = false ∧ t.tree.isFile p = true ∧
      Path.shownFrom engine.project p ∉ o.filesCreated ∧
      Path.shownFrom engine.project p ∈ o.filesModified := by
  have files : listed "//project/a.txt" = some (["a.txt"], ["//project/a.txt"]) := by
    decide +kernel
  obtain ⟨o, executed, created, modified⟩ := outcome_eq_ok files
  have written : some "//project/a.txt" ∈
      (engine.history (recipe "//project/a.txt") {} {} [] {}).map (·.written?) := by decide +kernel
  obtain ⟨u, hu, target⟩ := List.mem_map.mp written
  refine ⟨o, _, u, hu, engine.project.child "//project/a.txt", executed, target, by decide, ?_,
    by decide +kernel, by decide +kernel, ?_, ?_⟩
  · rw [Turn.path?, target]
    rfl
  · rw [created]
    decide +kernel
  · rw [modified]
    decide +kernel

/-- Written the same way both times, the file is reported as created, and only so. -/
theorem created_seen : ∃ o t, (engine.execute (recipe "a.txt") {} {} []).on {} = (.ok o, t) ∧
    o.filesCreated = ["a.txt"] ∧ o.filesModified = [] ∧
    Engine.Truthful engine.project (engine.history (recipe "a.txt") {} {} [] {}) .bare t.tree o := by
  have files : listed "a.txt" = some (["a.txt"], []) := by decide +kernel
  obtain ⟨o, executed, created, modified⟩ := outcome_eq_ok files
  have targets : (engine.history (recipe "a.txt") {} {} [] {}).map (·.written?) =
      [some "a.txt", some "a.txt"] := by decide +kernel
  have written : ∀ u ∈ engine.history (recipe "a.txt") {} {} [] {}, u.written? = some "a.txt" := by
    intro u hu
    have mem : u.written? ∈ [some "a.txt", some "a.txt"] := targets ▸ List.mem_map_of_mem hu
    simpa using mem
  have apart : Engine.WritesApart engine.project (engine.history (recipe "a.txt") {} {} [] {})
      Tree.bare := by
    refine Engine.writesApart_of_rooted (by decide) (by decide) ?_ ?_
    all_goals
      intro u hu text there
      rw [written u hu] at there
      cases there
      decide
  refine ⟨o, _, executed, created, modified, ?_⟩
  have kinds : ∀ step ∈ (recipe "a.txt").steps,
      step.kind = .add ∨ step.kind = .inject ∨ step.kind = .ai := by decide
  exact Engine.report_truthful (fun _ there => there) (fun _ none => by cases none) kinds
    (by decide) apart executed

end Respelled

end Scaffold
