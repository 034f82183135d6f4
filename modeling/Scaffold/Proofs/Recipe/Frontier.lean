import Scaffold.Proofs.Resolver.Walks
import Scaffold.Proofs.Tree.Directories
import Scaffold.Recipe.Store

/-!
# The recipes of a group

Below a directory lie directories with recipes, one inside the other and some in hidden directories.
The group of the directory has those of them that are met first: the names that lead down are not
hidden, and no directory on the way has a recipe of its own.  What is found is said of the places in the
tree, without any walking about.

The search goes down directory by directory, in the order of the names in each.  So the recipes come in
the order of their paths, component by component, and each once.
-/

namespace Scaffold

namespace Recipe

variable {t : Tree} {d p file : Path} {x : Place} {n name : String} {route rest : List String}

/-! ## Recipes at places -/

/-- The name of the file with the recipe of the directory at a place: one name comes before the other. -/
inductive FileAt (t : Tree) (x : Place) : String → Prop
  | first {c : Content} : t.at? (x ++ ["recipe.yml"]) = some (.file c) → FileAt t x "recipe.yml"
  | second {c : Content} : (∀ c, t.at? (x ++ ["recipe.yml"]) ≠ some (.file c)) →
      t.at? (x ++ ["recipe.yaml"]) = some (.file c) → FileAt t x "recipe.yaml"

/-- A directory has a recipe if there is a file of either name. -/
theorem exists_fileAt_iff :
    (∃ name, FileAt t x name) ↔ ∃ name ∈ fileNames, ∃ c, t.at? (x ++ [name]) = some (.file c) := by
  constructor
  · rintro ⟨name, there | ⟨-, there⟩⟩
    · exact ⟨_, List.mem_cons_self, _, there⟩
    · exact ⟨_, List.mem_cons_of_mem _ List.mem_cons_self, _, there⟩
  · rintro ⟨name, mem, c, there⟩
    by_cases first : ∃ c, t.at? (x ++ ["recipe.yml"]) = some (.file c)
    · obtain ⟨c, there⟩ := first
      exact ⟨_, .first there⟩
    · simp only [fileNames, List.mem_cons, List.not_mem_nil, or_false] at mem
      rcases mem with rfl | rfl
      · exact absurd ⟨c, there⟩ first
      · exact ⟨_, .second (fun c there => first ⟨c, there⟩) there⟩

theorem fileIn?_iff (closed : t.Closed) (opens : t.Opens d x) :
    fileIn? t d = some file ↔ ∃ name, FileAt t x name ∧ file = d.under [name] := by
  have isFile (name : String) (mem : name ∈ fileNames) :
      t.isFile (d.under [name]) = true ↔ ∃ c, t.at? (x ++ [name]) = some (.file c) := by
    refine opens.isFile_iff closed fun dots => ?_
    rw [← List.mem_singleton.mp dots] at mem
    exact absurd mem (by decide)
  rw [fileIn?_eq_some]
  constructor
  · -- there are two names only: before the one that is found comes nothing or the first
    rintro ⟨before, name, behind, split, rfl, there, absent⟩
    have known : name ∈ fileNames := by simp [split]
    obtain ⟨c, there⟩ := (isFile name known).mp there
    refine ⟨name, ?_, rfl⟩
    rcases before with _ | ⟨other, before⟩
    · obtain ⟨rfl, -⟩ := List.cons.inj split
      exact .first there
    · obtain ⟨rfl, others⟩ := List.cons.inj split
      rcases before with _ | ⟨other, before⟩
      · obtain ⟨rfl, -⟩ := List.cons.inj others
        refine .second (fun c first => ?_) there
        have none := absent _ List.mem_cons_self
        have some := (isFile "recipe.yml" List.mem_cons_self).mpr ⟨c, first⟩
        rw [Path.under, none] at some
        cases some
      · have count := congrArg List.length (List.cons.inj others).2
        simp at count
  · rintro ⟨name, there | ⟨first, there⟩, rfl⟩
    · exact ⟨[], _, _, rfl, rfl, (isFile _ List.mem_cons_self).mpr ⟨_, there⟩, by simp⟩
    · refine ⟨["recipe.yml"], "recipe.yaml", [], rfl, rfl, (isFile _ (by decide)).mpr ⟨_, there⟩, ?_⟩
      intro other mem
      obtain rfl := List.mem_singleton.mp mem
      rw [Bool.eq_false_iff]
      intro some
      obtain ⟨c, there⟩ := (isFile "recipe.yml" List.mem_cons_self).mp some
      exact first c there

theorem fileIn?_none_iff (closed : t.Closed) (opens : t.Opens d x) :
    fileIn? t d = none ↔ ∀ name, ¬FileAt t x name := by
  rw [Option.eq_none_iff_forall_ne_some]
  constructor
  · exact fun none name there => none _ ((fileIn?_iff closed opens).mpr ⟨name, there, rfl⟩)
  · intro none file found
    obtain ⟨name, there, -⟩ := (fileIn?_iff closed opens).mp found
    exact none name there

/-! ## Recipes below a place -/

/-- Some names lead down from a place to a directory with a recipe. -/
structure Below (t : Tree) (x : Place) (route : List String) : Prop where
  further : route ≠ []
  directory : t.at? (x ++ route) = some .directory
  recipe : ∃ name, FileAt t (x ++ route) name

/-- No name is that of a hidden directory. -/
def Visible (route : List String) : Prop := ∀ n ∈ route, n.toList.head? ≠ some '.'

/-- The recipe counts for the group at the place: it is not hidden, and none comes before it on the way
down. -/
structure Contributes (t : Tree) (x : Place) (route : List String) : Prop extends Below t x route where
  visible : Visible route
  first : ∀ front, front <+: route → front ≠ [] → front ≠ route → ∀ name, ¬FileAt t (x ++ front) name

theorem visible_cons : Visible (n :: rest) ↔ n.toList.head? ≠ some '.' ∧ Visible rest := List.forall_mem_cons

theorem startsWith_point : Text.startsWith "." n = false ↔ n.toList.head? ≠ some '.' := by
  have point : (".").toList = ['.'] := by decide
  rw [Text.startsWith, point]
  cases n.toList with
  | nil => simp
  | cons c cs =>
    by_cases same : c = '.'
    · simp [same]
    · have other : ('.' == c) = false := by simpa using Ne.symm same
      simp [List.isPrefixOf, other, same]

/-- The first step down: what counts is the recipe of the directory under the first name, and otherwise
what counts for the group there. -/
theorem contributes_cons (closed : t.Closed) :
    Contributes t x (n :: rest) ↔
      t.at? (x ++ [n]) = some .directory ∧ n.toList.head? ≠ some '.' ∧
        (rest = [] ∧ (∃ name, FileAt t (x ++ [n]) name) ∨
          (∀ name, ¬FileAt t (x ++ [n]) name) ∧ Contributes t (x ++ [n]) rest) := by
  have behind := List.append_cons x n
  constructor
  · rintro ⟨⟨-, directory, recipe⟩, visible, first⟩
    obtain ⟨shown, others⟩ := visible_cons.mp visible
    rw [behind] at directory
    refine ⟨closed.above directory, shown, ?_⟩
    by_cases last : rest = []
    · subst last
      exact .inl ⟨rfl, recipe⟩
    · rw [behind] at recipe
      refine .inr ⟨first [n] (by simp) (by simp) (by simpa using Ne.symm last), ⟨last, directory, recipe⟩,
        others, fun front within some other name => ?_⟩
      rw [← behind]
      exact first (n :: front) (List.cons_prefix_cons.mpr ⟨rfl, within⟩) (by simp) (by simpa using other) name
  · rintro ⟨directory, shown, ⟨rfl, recipe⟩ | ⟨absent, counts⟩⟩
    · refine ⟨⟨by simp, directory, recipe⟩, visible_cons.mpr ⟨shown, fun _ mem => absurd mem List.not_mem_nil⟩,
        fun front within some other => ?_⟩
      -- a name alone has no front part but itself
      cases front with
      | nil => exact absurd rfl some
      | cons m front =>
        obtain ⟨rfl, none⟩ := List.cons_prefix_cons.mp within
        exact absurd (congrArg _ (List.prefix_nil.mp none)) other
    · obtain ⟨⟨further, directory', recipe⟩, others, first⟩ := counts
      refine ⟨⟨by simp, ?_, ?_⟩, visible_cons.mpr ⟨shown, others⟩, fun front within some other name => ?_⟩
      · rwa [behind]
      · rwa [behind]
      · cases front with
        | nil => exact absurd rfl some
        | cons m front =>
          obtain ⟨rfl, inner⟩ := List.cons_prefix_cons.mp within
          rw [behind]
          by_cases start : front = []
          · subst start
            rw [List.append_nil]
            exact absent name
          · exact first front inner start (by simpa using other) name

/-- Where a recipe that is not hidden lies below a place, one counts for the group. -/
theorem exists_contributes_iff (closed : t.Closed) :
    (∃ route, Contributes t x route) ↔ ∃ route, Below t x route ∧ Visible route := by
  refine ⟨fun ⟨route, counts⟩ => ⟨route, counts.toBelow, counts.visible⟩, ?_⟩
  rintro ⟨route, below, visible⟩
  -- on the way down to the recipe the first directory that has one counts
  induction route generalizing x with
  | nil => exact absurd rfl below.further
  | cons n rest ih =>
    obtain ⟨shown, others⟩ := visible_cons.mp visible
    have behind := List.append_cons x n rest
    have directory := below.directory
    rw [behind] at directory
    by_cases here : ∃ name, FileAt t (x ++ [n]) name
    · exact ⟨[n], (contributes_cons closed).mpr ⟨closed.above directory, shown, .inl ⟨rfl, here⟩⟩⟩
    · have further : rest ≠ [] := by
        rintro rfl
        exact here below.recipe
      obtain ⟨route, counts⟩ := ih ⟨further, directory, behind ▸ below.recipe⟩ others
      refine ⟨n :: route, (contributes_cons closed).mpr ⟨closed.above directory, shown, .inr ⟨?_, counts⟩⟩⟩
      exact fun name there => here ⟨name, there⟩

/-! ## The search -/

/-- What a directory contributes to the group that it is in. -/
def contribution (t : Tree) (d : Path) (depth : Nat) : List Path :=
  match fileIn? t d with
  | some file => [file]
  | none => belowTo t d depth

theorem belowTo_succ {names : List String} (read : t.directoriesIn d = .ok names) (depth : Nat) :
    belowTo t d (depth + 1) =
      (names.filter fun n => !Text.startsWith "." n).flatMap fun n => contribution t (d.under [n]) depth := by
  rw [belowTo, read]
  rfl

theorem mem_contribution (closed : t.Closed) (opens : t.Opens d x) {depth : Nat} :
    p ∈ contribution t d depth ↔ (∃ name, FileAt t x name ∧ p = d.under [name]) ∨
      (∀ name, ¬FileAt t x name) ∧ p ∈ belowTo t d depth := by
  rw [contribution]
  cases found : fileIn? t d with
  | none =>
    have absent := (fileIn?_none_iff closed opens).mp found
    refine ⟨fun mem => .inr ⟨absent, mem⟩, ?_⟩
    rintro (⟨name, there, -⟩ | ⟨-, mem⟩)
    · exact absurd there (absent name)
    · exact mem
  | some file =>
    obtain ⟨name, there, rfl⟩ := (fileIn?_iff closed opens).mp found
    rw [List.mem_singleton]
    refine ⟨fun same => .inl ⟨name, there, same⟩, ?_⟩
    rintro (⟨other, there', rfl⟩ | ⟨absent, -⟩)
    · exact Option.some.inj (((fileIn?_iff closed opens).mpr ⟨other, there', rfl⟩).symm.trans found)
    · exact absurd there (absent name)

/-- What the search finds to a depth is what counts for the group as far down. -/
theorem mem_belowTo (regular : t.Regular) (opens : t.Opens d x) {depth : Nat} :
    p ∈ belowTo t d depth ↔ ∃ route name, Contributes t x route ∧ route.length ≤ depth ∧
      FileAt t (x ++ route) name ∧ p = d.under (route ++ [name]) := by
  -- by induction on the depth: the first name of a route is one of those searched, and the others are
  -- a route for the directory under it
  induction depth generalizing d x with
  | zero =>
    rw [belowTo]
    refine ⟨fun mem => absurd mem List.not_mem_nil, ?_⟩
    rintro ⟨route, name, counts, short, -⟩
    exact absurd (List.eq_nil_of_length_eq_zero (Nat.le_zero.mp short)) counts.further
  | succ depth ih =>
    have closed := regular.closed
    obtain ⟨names, read, -, known⟩ := regular.directoriesIn opens
    have searched (n : String) : n ∈ names.filter (fun n => !Text.startsWith "." n) ↔
        t.at? (x ++ [n]) = some .directory ∧ n.toList.head? ≠ some '.' := by
      rw [List.mem_filter, known, Bool.not_eq_true', startsWith_point]
    have behind := List.append_cons x
    rw [belowTo_succ read, List.mem_flatMap]
    constructor
    · rintro ⟨n, mem, found⟩
      obtain ⟨directory, shown⟩ := (searched n).mp mem
      have child := opens.under regular directory
      rcases (mem_contribution closed child).mp found with ⟨name, there, rfl⟩ | ⟨absent, deeper⟩
      · refine ⟨[n], name, (contributes_cons closed).mpr ⟨directory, shown, .inl ⟨rfl, name, there⟩⟩, ?_, there, ?_⟩
        · exact Nat.succ_le_succ (Nat.zero_le depth)
        · rw [Path.under_under]
      · obtain ⟨rest, name, counts, short, there, rfl⟩ := (ih child).mp deeper
        refine ⟨n :: rest, name, (contributes_cons closed).mpr ⟨directory, shown, .inr ⟨absent, counts⟩⟩,
          Nat.succ_le_succ short, ?_, ?_⟩
        · rwa [behind]
        · rw [Path.under_under, List.singleton_append, List.cons_append]
    · rintro ⟨route, name, counts, short, there, rfl⟩
      cases route with
      | nil => exact absurd rfl counts.further
      | cons n rest =>
        obtain ⟨directory, shown, here⟩ := (contributes_cons closed).mp counts
        have child := opens.under regular directory
        refine ⟨n, (searched n).mpr ⟨directory, shown⟩, (mem_contribution closed child).mpr ?_⟩
        rw [behind] at there
        rcases here with ⟨rfl, -⟩ | ⟨absent, deeper⟩
        · rw [List.append_nil] at there
          exact .inl ⟨name, there, (Path.under_under d [n] [name]).symm⟩
        · refine .inr ⟨absent, (ih child).mpr ⟨rest, name, deeper, Nat.le_of_succ_le_succ short, there, ?_⟩⟩
          rw [Path.under_under, List.singleton_append, List.cons_append]

/-- What a directory contributes lies in it or below it. -/
theorem parent_of_mem_contribution (regular : t.Regular) (opens : t.Opens d x) {depth : Nat}
    (h : p ∈ contribution t d depth) : ∃ rest, p.parent.parts = d.parts ++ rest := by
  rcases (mem_contribution regular.closed opens).mp h with ⟨name, -, rfl⟩ | ⟨-, deeper⟩
  · exact ⟨[], congrArg Path.parts (Path.parent_under d [] name)⟩
  · obtain ⟨route, name, -, -, -, rfl⟩ := (mem_belowTo regular opens).mp deeper
    exact ⟨route, congrArg Path.parts (Path.parent_under d route name)⟩

/-- The names in each directory are in order, so the paths are. -/
theorem pairwise_belowTo (regular : t.Regular) (opens : t.Opens d x) (depth : Nat) :
    (belowTo t d depth).Pairwise fun p q => p.parent.parts < q.parent.parts := by
  induction depth generalizing d x with
  | zero =>
    rw [belowTo]
    exact .nil
  | succ depth ih =>
    obtain ⟨names, read, order, known⟩ := regular.directoriesIn opens
    have child {n : String} (mem : n ∈ names.filter fun n => !Text.startsWith "." n) :
        t.Opens (d.under [n]) (x ++ [n]) :=
      opens.under regular ((known n).mp (List.mem_of_mem_filter mem))
    rw [belowTo_succ read, List.pairwise_flatMap]
    constructor
    · intro n mem
      rw [contribution]
      split
      next => exact List.pairwise_singleton _ _
      next => exact ih (child mem)
    · -- the paths in two directories differ first in the names of these
      refine (order.filter _).imp_of_mem fun {n m} memN memM less p inN q inM => ?_
      obtain ⟨first, hp⟩ := parent_of_mem_contribution regular (child memN) inN
      obtain ⟨second, hq⟩ := parent_of_mem_contribution regular (child memM) inM
      rw [hp, hq, Path.under_parts, Path.under_parts, List.append_assoc, List.append_assoc]
      exact List.append_left_lt (List.cons_lt_cons_iff.mpr (.inl less))

theorem discover_eq (regular : t.Regular) (opens : t.Opens d x) :
    discover t d = .ok (belowTo t d (t.depth + 1)) := by
  obtain ⟨names, read, -⟩ := regular.directoriesIn opens
  rw [discover, read]
  rfl

/-- The depth of the tree is deep enough. -/
theorem mem_belowTo_depth (regular : t.Regular) (opens : t.Opens d x) :
    p ∈ belowTo t d (t.depth + 1) ↔ ∃ route name, Contributes t x route ∧ FileAt t (x ++ route) name ∧
      p = d.under (route ++ [name]) := by
  rw [mem_belowTo regular opens]
  constructor
  · rintro ⟨route, name, counts, -, there, same⟩
    exact ⟨route, name, counts, there, same⟩
  · rintro ⟨route, name, counts, there, same⟩
    have deep := Tree.length_le_depth counts.directory
    rw [List.length_append] at deep
    exact ⟨route, name, counts, by omega, there, same⟩

/-- The group of a directory has exactly the recipes that are met first and not hidden, each in the file
of its directory that comes first, and once each, in the strict order of the paths of the directories. -/
theorem discover_frontier (regular : t.Regular) (opens : t.Opens d x) :
    ∃ files, discover t d = .ok files ∧
      files.Pairwise (fun p q => p.parent.parts < q.parent.parts) ∧
      ∀ p, p ∈ files ↔ ∃ route name, Contributes t x route ∧ FileAt t (x ++ route) name ∧
        p = d.under (route ++ [name]) :=
  ⟨_, discover_eq regular opens, pairwise_belowTo regular opens _, fun _ => mem_belowTo_depth regular opens⟩

end Recipe

/-! ## A group with a recipe of every kind -/

namespace Layered

open Recipe

/-- Two recipes that count, one of them with two files; a hidden one, and one that lies behind
another. -/
def tree : Tree where
  entries := [
    (["group"], .directory),
    (["group", "b"], .directory), (["group", "b", "c"], .directory),
    (["group", "b", "c", "recipe.yaml"], .file (.text "name: old\n")),
    (["group", "b", "c", "recipe.yml"], .file (.text "name: c\n")),
    (["group", "b", "c", "d"], .directory),
    (["group", "b", "c", "d", "recipe.yml"], .file (.text "name: d\n")),
    (["group", "a"], .directory), (["group", "a", "recipe.yaml"], .file (.text "name: a\n")),
    (["group", ".cache"], .directory), (["group", ".cache", "recipe.yml"], .file (.text "name: e\n"))]

def group : Path := .ofString "/group"

theorem regular : tree.Regular := by decide

theorem opens : tree.Opens group ["group"] := ⟨rfl, rfl⟩

/-- Between the group and its second recipe there is none. -/
theorem not_fileAt_b (name : String) : ¬FileAt tree ["group", "b"] name := by
  have first : tree.at? ["group", "b", "recipe.yml"] = none := rfl
  have second : tree.at? ["group", "b", "recipe.yaml"] = none := rfl
  rintro (there | ⟨-, there⟩)
  · exact absurd (first.symm.trans there) (by simp)
  · exact absurd (second.symm.trans there) (by simp)

theorem fileAt_a : FileAt tree ["group", "a"] "recipe.yaml" := by
  have first : tree.at? ["group", "a", "recipe.yml"] = none := rfl
  exact .second (c := .text "name: a\n") (fun c there => absurd (first.symm.trans there) (by simp)) rfl

theorem fileAt_c : FileAt tree ["group", "b", "c"] "recipe.yml" := .first (c := .text "name: c\n") rfl

theorem contributes_a : Contributes tree ["group"] ["a"] :=
  (contributes_cons regular.closed).mpr ⟨rfl, by decide, .inl ⟨rfl, "recipe.yaml", fileAt_a⟩⟩

theorem contributes_c : Contributes tree ["group"] ["b", "c"] :=
  (contributes_cons regular.closed).mpr ⟨rfl, by decide, .inr ⟨not_fileAt_b,
    (contributes_cons regular.closed).mpr ⟨rfl, by decide, .inl ⟨rfl, "recipe.yml", fileAt_c⟩⟩⟩⟩

/-- The two recipes that count are found, and the hidden one is not. -/
theorem discovered : tree.Regular ∧ tree.Opens group ["group"] ∧
    ∃ files, discover tree group = .ok files ∧ files.Pairwise (fun p q => p.parent.parts < q.parent.parts) ∧
      group.under ["a", "recipe.yaml"] ∈ files ∧ group.under ["b", "c", "recipe.yml"] ∈ files ∧
      group.under [".cache", "recipe.yml"] ∉ files := by
  obtain ⟨files, found, order, known⟩ := discover_frontier regular opens
  refine ⟨regular, opens, files, found, order, ?_, ?_, fun mem => ?_⟩
  · exact (known _).mpr ⟨["a"], "recipe.yaml", contributes_a, fileAt_a, rfl⟩
  · exact (known _).mpr ⟨["b", "c"], "recipe.yml", contributes_c, fileAt_c, rfl⟩
  · obtain ⟨route, name, counts, -, same⟩ := (known _).mp mem
    have names : [".cache"] ++ ["recipe.yml"] = route ++ [name] :=
      List.append_cancel_left (congrArg Path.parts same)
    obtain ⟨rfl, -⟩ := List.append_inj' names rfl
    exact absurd rfl (counts.visible ".cache" List.mem_cons_self)

end Layered

end Scaffold
