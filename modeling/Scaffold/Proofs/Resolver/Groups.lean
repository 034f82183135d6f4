import Scaffold.Proofs.Recipe.Nesting
import Scaffold.Proofs.Resolver.Accounts

/-!
# Groups and what is in them

Words that lead to no recipe may name a group.  The resolver takes a directory for one as soon as some
recipe lies below it, and that of a cookbook already if the patterns of the cookbook find recipes,
wherever these lie.  What a group then runs is looked for in another way: below its directory, and not in
hidden directories.

On a directory the two agree unless there are recipes below it and all of them are hidden.  So a group
may have nothing to run, namely if all recipes below its directory are hidden, or if none is there and
its cookbook has its recipes elsewhere.
-/

namespace Scaffold

/-! ## Patterns that find something -/

/-- A pattern finds nothing but from a directory. -/
theorem Glob.isDirectory_of_find {t : Tree} {base : Path} {pattern : String} {paths : List Path}
    (h : find t base pattern = .ok paths) (some : paths ≠ []) : t.isDirectory base = true := by
  rw [find] at h
  obtain ⟨cs, -, found⟩ := bind_eq_ok h
  split at found
  next there => exact there
  next => exact absurd (Except.ok.inj found).symm some

theorem Kit.isDirectory_of_filesBy {t : Tree} {base : Path} {patterns : List String} {files : List Path}
    (h : filesBy t base patterns = .ok files) (some : files ≠ []) : t.isDirectory base = true := by
  by_contra elsewhere
  -- no pattern adds anything to what the ones before it found
  refine some (foldlM_induction (P := fun _ found => found = []) rfl ?_ h)
  intro _ pattern _ found found' _ step none
  dsimp only at step
  obtain ⟨paths, searched, step⟩ := bind_eq_ok step
  have nothing : paths = [] := by
    by_contra some
    exact elsewhere (Glob.isDirectory_of_find (mapError_eq_ok.mp searched) some)
  rw [none, nothing] at step
  exact (Except.ok.inj step).symm

/-- A cookbook whose patterns find recipes has a directory. -/
theorem Cookbook.isDirectory_of_recipes {t : Tree} {c : Cookbook} {recipes : Record Path}
    (h : c.recipes t = .ok recipes) (some : recipes ≠ []) : t.isDirectory c.path = true := by
  rw [Cookbook.recipes] at h
  obtain ⟨files, found, read⟩ := bind_eq_ok h
  refine Kit.isDirectory_of_filesBy found fun none => some ?_
  rw [none] at read
  exact (Except.ok.inj read).symm

namespace Resolver

/-! ## What the resolver takes for a group -/

/-- A path is taken for a group: recipes lie below it, or it is that of a cookbook in some kit, and the
patterns of the cookbook find recipes. -/
inductive Grouped (t : Tree) (r : Resolver) (p : Path) : Prop
  | nested : Recipe.isNestedIn t p = true → Grouped t r p
  | stocked {token name : String} {k : Kit} {c : Cookbook} {recipes : Record Path} :
      r.kits.get? token = some k → k.cookbook? t name = .ok (some c) → c.path = p →
      c.recipes t = .ok recipes → recipes ≠ [] → Grouped t r p

variable {t : Tree} {r : Resolver} {k : Kit} {c : Cookbook} {p : Path} {token name : String}
  {consumed rest tokens : List String} {g : Resolved}

theorem Grouped.opens (h : Grouped t r p) : ∃ x, t.Opens p x := by
  rw [← Tree.isDirectory_iff_opens]
  cases h with
  | nested below => exact (Bool.and_eq_true_iff.mp below).1
  | stocked _ _ here known some =>
    rw [← here]
    exact Cookbook.isDirectory_of_recipes known some

theorem nested_of_walk? {base : Path} {w : Walk} (h : walk? t base tokens = some w)
    (group : w.isGroup = true) : Recipe.isNestedIn t w.path = true := by
  obtain ⟨-, -, there, here, -⟩ := walk?_eq_group.mp ⟨h, group⟩
  rw [here]
  exact there.nested

theorem nested_of_inDirectories? (h : r.inDirectories? t tokens = some g) (group : g.isGroup = true) :
    Recipe.isNestedIn t g.path = true := by
  obtain ⟨w, best, isGroup, path, -⟩ := inDirectories?_eq_some h
  obtain ⟨-, D, -, -, walked, -⟩ := bestWalk?_eq_some best
  rw [isGroup] at group
  rw [path]
  exact nested_of_walk? walked group

/-- In a cookbook a group is found only where the words walk to no recipe, and then it is the one they
walk to or that of the cookbook. -/
theorem groupIn_of_inCookbook (h : inCookbook t k c consumed rest = .ok (some g))
    (group : g.isGroup = true) : (∀ w : Walk, walk? t c.path rest = some w → w.isGroup = true) ∧
      groupIn t k c consumed rest (walk? t c.path rest) = .ok (some g) := by
  rcases recipe_or_groups t c.path rest with ⟨file, d, walked⟩ | groups
  case inl =>
    rw [inCookbook_of_walked walked] at h
    obtain rfl := Option.some.inj (Except.ok.inj h)
    cases group
  case inr =>
    rw [inCookbook_of_not_walked groups] at h
    rcases declared : declared? t c rest with e | _ | file <;> rw [declared] at h
    case error => cases h
    case ok.some =>
      obtain rfl := Option.some.inj (Except.ok.inj h)
      cases group
    case ok.none =>
      dsimp only at h
      rcases standing : standing? c.default (c.recipe? t) with e | _ | file <;> rw [standing] at h
      case error => cases h
      case ok.some =>
        obtain rfl := Option.some.inj (Except.ok.inj h)
        cases group
      case ok.none => exact ⟨groups, h⟩

theorem grouped_of_inCookbook (kit : r.kits.get? token = some k)
    (cookbook : k.cookbook? t name = .ok (some c)) (h : inCookbook t k c consumed rest = .ok (some g))
    (group : g.isGroup = true) : Grouped t r g.path := by
  obtain ⟨groups, found⟩ := groupIn_of_inCookbook h group
  cases walked : walk? t c.path rest with
  | some w =>
    rw [walked] at found
    obtain rfl := Option.some.inj (Except.ok.inj found)
    exact .nested (nested_of_walk? walked (groups w walked))
  | none =>
    rw [walked, groupIn] at found
    obtain ⟨recipes, known, found⟩ := bind_eq_ok found
    split at found
    next some =>
      obtain rfl := Option.some.inj (Except.ok.inj found)
      rcases Bool.or_eq_true_iff.mp some with own | nested
      · exact .stocked kit cookbook rfl known (by simpa using own)
      · exact .nested nested
    next => cases found

theorem grouped_of_inKit (kit : r.kits.get? token = some k)
    (h : inKit t k token rest = .ok (some g)) (group : g.isGroup = true) : Grouped t r g.path := by
  rcases named : named? t k rest with e | _ | c
  case error =>
    rw [inKit_of_error named] at h
    cases h
  case ok.some =>
    cases rest with
    | nil => cases named
    | cons word tail =>
      rw [inKit_of_named named] at h
      exact grouped_of_inCookbook kit named h group
  case ok.none =>
    rw [inKit_of_not_named named] at h
    cases walked : walk? t k.path rest with
    | some w =>
      rw [walked] at h
      obtain rfl := Option.some.inj (Except.ok.inj h)
      exact .nested (nested_of_walk? walked group)
    | none =>
      rw [walked] at h
      dsimp only at h
      rcases standing : standing? k.default (k.cookbook? t) with e | _ | c <;> rw [standing] at h
      case error => cases h
      case ok.some =>
        obtain ⟨name, -, -, cookbook⟩ := standing?_eq_some.mp standing
        exact grouped_of_inCookbook kit cookbook h group
      case ok.none =>
        dsimp only at h
        split at h
        next here =>
          obtain rfl := Option.some.inj (Except.ok.inj h)
          exact .nested (Bool.and_eq_true_iff.mp here).2
        next => cases h

theorem grouped_of_resolve (h : r.resolve t tokens = .ok (some g)) (group : g.isGroup = true) :
    Grouped t r g.path := by
  obtain ⟨words, once, -⟩ := resolve_eq_some h
  cases words with
  | nil => cases once
  | cons token rest =>
    rw [resolveOnce] at once
    split at once
    next => exact .nested ((direct?_found (Except.ok.inj once)).2 group)
    next =>
      rcases byName_eq_some once with ⟨k, kit, inside⟩ | outside
      · exact grouped_of_inKit kit inside group
      · exact .nested (nested_of_inDirectories? outside group)

/-! ## What a group has to run -/

open Recipe in
/-- A directory is taken for one with recipes below it exactly when its group has some, unless recipes
lie below it and all of them are hidden.  The directory of every group that the resolver finds is there,
and the group has recipes to run exactly if one that is not hidden lies below. -/
theorem groups_filled_iff (regular : t.Regular) :
    (∀ d x, t.Opens d x → ((isNestedIn t d = true ↔ Finds t d) ↔
      ((∃ route, Below t x route) → ∃ route, Below t x route ∧ Visible route))) ∧
    ∀ (r : Resolver) tokens g, r.resolve t tokens = .ok (some g) → g.isGroup = true →
      Grouped t r g.path ∧ ∃ x, t.Opens g.path x ∧
        (Finds t g.path ↔ ∃ route, Below t x route ∧ Visible route) := by
  constructor
  · intro d x opens
    rw [isNestedIn_iff regular opens, finds_iff regular opens]
    refine ⟨Iff.mp, fun shown => ⟨shown, ?_⟩⟩
    rintro ⟨route, below, -⟩
    exact ⟨route, below⟩
  · intro r tokens g found group
    have grouped := grouped_of_resolve found group
    obtain ⟨x, opens⟩ := grouped.opens
    exact ⟨grouped, x, opens, finds_iff regular opens⟩

end Resolver

/-! ## Groups with nothing to run -/

namespace Veiled

open Recipe Resolver

/-- Three directories that are taken for groups.  One has a recipe to run.  In another the only recipe is
hidden, and the third is a cookbook that has its only recipe in its own directory. -/
def tree : Tree where
  entries := [
    (["forms"], .directory), (["forms", "input"], .directory),
    (["forms", "input", "recipe.yml"], .file (.text "name: input\n")),
    (["drafts"], .directory), (["drafts", ".old"], .directory),
    (["drafts", ".old", "recipe.yml"], .file (.text "name: old\n")),
    (["acme"], .directory), (["acme", "web"], .directory),
    (["acme", "web", "cookbook.yml"], .file (.text "recipes: ./recipe.yml\n")),
    (["acme", "web", "recipe.yml"], .file (.text "name: web\n"))]

def kit : Kit := { name := "acme", path := .ofString "/acme", patterns := ["./*/cookbook.yml"] }

def resolver : Resolver :=
  { kits := [("acme", kit)], searchDirectories := [.ofString "/"], here := .ofString "/" }

def drafts : Resolved := ⟨true, .ofString "/drafts", ["drafts"], [], none, none, none⟩

def web : Resolved := ⟨true, .ofString "/acme/web", ["acme", "web"], [], "acme", "web", none⟩

theorem regular : tree.Regular := by decide

theorem opens_forms : tree.Opens (.ofString "/forms") ["forms"] := ⟨rfl, rfl⟩

theorem opens_drafts : tree.Opens drafts.path ["drafts"] := ⟨rfl, rfl⟩

theorem opens_web : tree.Opens web.path ["acme", "web"] := ⟨rfl, rfl⟩

theorem resolved_drafts : resolver.resolve tree ["drafts"] = .ok (some drafts) :=
  ok_of_toOption (by decide +kernel)

theorem resolved_web : resolver.resolve tree ["acme", "web"] = .ok (some web) :=
  ok_of_toOption (by decide +kernel)

/-- The recipe of the first directory is not hidden. -/
theorem below_forms : Below tree ["forms"] ["input"] where
  further := List.cons_ne_nil _ _
  directory := rfl
  recipe := ⟨"recipe.yml", .first (c := .text "name: input\n") rfl⟩

theorem below_drafts : Below tree ["drafts"] [".old"] where
  further := List.cons_ne_nil _ _
  directory := rfl
  recipe := ⟨"recipe.yml", .first (c := .text "name: old\n") rfl⟩

theorem eq_of_below_drafts {route : List String} (below : Below tree ["drafts"] route) :
    route = [".old"] := by
  have mem := (regular.mem_entries_iff (by simp)).mpr below.directory
  have further := below.further
  simpa [tree, further] using mem

/-- The hidden recipe makes its directory a group, which has nothing to run. -/
theorem hidden_counted : tree.Regular ∧ resolver.resolve tree ["drafts"] = .ok (some drafts) ∧
    drafts.isGroup = true ∧ isNestedIn tree drafts.path = true ∧ ¬Finds tree drafts.path := by
  refine ⟨regular, resolved_drafts, rfl, (isNestedIn_iff regular opens_drafts).mpr ⟨_, below_drafts⟩, ?_⟩
  rw [finds_iff regular opens_drafts]
  rintro ⟨route, below, visible⟩
  obtain rfl := eq_of_below_drafts below
  exact visible ".old" List.mem_cons_self rfl

/-- No directory lies in that of the cookbook. -/
theorem not_below_web (route : List String) : ¬Below tree ["acme", "web"] route := fun below => by
  have mem := (regular.mem_entries_iff (by simp)).mpr below.directory
  exact below.further (by simpa [tree] using mem)

/-- Of the first directory the two ways agree, and the cookbook has nothing to run. -/
theorem agreed_and_empty : tree.Regular ∧
    (isNestedIn tree (.ofString "/forms") = true ↔ Finds tree (.ofString "/forms")) ∧
    resolver.resolve tree ["acme", "web"] = .ok (some web) ∧ web.isGroup = true ∧
    Grouped tree resolver web.path ∧ ¬Finds tree web.path := by
  obtain ⟨agree, groups⟩ := groups_filled_iff regular
  obtain ⟨grouped, x, opens, filled⟩ := groups resolver ["acme", "web"] web resolved_web rfl
  obtain rfl : ["acme", "web"] = x := Except.ok.inj (opens_web.located.symm.trans opens.located)
  refine ⟨regular, (agree _ _ opens_forms).mpr fun _ => ?_, resolved_web, rfl, grouped, fun finds => ?_⟩
  · exact ⟨["input"], below_forms, by unfold Visible; decide⟩
  · obtain ⟨route, below, -⟩ := filled.mp finds
    exact not_below_web route below

end Veiled

end Scaffold
