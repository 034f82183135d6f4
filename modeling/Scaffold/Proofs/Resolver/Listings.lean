import Scaffold.Proofs.Resolver.Accounts
import Scaffold.Proofs.Resolver.Cookbooks
import Scaffold.Proofs.Value.Records

/-!
# Recipes that are listed

A kit lists its cookbooks under their names, and of each the recipes in directories that hold one.  What
is listed is there to be run: the name of the kit, the name of the cookbook and the name of the recipe,
with whatever words behind them.

The listing goes through all cookbooks that are entered, also under the names of their directories,
while the words look up the name alone.  So where two cookbooks have the same name the listing under it
may be that of one of them and the words lead into the other.  A listed recipe can then be run exactly
if the other cookbook has a recipe of this name as well, by its patterns or in a directory of this name.
-/

namespace Scaffold

/-! ## What a kit lists -/

namespace Cookbook

variable {t : Tree} {c : Cookbook} {name : String}

/-- A cookbook has a recipe of a name that can be run. -/
def Shows (t : Tree) (c : Cookbook) (name : String) : Prop :=
  ∃ recipes file, c.recipes t = .ok recipes ∧ (name, file) ∈ recipes ∧
    (Recipe.fileIn? t file.parent).isSome = true

/-- What is shown can be looked up. -/
theorem Shows.recipe? (h : c.Shows t name) : ∃ file, c.recipe? t name = .ok (some file) := by
  obtain ⟨recipes, file, known, mem, -⟩ := h
  have there : recipes.has name = true := by
    rw [Record.has_eq_true_iff]
    exact List.mem_map_of_mem mem
  obtain ⟨found, looked⟩ := Option.isSome_iff_exists.mp there
  refine ⟨found, ?_⟩
  rw [Cookbook.recipe?, known, ← looked]
  rfl

end Cookbook

namespace Kit

variable {t : Tree} {k : Kit} {cs : List Cookbook} {l : Record (List String)} {name : String}
  {names : List String}

theorem mem_enter {found : Record Cookbook} {c : Cookbook} {e : String × Cookbook}
    (h : e ∈ enter found c) : e.2 = c ∨ e ∈ found := by
  rw [enter, Record.putNew] at h
  have put (h : e ∈ found.put c.name c) : e.2 = c ∨ e ∈ found :=
    (Record.mem_put h).imp_left fun same => by rw [same]
  split at h
  next => exact put h
  next =>
    rcases Record.mem_put h with rfl | h
    · exact .inl rfl
    · exact put h

/-- Only cookbooks that were discovered are entered. -/
theorem mem_entered {e : String × Cookbook} (h : e ∈ entered cs) : e.2 ∈ cs := by
  induction cs using List.reverseRecOn with
  | nil => cases h
  | append_singleton cs c ih =>
    rw [entered_concat] at h
    rcases mem_enter h with same | mem
    · rw [same]
      exact List.mem_append_right cs List.mem_cons_self
    · exact List.mem_append_left _ (ih mem)

/-- Cookbooks of which those are passed over whose directory came up before. -/
def onePerDirectory (all : Record Cookbook) : List Cookbook :=
  all.foldl (fun kept c => if kept.any (·.path == c.2.path) then kept else kept ++ [c.2]) []

theorem mem_onePerDirectory {all : Record Cookbook} {c : Cookbook} (h : c ∈ onePerDirectory all) :
    ∃ e ∈ all, e.2 = c := by
  induction all using List.reverseRecOn with
  | nil => cases h
  | append_singleton all e ih =>
    have before (h : c ∈ onePerDirectory all) : ∃ e' ∈ all ++ [e], e'.2 = c := by
      obtain ⟨e', mem, same⟩ := ih h
      exact ⟨e', List.mem_append_left _ mem, same⟩
    rw [onePerDirectory, List.foldl_append, ← onePerDirectory] at h
    dsimp only [List.foldl_cons, List.foldl_nil] at h
    split at h
    next => exact before h
    next =>
      rcases List.mem_append.mp h with h | h
      · exact before h
      · obtain rfl := List.mem_singleton.mp h
        exact ⟨e, List.mem_append_right all List.mem_cons_self, rfl⟩

/-- What is listed under a name are the recipes of a cookbook that was discovered and has this name. -/
theorem mem_listing (found : k.discovered t = .ok cs) (listed : k.listing t = .ok l)
    (mem : (name, names) ∈ l) :
    ∃ shown ∈ cs, shown.name = name ∧ ∀ r, r ∈ names ↔ shown.Shows t r := by
  rw [listing, cookbooks_eq, found] at listed
  refine foldlM_induction (P := fun done l => ∀ name names, (name, names) ∈ l →
    ∃ shown ∈ done, shown.name = name ∧ ∀ r, r ∈ names ↔ shown.Shows t r) ?start ?step listed
    name names mem |>.imp ?_
  case start => exact fun _ _ none => absurd none List.not_mem_nil
  case step =>
    intro done c _ l l' _ stepped before name names mem
    obtain ⟨recipes, known, put⟩ := bind_eq_ok stepped
    cases put
    rcases Record.mem_put mem with same | mem
    · obtain ⟨rfl, rfl⟩ := Prod.mk.inj same
      refine ⟨c, List.mem_append_right done List.mem_cons_self, rfl, fun r => ?_⟩
      rw [Tree.sorted, List.mem_mergeSort, List.mem_map]
      constructor
      · rintro ⟨⟨r, file⟩, runnable, rfl⟩
        obtain ⟨mem, there⟩ := List.mem_filter.mp runnable
        exact ⟨recipes, file, known, mem, there⟩
      · rintro ⟨recipes', file, known', mem, there⟩
        obtain rfl : recipes = recipes' := Except.ok.inj (known.symm.trans known')
        exact ⟨(r, file), List.mem_filter.mpr ⟨mem, there⟩, rfl⟩
    · obtain ⟨shown, earlier, rest⟩ := before name names mem
      exact ⟨shown, List.mem_append_left _ earlier, rest⟩
  · rintro shown ⟨kept, rest⟩
    obtain ⟨e, mem, rfl⟩ := mem_onePerDirectory kept
    exact ⟨mem_entered mem, rest⟩

end Kit

/-! ## What can be run -/

/-- One word that leads to a recipe leads to one whatever stands behind it. -/
theorem Cookbook.Offers.behind {t : Tree} {c : Cookbook} {word : String} {file : Path}
    (h : c.Offers t [word] 1 file) (rest : List String) : c.Offers t (word :: rest) 1 file := by
  cases h with
  | walked there =>
    refine .walked ⟨⟨there.names.some, by simp, ?_⟩, ?_⟩
    · simpa using there.names.plain
    · simpa [Resolver.below] using there.file
  | declared named => exact .declared named

namespace Resolver

variable {t : Tree} {k : Kit} {r : Resolver} {token : String} {rest : List String}
  {found : Resolved}

/-- What a kit gives for the words behind its name is what they are resolved to. -/
theorem resolve_of_inKit (kit : r.kits.get? token = some k) (plain : looksLikePath token = false)
    (h : inKit t k token rest = .ok (some found)) :
    r.resolve t (token :: rest) = .ok (some found) := by
  refine resolve_of_resolveOnce ?_
  rw [resolveOnce, plain, if_neg Bool.false_ne_true, byName, kit]
  dsimp only
  rw [h]
  rfl

end Resolver

namespace Kit

variable {t : Tree} {k : Kit} {cs : List Cookbook} {l : Record (List String)}
  {token book name : String}

/-- Behind the name of a kit, the name of a cookbook and that of a recipe lead to a recipe, wherever else
recipes are looked for and whatever words stand behind; and at least these three are used up. -/
def Runs (t : Tree) (k : Kit) (token book name : String) : Prop :=
  ∀ r : Resolver, r.kits.get? token = some k → ∀ extra, ∃ found,
    r.resolve t (token :: book :: name :: extra) = .ok (some found) ∧ found.isGroup = false ∧
      [token, book, name] <+: found.consumed

/-- They do so exactly if the cookbook that the name finds has a recipe of this name, by its patterns or
in its directories. -/
theorem runs_iff (plain : Resolver.looksLikePath token = false) {c : Cookbook}
    (taken : k.cookbook? t book = .ok (some c)) :
    k.Runs t token book name ↔ ∃ file, c.Offers t [name] 1 file := by
  have inside (rest : List String) : Resolver.inKit t k token (book :: rest) =
      Resolver.inCookbook t k c [token, book] rest := by
    have named : Resolver.named? t k (book :: rest) = .ok (some c) := taken
    exact Resolver.inKit_of_named named
  constructor
  · intro runs
    -- a resolver that looks nowhere else
    let r : Resolver := { kits := [(token, k)], here := .ofString "/" }
    have kit : r.kits.get? token = some k := by simp [r, Record.get?_cons]
    obtain ⟨found, resolved, recipe, front⟩ := runs r kit []
    obtain ⟨words, once, rfl | apart⟩ := Resolver.resolve_eq_some resolved
    case inr => cases apart
    rw [Resolver.resolveOnce, plain, if_neg Bool.false_ne_true] at once
    rcases Resolver.byName_eq_some once with ⟨k', kit', given⟩ | elsewhere
    case inr => cases elsewhere
    obtain rfl : k = k' := Option.some.inj (kit.symm.trans kit')
    rw [inside] at given
    obtain ⟨d, counted, leads, -⟩ := Resolver.inCookbook_found given
    have one : d = 1 := by
      have length := front.length_le
      have within := counted.within
      rw [counted.consumed, List.length_append, List.length_take] at length
      simp only [List.length_cons, List.length_nil] at length within
      omega
    obtain rfl := one
    exact ⟨found.path, (leads recipe).1⟩
  · rintro ⟨file, offers⟩ r kit extra
    have offers := offers.behind extra
    obtain ⟨found, given⟩ : ∃ found, Resolver.inCookbook t k c [token, book] (name :: extra) =
      .ok (some found) := Resolver.inCookbook_total offers
    obtain ⟨d, counted, leads, groups⟩ := Resolver.inCookbook_found given
    have recipe : found.isGroup = false := by
      rw [Bool.eq_false_iff]
      exact fun group => groups group 1 file offers
    have some : 1 ≤ d := (leads recipe).2 1 file offers
    refine ⟨found, Resolver.resolve_of_inKit kit plain ((inside _).trans given), recipe, ?_⟩
    obtain ⟨n, rfl⟩ := Nat.exists_eq_add_of_le' some
    rw [counted.consumed]
    exact ⟨extra.take n, rfl⟩

/-- What a kit lists under a name are the recipes of a cookbook of this name, while the words take the
last cookbook of this name that is discovered.  A listed recipe can be run exactly if the cookbook that
is taken has a recipe of this name as well.  So where no two cookbooks have the name, all that is listed
under it can be run. -/
theorem listed_runs_iff (listed : k.listing t = .ok l) (plain : Resolver.looksLikePath token = false) :
    ∃ cs, k.discovered t = .ok cs ∧ ∀ book names, (book, names) ∈ l →
      ∃ shown ∈ cs, ∃ taken ∈ cs, shown.name = book ∧ taken.name = book ∧
        k.cookbook? t book = .ok (some taken) ∧ (∀ name, name ∈ names ↔ shown.Shows t name) ∧
        (∀ name ∈ names, k.Runs t token book name ↔ ∃ file, taken.Offers t [name] 1 file) ∧
        ((∀ c ∈ cs, ∀ d ∈ cs, c.name = book → d.name = book → c = d) →
          ∀ name ∈ names, k.Runs t token book name) := by
  obtain ⟨cs, found⟩ : ∃ cs, k.discovered t = .ok cs := by
    rw [listing, cookbooks_eq] at listed
    cases found : k.discovered t with
    | error e =>
      rw [found] at listed
      cases listed
    | ok cs => exact ⟨cs, rfl⟩
  refine ⟨cs, found, fun book names mem => ?_⟩
  obtain ⟨shown, discovered, named, shows⟩ := mem_listing found listed mem
  -- the name finds a cookbook, since at least the one that is shown has it
  obtain ⟨taken, last⟩ : ∃ taken, cs.reverse.find? (·.name == book) = some taken :=
    Option.isSome_iff_exists.mp (List.find?_isSome.mpr ⟨shown, by simpa using discovered, by simp [named]⟩)
  have there : taken ∈ cs := List.mem_reverse.mp (List.mem_of_find?_eq_some last)
  have name : taken.name = book := by simpa using List.find?_some last
  have finds : k.cookbook? t book = .ok (some taken) := by
    rw [cookbook?_eq found, last, Option.some_or]
  refine ⟨shown, discovered, taken, there, named, name, finds, shows,
    fun _ _ => runs_iff plain finds, fun once r mem => ?_⟩
  obtain rfl : shown = taken := once shown discovered taken there named name
  obtain ⟨file, looked⟩ := ((shows r).mp mem).recipe?
  exact (runs_iff plain finds).mpr ⟨file, .declared looked⟩

end Kit

/-! ## Two cookbooks of one name -/

namespace Namesakes

open Resolver

/-- Two cookbooks that have the same name and a recipe each. -/
def tree : Tree where
  entries := [
    (["acme"], .directory),
    (["acme", "alpha"], .directory),
    (["acme", "alpha", "cookbook.yml"], .file (.text "name: web\n")),
    (["acme", "alpha", "api"], .directory),
    (["acme", "alpha", "api", "recipe.yml"], .file (.text "name: api\n")),
    (["acme", "beta"], .directory),
    (["acme", "beta", "cookbook.yml"], .file (.text "name: web\n")),
    (["acme", "beta", "page"], .directory),
    (["acme", "beta", "page", "recipe.yml"], .file (.text "name: page\n"))]

def kit : Kit where
  name := "acme"
  path := .ofString "/acme"
  patterns := ["./alpha/cookbook.yml", "./beta/cookbook.yml"]

def resolver : Resolver := { kits := [("acme", kit)], here := .ofString "/" }

/-- The second cookbook as a group, with the name of the recipe left over. -/
def beta : Resolved :=
  ⟨true, .ofString "/acme/beta", ["acme", "web"], ["api"], "acme", "web", none⟩

theorem listed : kit.listing tree = .ok [("web", ["api"])] := ok_of_toOption (by decide +kernel)

theorem resolved : resolver.resolve tree ["acme", "web", "api"] = .ok (some beta) :=
  ok_of_toOption (by decide +kernel)

/-- The recipe of the first cookbook is listed, but its words lead to the second cookbook as a group. -/
theorem listed_not_run : kit.listing tree = .ok [("web", ["api"])] ∧
    resolver.kits.get? "acme" = some kit ∧ looksLikePath "acme" = false ∧
    resolver.resolve tree ["acme", "web", "api"] = .ok (some beta) ∧ beta.isGroup = true ∧
    ¬kit.Runs tree "acme" "web" "api" := by
  refine ⟨listed, rfl, by decide, resolved, rfl, fun runs => ?_⟩
  obtain ⟨found, same, recipe, -⟩ := runs resolver rfl []
  rw [resolved] at same
  obtain rfl := Option.some.inj (Except.ok.inj same)
  cases recipe

/-- The cookbook that is listed has the recipe, and the one that is taken has none of this name. -/
theorem taken_lacks_it : kit.listing tree = .ok [("web", ["api"])] ∧ looksLikePath "acme" = false ∧
    ∃ shown taken : Cookbook, shown.name = "web" ∧ taken.name = "web" ∧
      kit.cookbook? tree "web" = .ok (some taken) ∧ shown.Shows tree "api" ∧
      ¬∃ file, taken.Offers tree ["api"] 1 file := by
  have plain : looksLikePath "acme" = false := by decide
  obtain ⟨cs, -, lists⟩ := Kit.listed_runs_iff listed plain
  obtain ⟨shown, -, taken, -, name, name', finds, shows, runs, -⟩ := lists "web" ["api"] (by simp)
  exact ⟨listed, plain, shown, taken, name, name', finds, (shows "api").mp (by simp),
    fun offers => listed_not_run.2.2.2.2.2 ((runs "api" (by simp)).mpr offers)⟩

end Namesakes

end Scaffold
