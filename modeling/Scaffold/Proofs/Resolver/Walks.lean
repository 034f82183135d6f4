import Scaffold.Proofs.Path.Names
import Scaffold.Proofs.Tree.Places
import Scaffold.Resolution

/-!
# Walks into directories

Words lead into a directory as long as they are plain names.  Of the directories on the way those
count that hold a recipe, and where none does those with a recipe somewhere below them; of several the
deepest.  What a walk finds is stated on the places themselves: which words name a directory, and what
the directory holds.
-/

namespace Scaffold

/-- The recipe file of a directory is the first one there of the names for such files. -/
theorem Recipe.fileIn?_eq_some {t : Tree} {p file : Path} :
    Recipe.fileIn? t p = some file ↔
      ∃ before name behind, Recipe.fileNames = before ++ name :: behind ∧
        file = ⟨p.root, p.parts ++ [name]⟩ ∧ t.isFile file = true ∧
        ∀ other ∈ before, t.isFile ⟨p.root, p.parts ++ [other]⟩ = false := by
  have child : Recipe.fileNames.map p.child =
      Recipe.fileNames.map fun name => ⟨p.root, p.parts ++ [name]⟩ := by
    refine List.map_congr_left fun name mem => ?_
    have proper : ∀ n ∈ Recipe.fileNames, Path.IsName n :=
      fun n hn => by
        simp only [Recipe.fileNames, List.mem_cons, List.not_mem_nil, or_false] at hn
        rcases hn with rfl | rfl <;> exact ⟨by decide, by decide, by decide⟩
    exact (proper name mem).child p
  rw [Recipe.fileIn?, child, List.find?_map, Option.map_eq_some_iff]
  constructor
  · rintro ⟨name, found, rfl⟩
    obtain ⟨there, before, behind, split, absent⟩ := List.find?_eq_some_iff_append.mp found
    exact ⟨before, name, behind, split, rfl, there, fun other mem => by simpa using absent other mem⟩
  · rintro ⟨before, name, behind, split, rfl, there, absent⟩
    refine ⟨name, List.find?_eq_some_iff_append.mpr ⟨there, before, behind, split, ?_⟩, rfl⟩
    exact fun other mem => by simpa using absent other mem

namespace Resolver

variable {t : Tree} {base : Path} {words : List String} {d e : Nat}

/-! ## Words that name directories -/

theorem isPlain_isName {w : String} (h : isPlain w = true) : Path.IsName w := by
  simp only [isPlain, Bool.and_eq_true, bne_iff_ne, ne_eq, Bool.not_eq_true'] at h
  obtain ⟨⟨⟨⟨some, point⟩, -⟩, slash⟩, -⟩ := h
  refine ⟨some, point, fun mem => ?_⟩
  have occurs : Text.contains "/" w = true := Text.occurs_singleton.mpr mem
  rw [slash] at occurs
  cases occurs

/-- The first `d` words name a directory. -/
structure Names (words : List String) (d : Nat) : Prop where
  some : 0 < d
  within : d ≤ words.length
  plain : ∀ w ∈ words.take d, isPlain w = true

/-- The directory that the first `d` words name below `base`. -/
def below (base : Path) (words : List String) (d : Nat) : Path :=
  ⟨base.root, base.parts ++ words.take d⟩

theorem descend_eq (base : Path) (h : ∀ w ∈ words, isPlain w = true) :
    descend base words = ⟨base.root, base.parts ++ words⟩ := by
  induction words generalizing base with
  | nil => simp [descend]
  | cons w words ih =>
    obtain ⟨first, rest⟩ := List.forall_mem_cons.mp h
    have next : descend base (w :: words) = descend (base.child w) words := rfl
    rw [next, ih _ rest, (isPlain_isName first).child, List.append_assoc, List.singleton_append]

theorem Names.descend (h : Names words d) (base : Path) :
    descend base (words.take d) = below base words d := descend_eq base h.plain

theorem mem_depths : d ∈ depths words ↔ Names words d := by
  simp only [depths, List.mem_reverse, List.mem_map, List.mem_range]
  constructor
  · rintro ⟨n, less, rfl⟩
    have front : words.take (n + 1) <+: words.takeWhile isPlain :=
      List.prefix_of_prefix_length_le (List.take_prefix _ _) (List.takeWhile_prefix _)
        (Nat.le_trans (List.length_take_le _ _) less)
    refine ⟨Nat.succ_pos n, Nat.le_trans less (List.takeWhile_prefix _).length_le, fun w mem => ?_⟩
    exact List.all_eq_true.mp List.all_takeWhile w (front.subset mem)
  · intro names
    have front : words.take d <+: words.takeWhile isPlain := by
      rw [← List.take_append_drop d words, List.takeWhile_append_of_pos names.plain,
        List.take_append_drop]
      exact List.prefix_append _ _
    have length := front.length_le
    rw [List.length_take, Nat.min_eq_left names.within] at length
    have some := names.some
    exact ⟨d - 1, by omega, by omega⟩

/-- The numbers of words come with the greatest first, so the first that serves is the greatest. -/
theorem findSome?_depths {α : Type} {f : Nat → Option α} {a : α} :
    (depths words).findSome? f = some a ↔
      ∃ d, Names words d ∧ f d = some a ∧ ∀ e, Names words e → d < e → f e = none := by
  have ordered : (depths words).Pairwise (· > ·) := by
    rw [depths, List.pairwise_reverse, List.pairwise_map]
    exact List.pairwise_lt_range.imp fun less => Nat.succ_lt_succ less
  rw [List.findSome?_eq_some_iff]
  constructor
  · rintro ⟨before, d, behind, split, found, none⟩
    rw [split, List.pairwise_append, List.pairwise_cons] at ordered
    refine ⟨d, mem_depths.mp (by simp [split]), found, fun e names greater => ?_⟩
    have mem := mem_depths.mpr names
    rw [split, List.mem_append, List.mem_cons] at mem
    rcases mem with mem | rfl | mem
    · exact none e mem
    · omega
    · have less := ordered.2.1.1 e mem
      omega
  · rintro ⟨d, names, found, none⟩
    obtain ⟨before, behind, split⟩ := List.append_of_mem (mem_depths.mpr names)
    refine ⟨before, d, behind, split, found, fun e mem => ?_⟩
    have greater : e > d := by
      rw [split, List.pairwise_append] at ordered
      exact ordered.2.2 e mem d List.mem_cons_self
    exact none e (mem_depths.mp (by simp [split, mem])) greater

theorem findSome?_depths_eq_none {α : Type} {f : Nat → Option α} :
    (depths words).findSome? f = none ↔ ∀ e, Names words e → f e = none := by
  rw [List.findSome?_eq_none_iff]
  exact forall_congr' fun e => by rw [mem_depths]

/-! ## What lies in them -/

/-- The first `d` words name a directory below `base`, and the recipe of that directory is in `file`. -/
structure RecipeAt (t : Tree) (base : Path) (words : List String) (d : Nat) (file : Path) : Prop where
  names : Names words d
  file : Recipe.fileIn? t (below base words d) = some file

/-- The first `d` words name a directory below `base`, and there are recipes below that directory. -/
structure GroupAt (t : Tree) (base : Path) (words : List String) (d : Nat) : Prop where
  names : Names words d
  nested : Recipe.isNestedIn t (below base words d) = true

variable {file : Path}

/-- Recipes do not lie outside the directory where the walk began. -/
theorem RecipeAt.path (h : RecipeAt t base words d file) :
    t.isFile file = true ∧ ∃ name ∈ Recipe.fileNames,
      file = ⟨base.root, base.parts ++ words.take d ++ [name]⟩ := by
  obtain ⟨before, name, behind, split, rfl, there, -⟩ := Recipe.fileIn?_eq_some.mp h.file
  exact ⟨there, name, by simp [split], rfl⟩

/-- The deepest directory with a recipe. -/
def deepestRecipe? (t : Tree) (base : Path) (words : List String) : Option Walk :=
  (depths words).findSome? fun d =>
    (Recipe.fileIn? t (descend base (words.take d))).map fun file => ⟨false, file, d⟩

/-- The deepest directory with recipes below it. -/
def deepestGroup? (t : Tree) (base : Path) (words : List String) : Option Walk :=
  (depths words).findSome? fun d =>
    if Recipe.isNestedIn t (descend base (words.take d)) then
      some ⟨true, descend base (words.take d), d⟩
    else none

theorem walk?_eq (t : Tree) (base : Path) (words : List String) :
    walk? t base words = (deepestRecipe? t base words).or (deepestGroup? t base words) := rfl

theorem deepestRecipe?_eq_some {w : Walk} :
    deepestRecipe? t base words = some w ↔
      w.isGroup = false ∧ RecipeAt t base words w.depth w.path ∧
        ∀ e f, RecipeAt t base words e f → e ≤ w.depth := by
  rw [deepestRecipe?, findSome?_depths]
  constructor
  · rintro ⟨d, names, found, none⟩
    obtain ⟨file, there, rfl⟩ := Option.map_eq_some_iff.mp found
    rw [names.descend] at there
    refine ⟨rfl, ⟨names, there⟩, fun e f deeper => ?_⟩
    by_contra less
    have absent := none e deeper.names (by simpa using less)
    rw [deeper.names.descend, deeper.file] at absent
    cases absent
  · obtain ⟨isGroup, file, d⟩ := w
    dsimp only
    rintro ⟨rfl, there, deepest⟩
    refine ⟨d, there.names, by rw [there.names.descend, there.file]; rfl, fun e names less => ?_⟩
    rw [names.descend, Option.map_eq_none_iff, Option.eq_none_iff_forall_ne_some]
    intro f deeper
    have le := deepest e f ⟨names, deeper⟩
    omega

theorem deepestRecipe?_eq_none :
    deepestRecipe? t base words = none ↔ ∀ e f, ¬RecipeAt t base words e f := by
  rw [deepestRecipe?, findSome?_depths_eq_none]
  constructor
  · intro none e f there
    have absent := none e there.names
    rw [there.names.descend, there.file] at absent
    cases absent
  · intro none e names
    rw [names.descend, Option.map_eq_none_iff, Option.eq_none_iff_forall_ne_some]
    exact fun f there => none e f ⟨names, there⟩

theorem deepestGroup?_eq_some {w : Walk} :
    deepestGroup? t base words = some w ↔
      w.isGroup = true ∧ GroupAt t base words w.depth ∧ w.path = below base words w.depth ∧
        ∀ e, GroupAt t base words e → e ≤ w.depth := by
  rw [deepestGroup?, findSome?_depths]
  constructor
  · rintro ⟨d, names, found, none⟩
    rw [names.descend] at found
    split at found
    next nested =>
      obtain rfl := Option.some.inj found
      refine ⟨rfl, ⟨names, nested⟩, rfl, fun e deeper => ?_⟩
      by_contra less
      have absent := none e deeper.names (by simpa using less)
      rw [deeper.names.descend, if_pos deeper.nested] at absent
      cases absent
    next => cases found
  · obtain ⟨isGroup, p, d⟩ := w
    dsimp only
    rintro ⟨rfl, there, rfl, deepest⟩
    refine ⟨d, there.names, by rw [there.names.descend, if_pos there.nested], fun e names less => ?_⟩
    rw [names.descend, if_neg]
    intro nested
    have le := deepest e ⟨names, nested⟩
    omega

theorem deepestGroup?_eq_none :
    deepestGroup? t base words = none ↔ ∀ e, ¬GroupAt t base words e := by
  rw [deepestGroup?, findSome?_depths_eq_none]
  constructor
  · intro none e there
    have absent := none e there.names
    rw [there.names.descend, if_pos there.nested] at absent
    cases absent
  · intro none e names
    rw [names.descend, if_neg]
    exact fun nested => none e ⟨names, nested⟩

/-- A walk finds the deepest recipe. -/
theorem walk?_eq_recipe {w : Walk} :
    walk? t base words = some w ∧ w.isGroup = false ↔
      w.isGroup = false ∧ RecipeAt t base words w.depth w.path ∧
        ∀ e f, RecipeAt t base words e f → e ≤ w.depth := by
  rw [← deepestRecipe?_eq_some, walk?_eq, Option.or_eq_some_iff]
  constructor
  · rintro ⟨found | ⟨-, found⟩, recipe⟩
    · exact found
    · have group := (deepestGroup?_eq_some.mp found).1
      rw [recipe] at group
      cases group
  · exact fun found => ⟨.inl found, (deepestRecipe?_eq_some.mp found).1⟩

/-- Where a walk meets no recipe it finds the deepest group. -/
theorem walk?_eq_group {w : Walk} :
    walk? t base words = some w ∧ w.isGroup = true ↔
      w.isGroup = true ∧ (∀ e f, ¬RecipeAt t base words e f) ∧ GroupAt t base words w.depth ∧
        w.path = below base words w.depth ∧ ∀ e, GroupAt t base words e → e ≤ w.depth := by
  rw [← deepestRecipe?_eq_none, walk?_eq, Option.or_eq_some_iff]
  constructor
  · rintro ⟨found | ⟨none, found⟩, group⟩
    · have recipe := (deepestRecipe?_eq_some.mp found).1
      rw [group] at recipe
      cases recipe
    · exact ⟨group, none, (deepestGroup?_eq_some.mp found).2⟩
  · rintro ⟨group, none, found⟩
    exact ⟨.inr ⟨none, deepestGroup?_eq_some.mpr ⟨group, found⟩⟩, group⟩

theorem walk?_eq_none :
    walk? t base words = none ↔
      (∀ e f, ¬RecipeAt t base words e f) ∧ ∀ e, ¬GroupAt t base words e := by
  rw [walk?_eq, Option.or_eq_none_iff, deepestRecipe?_eq_none, deepestGroup?_eq_none]

theorem walk?_names {w : Walk} (h : walk? t base words = some w) : Names words w.depth := by
  cases group : w.isGroup with
  | false => exact (walk?_eq_recipe.mp ⟨h, group⟩).2.1.names
  | true => exact (walk?_eq_group.mp ⟨h, group⟩).2.2.1.names

theorem RecipeAt.walk? (h : RecipeAt t base words d file) :
    ∃ w, walk? t base words = some w ∧ w.isGroup = false ∧ d ≤ w.depth := by
  cases found : Resolver.walk? t base words with
  | none => exact absurd h ((walk?_eq_none.mp found).1 d file)
  | some w =>
    cases group : w.isGroup with
    | true => exact absurd h ((walk?_eq_group.mp ⟨found, group⟩).2.1 d file)
    | false => exact ⟨w, rfl, group, (walk?_eq_recipe.mp ⟨found, group⟩).2.2 d file h⟩

theorem GroupAt.walk? (h : GroupAt t base words d) :
    ∃ w, walk? t base words = some w ∧ (w.isGroup = true → d ≤ w.depth) := by
  cases found : Resolver.walk? t base words with
  | none => exact absurd h ((walk?_eq_none.mp found).2 d)
  | some w => exact ⟨w, rfl, fun group => (walk?_eq_group.mp ⟨found, group⟩).2.2.2.2 d h⟩

/-! ## Words with slashes -/

/-- A word is taken apart if it has several parts.  Then it has a slash, and its parts have none. -/
theorem parts?_eq_some {parts : List String} (h : parts? words = some parts) :
    ∃ word, words = [word] ∧ parts = (Text.split "/" word).filter (· != "") ∧ 1 < parts.length ∧
      '/' ∈ word.toList ∧ ∀ part ∈ parts, '/' ∉ part.toList := by
  have slash : ("/").toList = ['/'] := by decide
  match words, h with
  | [word], h =>
    simp only [parts?] at h
    split at h
    next several =>
      obtain rfl := Option.some.inj h
      rw [Bool.and_eq_true, decide_eq_true_eq] at several
      refine ⟨word, rfl, rfl, several.1, ?_, fun part mem => ?_⟩
      · by_contra whole
        have one : Text.split "/" word = [word] := by
          rw [Text.split, slash, Text.splitAll_of_not_mem whole]
          simp
        have few := List.length_filter_le (· != "") (Text.split "/" word)
        rw [one, List.length_singleton] at few
        have many := several.1
        rw [one] at many
        omega
      · obtain ⟨cs, hcs, rfl⟩ := List.mem_map.mp (List.mem_of_mem_filter mem)
        rw [String.toList_ofList]
        exact Text.not_mem_of_mem_splitAll (slash ▸ hcs)
    next => cases h

end Resolver

end Scaffold
