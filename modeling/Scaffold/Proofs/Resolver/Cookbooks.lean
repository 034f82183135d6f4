import Mathlib.Data.List.Induction
import Mathlib.Data.List.Nodup
import Scaffold.Kit
import Scaffold.Proofs.Failing
import Scaffold.Proofs.Value.Records

/-!
# Cookbooks by name

The cookbooks of a kit are entered one after the other, in the order in which its patterns find them.
Each is entered under its name, in the place of whatever stands there, and then under the name of its
directory, but only where nothing stands yet.  A cookbook whose file gives no name has that of its
directory.

What a name finds can be told without entering anything: the last cookbook of this name, or else the
first in a directory of this name.  So where no two cookbooks have the same name, a name finds the
cookbook that has it, in whatever order they come; the order only decides which of several directories
of a name counts where no cookbook has that name.
-/

namespace Scaffold

/-- To load something at every step and go on with it is to load everything first. -/
theorem foldlM_eq_mapM {ε α β γ : Type} (load : α → Except ε β) (f : γ → β → γ) (xs : List α) (c : γ) :
    xs.foldlM (fun c x => do return f c (← load x)) c = (xs.mapM load).map (·.foldl f c) := by
  induction xs generalizing c with
  | nil => rfl
  | cons x xs ih =>
    rw [List.foldlM_cons, List.mapM_cons]
    cases load x with
    | error e => rfl
    | ok b =>
      refine (ih (f c b)).trans ?_
      cases xs.mapM load <;> rfl

theorem Cookbook.path_of_load {t : Tree} {file : Path} {c : Cookbook} (h : load t file = .ok c) :
    c.path = file.parent := by
  obtain ⟨es, -, made⟩ := bind_eq_ok h
  cases made
  rfl

namespace Kit

variable {t : Tree} {k : Kit} {c : Cookbook} {cs : List Cookbook}

/-- The cookbooks that the patterns of a kit find, in the order in which they are found. -/
def discovered (t : Tree) (k : Kit) : Except Failure (List Cookbook) := do
  let files ← filesBy t k.path k.patterns
  files.mapM (Cookbook.load t)

/-- A cookbook is entered under its name, and under that of its directory if nothing stands there. -/
def enter (found : Record Cookbook) (c : Cookbook) : Record Cookbook :=
  (found.put c.name c).putNew c.path.name c

/-- Cookbooks that are entered one after the other. -/
def entered (cs : List Cookbook) : Record Cookbook := cs.foldl enter []

theorem entered_concat (cs : List Cookbook) (c : Cookbook) :
    entered (cs ++ [c]) = enter (entered cs) c := by
  rw [entered, List.foldl_append, ← entered]
  rfl

/-- The cookbooks of a kit are those that are discovered. -/
theorem cookbooks_eq (t : Tree) (k : Kit) : k.cookbooks t = (k.discovered t).map entered := by
  have step : (fun (found : Record Cookbook) (file : Path) => do
      let c ← Cookbook.load t file
      return (found.put c.name c).putNew file.parent.name c : Record Cookbook → Path →
        Except Failure (Record Cookbook)) =
      fun found file => do return enter found (← Cookbook.load t file) := by
    funext found file
    cases loaded : Cookbook.load t file with
    | error e => rfl
    | ok c =>
      show Except.ok ((found.put c.name c).putNew file.parent.name c) = Except.ok (enter found c)
      rw [enter, Cookbook.path_of_load loaded]
  rw [cookbooks, discovered, step]
  cases filesBy t k.path k.patterns with
  | error e => rfl
  | ok files => exact foldlM_eq_mapM (Cookbook.load t) enter files []

/-- One more cookbook is found under its name, whatever stood there, and under that of its directory if
nothing did. -/
theorem get?_enter (found : Record Cookbook) (c : Cookbook) (n : String) :
    (enter found c).get? n =
      if c.name = n then some c
      else (found.get? n).or (if c.path.name = n then some c else none) := by
  rw [enter, Record.get?_putNew, Record.get?_put]
  split <;> rfl

/-- A name finds the last cookbook that has it, or else the first in a directory that has it. -/
theorem get?_entered (cs : List Cookbook) (n : String) :
    (entered cs).get? n =
      (cs.reverse.find? (·.name == n)).or (cs.find? (·.path.name == n)) := by
  induction cs using List.reverseRecOn with
  | nil => rfl
  | append_singleton cs c ih =>
    rw [entered_concat, get?_enter, ih, List.reverse_append, List.reverse_singleton,
      List.singleton_append, List.find?_cons, List.find?_append, List.find?_singleton]
    by_cases named : c.name = n
    · rw [if_pos named, beq_iff_eq.mpr named]
      rfl
    · rw [if_neg named, beq_false_of_ne named, Option.or_assoc]
      simp only [beq_iff_eq]

theorem cookbook?_eq (found : k.discovered t = .ok cs) (n : String) :
    k.cookbook? t n = .ok ((cs.reverse.find? (·.name == n)).or (cs.find? (·.path.name == n))) := by
  rw [cookbook?, cookbooks_eq, found, ← get?_entered]
  rfl

/-- Where names are distinct, the last cookbook of a name is the one that has it. -/
theorem find?_reverse_of_mem (distinct : (cs.map (·.name)).Nodup) (mem : c ∈ cs) :
    cs.reverse.find? (·.name == c.name) = some c := by
  obtain ⟨d, found⟩ : ∃ d, cs.reverse.find? (·.name == c.name) = some d :=
    Option.isSome_iff_exists.mp (List.find?_isSome.mpr ⟨c, by simpa using mem, by simp⟩)
  have same : d.name = c.name := by simpa using List.find?_some found
  have there : d ∈ cs := List.mem_reverse.mp (List.mem_of_find?_eq_some found)
  rw [found, List.inj_on_of_nodup_map distinct there mem same]

theorem find?_reverse_of_forall_ne {n : String} (none : ∀ c ∈ cs, c.name ≠ n) :
    cs.reverse.find? (·.name == n) = .none := by
  rw [List.find?_eq_none]
  intro c mem
  simpa using none c (List.mem_reverse.mp mem)

/-- Where no two of the cookbooks that a kit discovers have the same name, a name finds the cookbook that
has it; a name that none has finds the first cookbook in a directory of this name, if there is any.  And
whatever discovers the same cookbooks in another order finds each of them under its name as well. -/
theorem cookbook?_of_distinct (found : k.discovered t = .ok cs) (distinct : (cs.map (·.name)).Nodup) :
    (∀ n, (∀ c ∈ cs, c.name = n → k.cookbook? t n = .ok (some c)) ∧
      ((∀ c ∈ cs, c.name ≠ n) → k.cookbook? t n = .ok (cs.find? (·.path.name == n)))) ∧
    ∀ t' k' cs', discovered t' k' = .ok cs' → cs'.Perm cs →
      ∀ c ∈ cs, k'.cookbook? t' c.name = .ok (some c) := by
  have named {t' : Tree} {k' : Kit} {cs' : List Cookbook} (found : k'.discovered t' = .ok cs')
      (distinct : (cs'.map (·.name)).Nodup) {c : Cookbook} (mem : c ∈ cs') :
      k'.cookbook? t' c.name = .ok (some c) := by
    rw [cookbook?_eq found, find?_reverse_of_mem distinct mem, Option.some_or]
  refine ⟨fun n => ⟨?_, fun none => ?_⟩, fun t' k' cs' found' reordered c mem => ?_⟩
  · rintro c mem rfl
    exact named found distinct mem
  · rw [cookbook?_eq found, find?_reverse_of_forall_ne none, Option.none_or]
  · have distinct' : (cs'.map (·.name)).Nodup := (reordered.map _).nodup_iff.mpr distinct
    exact named found' distinct' (reordered.mem_iff.mpr mem)

end Kit

/-! ## A name that is also that of a directory -/

namespace Aliased

/-- Two cookbooks, of which the second has the name of the directory of the first. -/
def tree : Tree where
  entries := [
    (["kit"], .directory), (["kit", "crud"], .directory),
    (["kit", "crud", "cookbook.yml"], .file (.text "name: tables\n")),
    (["kit", "forms"], .directory),
    (["kit", "forms", "cookbook.yml"], .file (.text "name: crud\n"))]

def kit : Kit where
  name := "kit"
  path := .ofString "/kit"
  patterns := ["./crud/cookbook.yml", "./forms/cookbook.yml"]

/-- The name of a cookbook, and that of its directory. -/
def names (c : Cookbook) : String × String := (c.name, c.path.name)

theorem both_discovered : ∃ tables crud, kit.discovered tree = .ok [tables, crud] ∧
    names tables = ("tables", "crud") ∧ names crud = ("crud", "forms") := by
  have found : (kit.discovered tree).toOption.map (·.map names) =
      some [("tables", "crud"), ("crud", "forms")] := by decide +kernel
  rcases same : kit.discovered tree with e | cs <;> rw [same] at found
  · cases found
  · obtain ⟨tables, cs, rfl, first, rest⟩ := List.map_eq_cons_iff.mp (Option.some.inj found)
    obtain ⟨crud, cs, rfl, second, rest⟩ := List.map_eq_cons_iff.mp rest
    obtain rfl := List.map_eq_nil_iff.mp rest
    exact ⟨tables, crud, rfl, first, second⟩

/-- The name that is also that of a directory finds the cookbook that has it, the name of the other
directory finds the cookbook there, and a third name finds none. -/
theorem crud_found : ∃ tables crud, kit.discovered tree = .ok [tables, crud] ∧
    ([tables, crud].map (·.name)).Nodup ∧ tables.path.name = "crud" ∧
    kit.cookbook? tree "crud" = .ok (some crud) ∧ kit.cookbook? tree "forms" = .ok (some crud) ∧
    kit.cookbook? tree "pages" = .ok none := by
  obtain ⟨tables, crud, found, first, second⟩ := both_discovered
  obtain ⟨name₁, directory₁⟩ := Prod.mk.inj first
  obtain ⟨name₂, directory₂⟩ := Prod.mk.inj second
  have distinct : ([tables, crud].map (·.name)).Nodup := by simp [name₁, name₂]
  have finds := (Kit.cookbook?_of_distinct found distinct).1
  refine ⟨tables, crud, found, distinct, directory₁, (finds "crud").1 crud (by simp) name₂, ?_, ?_⟩
  · refine ((finds "forms").2 (by simp [name₁, name₂])).trans ?_
    simp [directory₁, directory₂]
  · refine ((finds "pages").2 (by simp [name₁, name₂])).trans ?_
    simp [directory₁, directory₂]

end Aliased

end Scaffold
