import Mathlib.Data.String.Basic
import Scaffold.Proofs.Tree.Places

/-!
# Directories and what is in them

A tree is *regular* if it is as a file system holds it: every place is in a directory, no place is there
twice, and no name is a double point.  In a regular tree the directories in a directory are listed by
their names, in strictly increasing order, and a name leads from a directory to what is at the place
under it.  The depth of the tree bounds how far down one can get.
-/

namespace Scaffold

namespace Path

/-- The path some names below another one. -/
def under (d : Path) (names : List String) : Path := ⟨d.root, d.parts ++ names⟩

@[simp] theorem under_parts (d : Path) (names : List String) : (d.under names).parts = d.parts ++ names := rfl

@[simp] theorem under_nil (d : Path) : d.under [] = d := by
  rw [under, List.append_nil]

@[simp] theorem under_under (d : Path) (a b : List String) : (d.under a).under b = d.under (a ++ b) := by
  simp [under]

@[simp] theorem parent_under (d : Path) (names : List String) (n : String) :
    (d.under (names ++ [n])).parent = d.under names := by
  simp [under, parent, ← List.append_assoc]

end Path

namespace Tree

variable {t : Tree} {d : Path} {x y : Place} {e : Entry} {n : String}

/-- A tree as a file system holds it. -/
structure Regular (t : Tree) : Prop where
  closed : t.Closed
  distinct : (t.entries.map (·.1)).Nodup
  named : ∀ f ∈ t.entries, ".." ∉ f.1

instance (t : Tree) : Decidable t.Regular :=
  decidable_of_iff (t.Closed ∧ (t.entries.map (·.1)).Nodup ∧ ∀ f ∈ t.entries, ".." ∉ f.1)
    ⟨fun h => ⟨h.1, h.2.1, h.2.2⟩, fun h => ⟨h.closed, h.distinct, h.named⟩⟩

/-- A path goes to the directory at a place. -/
structure Opens (t : Tree) (d : Path) (x : Place) : Prop where
  located : t.locate d = .ok x
  directory : t.at? x = some .directory

/-! ## Places in a regular tree -/

theorem Regular.mem_entries_iff (h : t.Regular) (hx : x ≠ []) : (x, e) ∈ t.entries ↔ t.at? x = some e := by
  rw [at?_eq hx, Option.map_eq_some_iff]
  constructor
  · intro mem
    rcases found : t.entries.find? (·.1 == x) with _ | f
    · have absent := List.find?_eq_none.mp found (x, e) mem
      simp at absent
    · -- the first entry of the place is its only one
      have there : f.1 = x := by simpa using List.find?_some found
      have same := List.inj_on_of_nodup_map h.distinct (List.mem_of_find?_eq_some found) mem there
      exact ⟨f, found, by rw [same]⟩
  · rintro ⟨f, found, rfl⟩
    have there : f.1 = x := by simpa using List.find?_some found
    rw [← there]
    exact List.mem_of_find?_eq_some found

theorem Regular.not_mem (h : t.Regular) (there : t.at? x = some e) : ".." ∉ x := by
  by_cases hx : x = []
  · rw [hx]
    exact List.not_mem_nil
  · exact h.named (x, e) ((h.mem_entries_iff hx).mpr there)

/-- All places on the way to a place are directories. -/
theorem Closed.above (h : t.Closed) (there : t.at? (x ++ y) = some .directory) :
    t.at? x = some .directory := by
  induction y using List.reverseRecOn with
  | nil => rwa [List.append_nil] at there
  | append_singleton y n ih =>
    rw [← List.append_assoc] at there
    have parent := h.parent there
    rw [List.dropLast_concat] at parent
    exact ih parent

theorem length_le_depth (there : t.at? x = some e) : x.length ≤ t.depth := by
  have greater (entries : List (Place × Entry)) (d : Nat) :
      d ≤ entries.foldl (fun d e => max d e.1.length) d ∧
        ∀ f ∈ entries, f.1.length ≤ entries.foldl (fun d e => max d e.1.length) d := by
    induction entries generalizing d with
    | nil => exact ⟨Nat.le_refl d, fun _ mem => absurd mem List.not_mem_nil⟩
    | cons f entries ih =>
      obtain ⟨start, others⟩ := ih (max d f.1.length)
      refine ⟨Nat.le_trans (Nat.le_max_left _ _) start, fun g mem => ?_⟩
      rcases List.mem_cons.mp mem with rfl | mem
      · exact Nat.le_trans (Nat.le_max_right _ _) start
      · exact others g mem
  by_cases hx : x = []
  · rw [hx]
    exact Nat.zero_le _
  · rw [at?_eq hx] at there
    obtain ⟨f, found, -⟩ := Option.map_eq_some_iff.mp there
    have same : f.1 = x := by simpa using List.find?_some found
    rw [← same]
    exact (greater t.entries 0).2 f (List.mem_of_find?_eq_some found)

/-! ## Paths to directories -/

theorem isDirectory_iff_opens : t.isDirectory d = true ↔ ∃ x, t.Opens d x := by
  unfold isDirectory look
  cases located : t.locate d with
  | error f =>
    refine ⟨fun h => (nomatch h), fun ⟨x, opens⟩ => ?_⟩
    rw [opens.located] at located
    cases located
  | ok x =>
    dsimp only [bind, Except.bind]
    constructor
    · intro h
      cases there : t.at? x with
      | none =>
        rw [there] at h
        cases h
      | some e =>
        rw [there] at h
        cases e with
        | file c => cases h
        | directory => exact ⟨x, located, there⟩
    · rintro ⟨y, opens⟩
      obtain rfl : x = y := Except.ok.inj (located.symm.trans opens.located)
      rw [opens.directory]
      rfl

/-- From a directory names lead straight down. -/
theorem Opens.leads (h : t.Opens d x) (names : ".." ∉ y) : t.Leads (d.under y) (x ++ y) :=
  ⟨d.parts, y, x, rfl, locate_eq_ok.mp h.located, h.directory, names, rfl⟩

theorem Opens.under (h : t.Opens d x) (regular : t.Regular) (there : t.at? (x ++ y) = some .directory) :
    t.Opens (d.under y) (x ++ y) := by
  have names : ".." ∉ y := fun mem => regular.not_mem there (List.mem_append_right x mem)
  exact ⟨(h.leads names).locate regular.closed (regular.closed.parent there), there⟩

theorem Opens.isFile_iff (h : t.Opens d x) (closed : t.Closed) (names : ".." ∉ y) :
    t.isFile (d.under y) = true ↔ ∃ c, t.at? (x ++ y) = some (.file c) :=
  (h.leads names).isFile_iff closed

/-! ## What is in a directory -/

/-- What an entry is in a directory: it is under its last name, if the others lead to the directory. -/
theorem child_eq_some {p : Place} {c : String × Entry} :
    (if p.dropLast = x && !p.isEmpty then p.getLast?.map (·, e) else none) = some c ↔
      p = x ++ [c.1] ∧ e = c.2 := by
  constructor
  · intro h
    split at h
    next inside =>
      rw [Bool.and_eq_true, decide_eq_true_eq] at inside
      obtain ⟨last, isLast, rfl⟩ := Option.map_eq_some_iff.mp h
      refine ⟨?_, rfl⟩
      rw [← inside.1]
      exact (List.dropLast_append_getLast? last isLast).symm
    next => cases h
  · rintro ⟨rfl, rfl⟩
    simp

theorem Regular.mem_children (h : t.Regular) : (n, e) ∈ t.children x ↔ t.at? (x ++ [n]) = some e := by
  rw [← h.mem_entries_iff (by simp), children, List.mem_filterMap]
  constructor
  · rintro ⟨f, mem, found⟩
    obtain ⟨place, entry⟩ := child_eq_some.mp found
    have whole : f = (x ++ [n], e) := Prod.ext place entry
    rwa [← whole]
  · exact fun mem => ⟨_, mem, child_eq_some.mpr ⟨rfl, rfl⟩⟩

theorem Regular.nodup_children (h : t.Regular) (x : Place) : (t.children x).Nodup := by
  refine List.Nodup.filterMap (fun f g c first second => ?_) (List.Nodup.of_map _ h.distinct)
  obtain ⟨place, entry⟩ := child_eq_some.mp first
  obtain ⟨place', entry'⟩ := child_eq_some.mp second
  exact Prod.ext (place.trans place'.symm) (entry.trans entry'.symm)

theorem pairwise_sorted {names : List String} (h : names.Nodup) : (sorted names).Pairwise (· < ·) := by
  have order : (sorted names).Pairwise (fun a b => decide (a ≤ b) = true) :=
    List.pairwise_mergeSort (by simpa using fun a b c => le_trans) (by simpa using le_total) names
  have apart : (sorted names).Nodup := (List.mergeSort_perm names _).nodup_iff.mpr h
  exact (order.and apart).imp fun ⟨le, ne⟩ => lt_of_le_of_ne (of_decide_eq_true le) ne

/-- The directories in a directory by name, in order. -/
theorem Regular.directoriesIn (h : t.Regular) (opens : t.Opens d x) :
    ∃ names, t.directoriesIn d = .ok names ∧ names.Pairwise (· < ·) ∧
      ∀ n, n ∈ names ↔ t.at? (x ++ [n]) = some .directory := by
  let name? (c : String × Entry) : Option String := if c.2 = .directory then some c.1 else none
  have known {c : String × Entry} {n : String} : name? c = some n ↔ c = (n, .directory) := by
    obtain ⟨m, e⟩ := c
    by_cases directory : e = .directory <;> simp [name?, directory]
  have read : t.directoriesIn d = .ok (sorted ((t.children x).filterMap name?)) := by
    unfold Tree.directoriesIn
    rw [opens.located]
    dsimp only [bind, Except.bind]
    rw [opens.directory]
    rfl
  refine ⟨_, read, pairwise_sorted ?_, fun n => ?_⟩
  · refine List.Nodup.filterMap (fun c c' n first second => ?_) (h.nodup_children x)
    exact (known.mp first).trans (known.mp second).symm
  · rw [sorted, List.mem_mergeSort, List.mem_filterMap, ← h.mem_children]
    constructor
    · rintro ⟨c, mem, found⟩
      rwa [known.mp found] at mem
    · exact fun mem => ⟨_, mem, known.mpr rfl⟩

end Tree

end Scaffold
