import Scaffold.Proofs.Recipe.Frontier

/-!
# Directories with recipes below them

What the pattern for nested recipes finds, said of the places in the tree: it goes down through all
directories, hidden ones and those behind a recipe as well.  So it finds something exactly where some
recipe lies below a directory, and the group of the directory is empty all the same if all of these are
hidden.
-/

namespace Scaffold

namespace Glob

open Recipe

variable {t : Tree} {d p : Path} {x : Place} {s : String}

/-- A star fits every name. -/
theorem fits_star (cs : List Char) : fits [.star] cs = true := by
  have tail : ∀ cs, someTail (fits []) cs = true := by
    intro cs
    induction cs with
    | nil => rfl
    | cons c cs ih => rw [someTail, ih, Bool.or_true]
  exact tail cs

/-- The directories of a tree from one of them down. -/
theorem mem_directoriesFrom (regular : t.Regular) (opens : t.Opens d x) {fuel : Nat} :
    p ∈ directoriesFrom t d fuel ↔ ∃ route, route.length ≤ fuel ∧
      t.at? (x ++ route) = some .directory ∧ p = d.under route := by
  -- by induction on the levels: the first name leads into a directory, from which the others go on
  induction fuel generalizing d x with
  | zero =>
    rw [directoriesFrom, List.mem_singleton]
    constructor
    · rintro rfl
      exact ⟨[], Nat.le_refl 0, by rw [List.append_nil]; exact opens.directory, p.under_nil.symm⟩
    · rintro ⟨route, short, -, rfl⟩
      rw [List.eq_nil_of_length_eq_zero (Nat.le_zero.mp short), Path.under_nil]
  | succ fuel ih =>
    obtain ⟨names, read, -, known⟩ := regular.directoriesIn opens
    have step : directoriesFrom t d (fuel + 1) =
        d :: names.flatMap fun n => directoriesFrom t (d.under [n]) fuel := by
      rw [directoriesFrom, read]
      rfl
    have behind := List.append_cons x
    rw [step, List.mem_cons, List.mem_flatMap]
    constructor
    · rintro (rfl | ⟨n, mem, found⟩)
      · exact ⟨[], Nat.zero_le _, by rw [List.append_nil]; exact opens.directory, p.under_nil.symm⟩
      · obtain ⟨route, short, there, rfl⟩ := (ih (opens.under regular ((known n).mp mem))).mp found
        rw [← behind] at there
        exact ⟨n :: route, Nat.succ_le_succ short, there, Path.under_under d [n] route⟩
    · rintro ⟨route, short, there, rfl⟩
      cases route with
      | nil => exact .inl (Path.under_nil d)
      | cons n rest =>
        rw [behind] at there
        have directory := regular.closed.above there
        refine .inr ⟨n, (known n).mpr directory, (ih (opens.under regular directory)).mpr ?_⟩
        exact ⟨rest, Nat.le_of_succ_le_succ short, there, (Path.under_under d [n] rest).symm⟩

/-- A file of a name in some directory below is what the pattern for it finds. -/
theorem mem_select_below (regular : t.Regular) (opens : t.Opens d x) :
    p ∈ select t [.wild [.star], .descend, .name s] d ↔ ∃ route, route ≠ [] ∧
      t.at? (x ++ route) = some .directory ∧ t.present (d.under (route ++ [s])) = true ∧
      p = d.under (route ++ [s]) := by
  have named (q : Path) : p ∈ select t [.name s] q ↔ t.present (q.under [s]) = true ∧ p = q.under [s] := by
    simp only [select, List.isEmpty_nil, if_true, Path.under]
    split <;> simp [*]
  have children (n : String) (e : Entry) : (n, e) ∈ namesIn t d ↔ t.at? (x ++ [n]) = some e := by
    rw [namesIn, opens.located]
    exact regular.mem_children
  have behind := List.append_cons x
  rw [select, List.mem_flatMap]
  constructor
  · rintro ⟨⟨n, e⟩, mem, found⟩
    dsimp only at found
    split at found
    next inner =>
      obtain rfl : e = .directory := by simpa using (Bool.and_eq_true_iff.mp inner).1
      have child := opens.under regular ((children n .directory).mp mem)
      rw [select, List.mem_eraseDups, List.mem_flatMap] at found
      obtain ⟨q, below, here⟩ := found
      obtain ⟨rest, -, there, rfl⟩ := (mem_directoriesFrom regular child).mp below
      rw [← behind] at there
      rw [named, Path.under_under, Path.under_under] at here
      exact ⟨n :: rest, List.cons_ne_nil _ _, there, here⟩
    next => cases found
  · rintro ⟨route, further, there, here⟩
    obtain ⟨n, rest, rfl⟩ := List.exists_cons_of_ne_nil further
    -- the search goes as deep as the tree, so the route is not too long for it
    have depth := Tree.length_le_depth there
    rw [List.length_append, List.length_cons] at depth
    rw [behind] at there
    have directory := regular.closed.above there
    have child := opens.under regular directory
    refine ⟨(n, .directory), (children n _).mpr directory, ?_⟩
    dsimp only
    rw [if_pos (by simp [fits_star]), select, List.mem_eraseDups, List.mem_flatMap]
    refine ⟨(d.under [n]).under rest, (mem_directoriesFrom regular child).mpr ?_, (named _).mpr ?_⟩
    · exact ⟨rest, by omega, there, rfl⟩
    · rw [Path.under_under, Path.under_under]
      exact here

end Glob

theorem Tree.present_of_isFile {t : Tree} {p : Path} (h : t.isFile p = true) : t.present p = true := by
  rw [isFile] at h
  split at h
  next found =>
    rw [present, found]
    rfl
  next => cases h

namespace Recipe

variable {t : Tree} {d p file : Path} {x : Place} {route : List String}

/-- The pattern for nested recipe files of a name finds one exactly where there is one. -/
theorem any_find_iff (regular : t.Regular) (opens : t.Opens d x) {name : String} (known : name ∈ fileNames) :
    ((Glob.find t d ("*/**/" ++ name)).toOption.getD []).any t.isFile = true ↔
      ∃ route, route ≠ [] ∧ t.at? (x ++ route) = some .directory ∧
        ∃ c, t.at? (x ++ route ++ [name]) = some (.file c) := by
  have pattern : Glob.components ("*/**/" ++ name) = .ok [.wild [.star], .descend, .name name] := by
    simp only [fileNames, List.mem_cons, List.not_mem_nil, or_false] at known
    rcases known with rfl | rfl <;> rfl
  have found : Glob.find t d ("*/**/" ++ name) =
      .ok ((Glob.select t [.wild [.star], .descend, .name name] d).mergeSort Path.le) := by
    rw [Glob.find, pattern]
    dsimp only [bind, Except.bind]
    rw [if_pos (Tree.isDirectory_iff_opens.mpr ⟨x, opens⟩)]
    rfl
  -- neither a directory below nor the file is called by a double point
  have isFile {route : List String} (there : t.at? (x ++ route) = some .directory) :
      t.isFile (d.under (route ++ [name])) = true ↔ ∃ c, t.at? (x ++ route ++ [name]) = some (.file c) := by
    rw [List.append_assoc]
    refine opens.isFile_iff regular.closed fun dots => ?_
    rcases List.mem_append.mp dots with inside | last
    · exact regular.not_mem there (List.mem_append_right x inside)
    · rw [← List.mem_singleton.mp last] at known
      exact absurd known (by decide)
  rw [found, List.any_eq_true]
  constructor
  · rintro ⟨p, mem, file⟩
    obtain ⟨route, further, there, -, rfl⟩ :=
      (Glob.mem_select_below regular opens).mp (List.mem_mergeSort.mp mem)
    exact ⟨route, further, there, (isFile there).mp file⟩
  · rintro ⟨route, further, there, file⟩
    have file := (isFile there).mpr file
    refine ⟨_, List.mem_mergeSort.mpr ((Glob.mem_select_below regular opens).mpr ?_), file⟩
    exact ⟨route, further, there, Tree.present_of_isFile file, rfl⟩

/-- A directory counts as one with nested recipes if some recipe lies below it. -/
theorem isNestedIn_iff (regular : t.Regular) (opens : t.Opens d x) :
    isNestedIn t d = true ↔ ∃ route, Below t x route := by
  rw [isNestedIn, Tree.isDirectory_iff_opens.mpr ⟨x, opens⟩, Bool.true_and, List.any_eq_true]
  constructor
  · rintro ⟨name, known, found⟩
    obtain ⟨route, further, there, file⟩ := (any_find_iff regular opens known).mp found
    exact ⟨route, further, there, exists_fileAt_iff.mpr ⟨name, known, file⟩⟩
  · rintro ⟨route, further, there, recipe⟩
    obtain ⟨name, known, file⟩ := exists_fileAt_iff.mp recipe
    exact ⟨name, known, (any_find_iff regular opens known).mpr ⟨route, further, there, file⟩⟩

/-- The group of a directory has some recipe. -/
def Finds (t : Tree) (d : Path) : Prop := ∃ files, discover t d = .ok files ∧ files ≠ []

/-- The group of a directory has some recipe if one that is not hidden lies below it. -/
theorem finds_iff (regular : t.Regular) (opens : t.Opens d x) :
    Finds t d ↔ ∃ route, Below t x route ∧ Visible route := by
  rw [← exists_contributes_iff regular.closed]
  constructor
  · rintro ⟨files, found, some⟩
    obtain rfl := Except.ok.inj (found.symm.trans (discover_eq regular opens))
    obtain ⟨file, mem⟩ := List.exists_mem_of_ne_nil _ some
    obtain ⟨route, name, counts, -⟩ := (mem_belowTo_depth regular opens).mp mem
    exact ⟨route, counts⟩
  · rintro ⟨route, counts⟩
    obtain ⟨name, there⟩ := counts.recipe
    have mem := (mem_belowTo_depth regular opens).mpr ⟨route, name, counts, there, rfl⟩
    exact ⟨_, discover_eq regular opens, List.ne_nil_of_mem mem⟩

end Recipe

end Scaffold
