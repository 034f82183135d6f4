import Mathlib.Data.List.Induction
import Mathlib.Data.List.Nodup
import Mathlib.Data.List.Perm.Subperm
import Scaffold.Proofs.Failing
import Scaffold.Tree

/-!
# Where paths lead

In a tree of files every place lies in a directory.  A path *leads* to a place if it goes to a
directory that is there, by whatever way, and from it straight on by names.  The place need not hold
anything; what a look along the path finds is what the place holds.  A path keeps leading to its place
as long as directories stay.

Making directories changes nothing but that there are more of them, and they are all above the place
they were made for.  Replacing a file along a path that leads to a place either fails and leaves the
tree as it was, or changes what this place holds and at most makes directories besides.  The new file
that the text goes into first has a name of its own, so nothing is lost to it.
-/

namespace Scaffold

namespace Tree

variable {t t' u : Tree} {p : Path} {place here x y : Place} {e : Entry}

/-! ## Places -/

@[simp] theorem at?_nil (t : Tree) : t.at? [] = some .directory := rfl

theorem at?_eq (hx : x ≠ []) : t.at? x = (t.entries.find? (·.1 == x)).map (·.2) := by
  rw [at?, if_neg (by simpa using hx)]

theorem at?_isSome (hx : x ≠ []) : (t.at? x).isSome = t.entries.any (·.1 == x) := by
  rw [at?_eq hx, Option.isSome_map, List.isSome_find?]

theorem at?_eq_none (hx : x ≠ []) : t.at? x = none ↔ ∀ f ∈ t.entries, f.1 ≠ x := by
  rw [← Option.isNone_iff_eq_none, ← Option.isSome_eq_false_iff, at?_isSome hx]
  simp only [List.any_eq_false, beq_iff_eq, ne_eq]

/-- What is put at a place is there, and nothing else changes. -/
theorem at?_put (hx : x ≠ []) (y : Place) :
    (t.put x e).at? y = if y = x then some e else t.at? y := by
  by_cases hy : y = []
  · subst hy
    simp [Ne.symm hx]
  · rw [put, ← at?_isSome hx]
    split
    next known =>
      -- an entry that is replaced stands where it stood
      have places : ((fun f : Place × Entry => f.1 == y) ∘ fun f => if f.1 == x then (x, e) else f) =
          (·.1 == y) := by
        funext f
        by_cases hf : f.1 = x <;> simp [hf]
      rw [at?_eq hy, List.find?_map, places, at?_eq hy]
      rcases found : t.entries.find? (·.1 == y) with _ | f
      · have other : y ≠ x := by
          rintro rfl
          rw [at?_eq hx, found] at known
          cases known
        rw [found, if_neg other]
        rfl
      · have there : f.1 = y := by simpa using List.find?_some found
        rw [found]
        by_cases same : y = x <;> simp [there, same]
    next fresh =>
      have absent : t.entries.find? (·.1 == x) = none := by
        rwa [at?_eq hx, Option.isSome_map, Bool.not_eq_true, Option.isSome_eq_false_iff,
          Option.isNone_iff_eq_none] at fresh
      rw [at?_eq hy, List.find?_append, at?_eq hy]
      by_cases same : y = x
      · simp [same, absent]
      · simp [same, Ne.symm same]

/-- What is taken away from a place is gone, and nothing else changes. -/
theorem at?_remove (hx : x ≠ []) (y : Place) :
    (t.remove x).at? y = if y = x then none else t.at? y := by
  by_cases hy : y = []
  · subst hy
    simp [Ne.symm hx]
  · rw [at?_eq hy, at?_eq hy, remove, List.find?_filter]
    split
    next same => simp [same]
    next other =>
      congr 2
      funext f
      by_cases hf : f.1 = y
      · simp [hf, other]
      · simp [hf]

/-- Every place is in a directory. -/
def Closed (t : Tree) : Prop := ∀ f ∈ t.entries, t.at? f.1.dropLast = some .directory

instance (t : Tree) : Decidable t.Closed :=
  List.decidableBAll (fun f : Place × Entry => t.at? f.1.dropLast = some .directory) t.entries

theorem Closed.parent (h : t.Closed) (there : t.at? x = some e) :
    t.at? x.dropLast = some .directory := by
  by_cases hx : x = []
  · rw [hx]
    rfl
  · rw [at?_eq hx] at there
    obtain ⟨f, found, -⟩ := Option.map_eq_some_iff.mp there
    have same : f.1 = x := by simpa using List.find?_some found
    rw [← same]
    exact h f (List.mem_of_find?_eq_some found)

theorem closed_of_parent (h : ∀ x, t.at? x ≠ none → t.at? x.dropLast = some .directory) :
    t.Closed := by
  intro f hf
  refine h f.1 ?_
  by_cases hx : f.1 = []
  · rw [hx]
    exact Option.some_ne_none _
  · exact fun absent => (at?_eq_none hx).mp absent f hf rfl

theorem Closed.put (h : t.Closed) (hx : x ≠ []) (parent : t.at? x.dropLast = some .directory)
    (kept : t.at? x = some .directory → e = .directory) : (t.put x e).Closed := by
  have shorter : x.dropLast ≠ x := fun same => hx (by
    have := congrArg List.length same
    rw [List.length_dropLast] at this
    exact List.eq_nil_of_length_eq_zero (by omega))
  refine closed_of_parent fun y there => ?_
  rw [at?_put hx] at there ⊢
  split at there
  next same => rw [same, if_neg shorter, parent]
  next other =>
    obtain ⟨f, hf⟩ := Option.ne_none_iff_exists'.mp there
    have above := h.parent hf
    split
    next same => rw [kept (same ▸ above)]
    next => exact above

/-! ## Ways -/

theorem step_eq_ok {n : String} :
    t.step here n = .ok x ↔
      t.at? here = some .directory ∧ x = if n = ".." then here.dropLast else here ++ [n] := by
  unfold step
  rcases t.at? here with _ | _ | _ <;> simp [eq_comm]

theorem walk_append (t : Tree) (here : Place) (front back : List String) :
    t.walk here (front ++ back) = match t.walk here front with
      | .ok x => t.walk x back
      | .error f => .error f := by
  induction front generalizing here with
  | nil => rfl
  | cons n front ih =>
    simp only [List.cons_append, walk]
    cases t.step here n with
    | error f => rfl
    | ok x => exact ih x

/-- Where one walks by names only, one comes straight down. -/
theorem eq_append_of_walk {names : List String} (straight : ".." ∉ names)
    (h : t.walk here names = .ok x) : x = here ++ names := by
  induction names generalizing here with
  | nil =>
    cases h
    simp
  | cons n names ih =>
    obtain ⟨name, rest⟩ := not_or.mp (mt List.mem_cons.mpr straight)
    rw [walk] at h
    split at h
    next => cases h
    next y hy =>
      obtain ⟨-, rfl⟩ := step_eq_ok.mp hy
      rw [ih rest h, if_neg (Ne.symm name), List.append_assoc, List.singleton_append]

/-- One can walk straight down to a place in a directory. -/
theorem Closed.walk_straight (h : t.Closed) {names : List String} (straight : ".." ∉ names)
    (parent : names ≠ [] → t.at? (here ++ names.dropLast) = some .directory) :
    t.walk here names = .ok (here ++ names) := by
  -- from the last name to the first: each directory is in one that can be walked to
  induction names using List.reverseRecOn with
  | nil => rw [walk, List.append_nil]
  | append_singleton names n ih =>
    have above : t.at? (here ++ names) = some .directory := by
      simpa using parent (by simp)
    have name : n ≠ ".." := fun same => straight (by simp [same])
    have rest : ".." ∉ names := fun mem => straight (List.mem_append_left _ mem)
    have before : t.walk here names = .ok (here ++ names) := by
      refine ih rest fun some => ?_
      rw [← List.dropLast_append_of_ne_nil some]
      exact h.parent above
    rw [walk_append, before]
    simp only [walk, step_eq_ok.mpr ⟨above, rfl⟩, if_neg name, List.append_assoc]

/-- The directories of one tree are directories in another. -/
def KeepsDirectories (t t' : Tree) : Prop :=
  ∀ x, t.at? x = some .directory → t'.at? x = some .directory

theorem KeepsDirectories.trans (h : KeepsDirectories t t') (h' : KeepsDirectories t' u) :
    KeepsDirectories t u := fun x hx => h' x (h x hx)

theorem KeepsDirectories.walk (h : KeepsDirectories t t') {names : List String}
    (hx : t.walk here names = .ok x) : t'.walk here names = .ok x := by
  induction names generalizing here with
  | nil => exact hx
  | cons n names ih =>
    rw [Tree.walk] at hx ⊢
    split at hx
    next => cases hx
    next y hy =>
      obtain ⟨dir, rfl⟩ := step_eq_ok.mp hy
      rw [step_eq_ok.mpr ⟨h here dir, rfl⟩]
      exact ih hx

theorem collapse_append (front back : List String) (straight : ".." ∉ back) :
    Path.collapse (front ++ back) = Path.collapse front ++ back := by
  have names (acc : List String) :
      back.foldl (fun acc n => if n = ".." then acc.drop 1 else n :: acc) acc =
        back.reverse ++ acc := by
    induction back generalizing acc with
    | nil => rfl
    | cons n back ih =>
      obtain ⟨name, rest⟩ := not_or.mp (mt List.mem_cons.mpr straight)
      rw [List.foldl_cons, if_neg (Ne.symm name), ih rest]
      simp
  rw [Path.collapse, List.foldl_append, names, List.reverse_append, List.reverse_reverse]
  rfl

/-- A way that can be walked leads where it leads with its double points taken back, and the names of
the place are proper names. -/
theorem walk_eq_collapse {names : List String} (h : t.walk [] names = .ok x) :
    x = Path.collapse names ∧ ".." ∉ x := by
  -- the place reached so far is the reverse of what was collected so far
  have from_here (here : Place) (names : List String) (straight : ".." ∉ here)
      (h : t.walk here names = .ok x) :
      x = (names.foldl (fun acc n => if n = ".." then acc.drop 1 else n :: acc)
        here.reverse).reverse ∧ ".." ∉ x := by
    induction names generalizing here with
    | nil =>
      cases h
      simp [straight]
    | cons n names ih =>
      rw [walk] at h
      split at h
      next => cases h
      next y hy =>
        obtain ⟨-, rfl⟩ := step_eq_ok.mp hy
        rw [List.foldl_cons]
        by_cases name : n = ".."
        · rw [if_pos name] at h ⊢
          have shorter : ".." ∉ here.dropLast := fun mem => straight ((List.dropLast_subset _) mem)
          simpa using ih _ shorter h
        · rw [if_neg name] at h ⊢
          have longer : ".." ∉ here ++ [n] := by simp [straight, Ne.symm name]
          simpa using ih _ longer h
  exact from_here [] names (by simp) h

/-- A place that can be walked to can be walked to straight: the directories above it were passed. -/
theorem walk_straight_of_walk {names : List String} (h : t.walk [] names = .ok x) : t.walk [] x = .ok x := by
  -- the place reached so far is itself reached straight
  have from_here (here : Place) (names : List String) (reached : t.walk [] here = .ok here)
      (h : t.walk here names = .ok x) : t.walk [] x = .ok x := by
    induction names generalizing here with
    | nil =>
      cases h
      exact reached
    | cons n names ih =>
      rw [walk] at h
      split at h
      next => cases h
      next y stepped =>
        refine ih y ?_ h
        obtain ⟨directory, rfl⟩ := step_eq_ok.mp stepped
        by_cases up : n = ".."
        · -- going up leads to where the way down came through
          rw [if_pos up]
          rcases List.eq_nil_or_concat' here with rfl | ⟨above, last, rfl⟩
          · rfl
          · have straight : ".." ∉ above := fun mem => (walk_eq_collapse reached).2 (List.mem_append_left _ mem)
            rw [List.dropLast_concat]
            rw [walk_append] at reached
            split at reached
            next y passed =>
              have same := eq_append_of_walk straight passed
              rw [List.nil_append] at same
              rw [passed, same]
            next => cases reached
        · rw [if_neg up, walk_append, reached]
          simp only [walk, step_eq_ok.mpr ⟨directory, rfl⟩, if_neg up]
  exact from_here [] names rfl h

/-! ## Paths -/

theorem locate_eq_ok : t.locate p = .ok x ↔ t.walk [] p.parts = .ok x := mapError_eq_ok

/-- What is found along a path is found along the straight path to it. -/
theorem locate_resolved (h : t.locate p = .ok x) : t.locate p.resolved = .ok x := by
  have walked := locate_eq_ok.mp h
  have straight := walk_straight_of_walk walked
  rw [(walk_eq_collapse walked).1] at straight ⊢
  exact locate_eq_ok.mpr straight

theorem look_resolved (h : t.look p = .ok e) : t.look p.resolved = .ok e := by
  obtain ⟨x, here, found⟩ := bind_eq_ok h
  unfold look
  rw [locate_resolved here]
  dsimp only [bind, Except.bind]
  cases there : t.at? x with
  | none =>
    rw [there] at found
    cases found
  | some e' =>
    rw [there] at found
    exact found

/-- A path leads to a place: it goes to a directory that is there, and straight on from it. -/
def Leads (t : Tree) (p : Path) (place : Place) : Prop :=
  ∃ front back here, p.parts = front ++ back ∧ t.walk [] front = .ok here ∧
    t.at? here = some .directory ∧ ".." ∉ back ∧ place = here ++ back

namespace Leads

theorem mono (h : Leads t p place) (keeps : KeepsDirectories t t') : Leads t' p place := by
  obtain ⟨front, back, here, parts, walked, directory, straight, rfl⟩ := h
  exact ⟨front, back, here, parts, keeps.walk walked, keeps here directory, straight, rfl⟩

/-- A path leads to one place only, the one that is left when its double points are taken back. -/
theorem eq_collapse (h : Leads t p place) : place = Path.collapse p.parts := by
  obtain ⟨front, back, here, parts, walked, -, straight, rfl⟩ := h
  rw [parts, collapse_append front back straight, (walk_eq_collapse walked).1]

theorem straight (h : Leads t p place) : ".." ∉ place := by
  obtain ⟨front, back, here, -, walked, -, straight, rfl⟩ := h
  simp [(walk_eq_collapse walked).2, straight]

/-- A path that is written by names only leads to the place of these names. -/
theorem of_straight (t : Tree) (straight : ".." ∉ p.parts) : Leads t p p.parts :=
  ⟨[], p.parts, [], rfl, rfl, rfl, straight, rfl⟩

/-- A path that a text without double points writes from a project leads somewhere, if the project is
written without them or there. -/
theorem of_child {project : Path} {text : String}
    (anchored : ".." ∉ project.parts ∨ t.isDirectory project = true)
    (straight : ".." ∉ Path.partsOf text) : ∃ place, Leads t (project.child text) place := by
  rw [Path.child, Path.join]
  split
  · exact ⟨_, of_straight t straight⟩
  rcases anchored with names | there
  · exact ⟨_, of_straight t fun mem => (List.mem_append.mp mem).elim names straight⟩
  · unfold isDirectory look at there
    rcases walked : t.walk [] project.parts with f | here
    · simp [locate, walked, Except.mapError, bind, Except.bind] at there
    · refine ⟨here ++ Path.partsOf text, project.parts, _, here, rfl, walked, ?_, straight, rfl⟩
      simp only [locate, walked, Except.mapError, bind, Except.bind] at there
      cases entry : t.at? here with
      | none => simp [entry, throw, throwThe, MonadExceptOf.throw] at there
      | some e =>
        cases e with
        | directory => rfl
        | file c => simp [entry, pure, Except.pure] at there

theorem eq_of_locate (h : Leads t p place) (hx : t.locate p = .ok x) : x = place := by
  obtain ⟨front, back, here, parts, walked, -, straight, rfl⟩ := h
  rw [locate, parts, walk_append, walked] at hx
  rcases hback : t.walk here back with f | y
  · simp [hback, Except.mapError] at hx
  · simp only [hback, Except.mapError, Except.ok.injEq] at hx
    rw [← hx, eq_append_of_walk straight hback]

/-- The place can be walked to if the directory that it is in is there. -/
theorem locate (h : Leads t p place) (closed : t.Closed)
    (parent : t.at? place.dropLast = some .directory) : t.locate p = .ok place := by
  obtain ⟨front, back, here, parts, walked, directory, straight, rfl⟩ := h
  have down : t.walk here back = .ok (here ++ back) := by
    refine closed.walk_straight straight fun some => ?_
    rwa [List.dropLast_append_of_ne_nil some] at parent
  rw [Tree.locate, parts, walk_append, walked]
  dsimp only
  rw [down]
  rfl

/-- The directory that the place is in is there if the place can be walked to. -/
theorem parent_of_locate (h : Leads t p place) (closed : t.Closed) (hx : t.locate p = .ok x) :
    t.at? place.dropLast = some .directory := by
  obtain ⟨front, back, here, parts, walked, directory, straight, rfl⟩ := h
  induction back using List.reverseRecOn with
  | nil =>
    rw [List.append_nil]
    exact closed.parent directory
  | append_singleton back n _ =>
    rw [Tree.locate, parts, walk_append, walked] at hx
    dsimp only at hx
    rw [walk_append] at hx
    rcases hback : t.walk here back with f | y
    · simp [hback, Except.mapError] at hx
    · have rest : ".." ∉ back := fun mem => straight (List.mem_append_left _ mem)
      rw [eq_append_of_walk rest hback] at hback
      rcases hlast : t.walk (here ++ back) [n] with f | z
      · simp [hback, hlast, Except.mapError] at hx
      · rw [walk] at hlast
        split at hlast
        next => cases hlast
        next hstep =>
          rw [← List.append_assoc, List.dropLast_concat]
          exact (step_eq_ok.mp hstep).1

/-- A look along a path finds what the place holds that it leads to. -/
theorem look_eq_ok (h : Leads t p place) (closed : t.Closed) :
    t.look p = .ok e ↔ t.at? place = some e := by
  unfold look
  constructor
  · intro found
    rcases located : t.locate p with f | x
    · rw [located] at found
      cases found
    · rw [located, h.eq_of_locate located] at found
      simp only [bind, Except.bind] at found
      split at found
      next e' there =>
        cases found
        exact there
      next => cases found
  · intro there
    rw [h.locate closed (closed.parent there)]
    simp only [bind, Except.bind, there]
    rfl

theorem present_iff (h : Leads t p place) (closed : t.Closed) :
    t.present p = true ↔ t.at? place ≠ none := by
  rw [present, Option.ne_none_iff_exists']
  simp only [← h.look_eq_ok closed]
  rcases t.look p with f | e <;> simp [Except.toOption]

theorem isFile_iff (h : Leads t p place) (closed : t.Closed) :
    t.isFile p = true ↔ ∃ c, t.at? place = some (.file c) := by
  simp only [← h.look_eq_ok closed, isFile]
  rcases t.look p with f | _ | _ <;> simp

theorem isDirectory_iff (h : Leads t p place) (closed : t.Closed) :
    t.isDirectory p = true ↔ t.at? place = some .directory := by
  simp only [← h.look_eq_ok closed, isDirectory]
  rcases t.look p with f | _ | _ <;> simp

theorem read_eq_ok (h : Leads t p place) (closed : t.Closed) {c : Content} :
    t.read p = .ok c ↔ t.at? place = some (.file c) := by
  simp only [← h.look_eq_ok closed, read]
  rcases t.look p with f | _ | _ <;>
    simp [bind, Except.bind, pure, Except.pure, throw, throwThe, MonadExceptOf.throw]

/-- The path without its last name leads to the directory of the place, unless it leads to a
directory that is there. -/
theorem parent (h : Leads t p place) (other : t.at? place ≠ some .directory) :
    Leads t p.parent place.dropLast := by
  obtain ⟨front, back, here, parts, walked, directory, straight, rfl⟩ := h
  have some : back ≠ [] := by
    rintro rfl
    rw [List.append_nil] at other
    exact other directory
  refine ⟨front, back.dropLast, here, ?_, walked, directory, ?_, ?_⟩
  · rw [Path.parent, parts, List.dropLast_append_of_ne_nil some]
  · exact fun mem => straight (List.dropLast_subset _ mem)
  · rw [List.dropLast_append_of_ne_nil some]

theorem ne_nil_of_not_directory (other : t.at? place ≠ some .directory) : place ≠ [] := by
  rintro rfl
  exact other rfl

end Leads

/-- Whatever is written by names only from a project leads somewhere. -/
def Reaches (t : Tree) (project : Path) : Prop :=
  ∀ text, ".." ∉ Path.partsOf text → ∃ place, t.Leads (project.child text) place

theorem reaches_of_anchored {project : Path}
    (anchored : ".." ∉ project.parts ∨ t.isDirectory project = true) : t.Reaches project :=
  fun _ straight => Leads.of_child anchored straight

theorem Reaches.mono {project : Path} (h : t.Reaches project) (keeps : KeepsDirectories t t') :
    t'.Reaches project := by
  intro text straight
  obtain ⟨place, leads⟩ := h text straight
  exact ⟨place, leads.mono keeps⟩

/-! ## Making directories -/

/-- From `t` to `t'` directories were made above or at a place, and nothing else changed. -/
structure Branched (t : Tree) (place : Place) (t' : Tree) : Prop where
  changes : ∀ x, t'.at? x = t.at? x ∨
    t.at? x = none ∧ t'.at? x = some .directory ∧ x <+: place
  closed : t'.Closed
  made : t'.at? place = some .directory

theorem Branched.keeps (h : Branched t place t') : KeepsDirectories t t' := by
  intro x hx
  rcases h.changes x with same | ⟨absent, -, -⟩
  · rw [same, hx]
  · rw [hx] at absent
    cases absent

theorem makeDirectory_eq_ok (h : Leads t p place) (closed : t.Closed)
    (made : t.makeDirectory p = .ok t') :
    t.at? place = none ∧ t.at? place.dropLast = some .directory ∧ t' = t.put place .directory := by
  unfold makeDirectory at made
  rcases located : t.locate p with f | x
  · rw [located] at made
    cases made
  · obtain rfl := h.eq_of_locate located
    rw [located] at made
    simp only [bind, Except.bind] at made
    split at made
    next => cases made
    next absent =>
      cases made
      exact ⟨absent, h.parent_of_locate closed located, rfl⟩

/-- Where a directory cannot be made since something is missing, it is not there. -/
theorem not_directory_of_makeDirectory (h : Leads t p place) (closed : t.Closed) {q : Path}
    (missing : t.makeDirectory p = .error (.notFound q)) : t.at? place ≠ some .directory := by
  intro directory
  rw [makeDirectory, h.locate closed (closed.parent directory)] at missing
  simp only [bind, Except.bind, directory] at missing
  cases missing

theorem branched_put (h : Leads t p place) (closed : t.Closed)
    (made : t.makeDirectory p = .ok t') : Branched t place t' := by
  obtain ⟨absent, parent, rfl⟩ := makeDirectory_eq_ok h closed made
  have below : place ≠ [] := Leads.ne_nil_of_not_directory (by rw [absent]; nofun)
  refine ⟨fun x => ?_, closed.put below parent fun _ => rfl, ?_⟩
  · rw [at?_put below]
    split
    next same => exact .inr ⟨same ▸ absent, rfl, same ▸ List.prefix_rfl⟩
    next => exact .inl rfl
  · rw [at?_put below, if_pos rfl]

/-- A directory that is there need not be made. -/
theorem branched_self (h : Leads t p place) (closed : t.Closed) (there : t.isDirectory p = true) :
    Branched t place t :=
  ⟨fun _ => .inl rfl, closed, (h.isDirectory_iff closed).mp there⟩

theorem Branched.trans {above : Place} (h : Branched t above t') (h' : Branched t' place u)
    (under : above <+: place) : Branched t place u := by
  refine ⟨fun x => ?_, h'.closed, h'.made⟩
  rcases h.changes x with same | ⟨absent, made, front⟩
  · rw [← same]
    exact h'.changes x
  · exact .inr ⟨absent, h'.keeps x made, front.trans under⟩

theorem branched_of_makeDirectories {fuel : Nat} (h : Leads t p place) (closed : t.Closed)
    (made : t.makeDirectories p fuel = .ok t') : Branched t place t' := by
  induction fuel generalizing p place t' with
  | zero => cases made
  | succ fuel ih =>
    rw [makeDirectories] at made
    split at made
    next t₁ one =>
      cases made
      exact branched_put h closed one
    next q missing =>
      split at made
      next => cases made
      next =>
        have other := not_directory_of_makeDirectory h closed missing
        split at made
        next => cases made
        next t₁ above =>
          have first : Branched t place.dropLast t₁ := ih (h.parent other) above
          have leads : Leads t₁ p place := h.mono first.keeps
          split at made
          next t₂ one =>
            cases made
            exact first.trans (branched_put leads first.closed one) (List.dropLast_prefix place)
          next =>
            split at made
            next there =>
              cases made
              exact first.trans (branched_self leads first.closed there) (List.dropLast_prefix place)
            next => cases made
    next =>
      split at made
      next there =>
        cases made
        exact branched_self h closed there
      next => cases made

/-! ## New files -/

theorem pad_injective (width : Nat) : Function.Injective (Moment.pad width) := by
  -- the number can be read back from its digits
  have back (n : Nat) : Nat.ofDigitChars 10 (Moment.pad width n).toList 0 = n := by
    rw [Moment.pad, String.toList_ofList, Nat.ofDigitChars_append, Nat.ofDigitChars_replicate_zero,
      Nat.mul_zero, Nat.ofDigitChars_toDigits (by decide) (by decide)]
  intro n m same
  rw [← back n, same, back m]

theorem nthBeside_injective (p : Path) : Function.Injective fun n => (nthBeside p n).parts := by
  intro n m same
  have names := List.append_cancel_left same
  simp only [List.cons.injEq, and_true] at names
  exact pad_injective 8 (String.append_right_inj _ |>.mp names)

/-- The new file stands in the same directory, under a proper name. -/
theorem parts_besides (t : Tree) (p : Path) :
    ∃ n, n ≠ ".." ∧ (t.besides p).parts = Path.collapse p.parent.parts ++ [n] := by
  refine ⟨_, fun same => ?_, rfl⟩
  have lengths := congrArg String.length same
  have tmp : (".tmp.").length = 5 := by decide
  have dots : ("..").length = 2 := by decide
  simp only [String.length_append, tmp, dots] at lengths
  omega

/-- There is nothing yet under the name of the new file. -/
theorem at?_besides (t : Tree) (p : Path) : t.at? (t.besides p).parts = none := by
  rcases found : (List.range (t.entries.length + 1)).find? fun n =>
      (t.at? (nthBeside p n).parts).isNone with _ | n
  · -- there are more names than entries, so they cannot all be taken
    have taken : ∀ n ∈ List.range (t.entries.length + 1),
        (nthBeside p n).parts ∈ t.entries.map (·.1) := by
      intro n hn
      have there := List.find?_eq_none.mp found n hn
      have some : (nthBeside p n).parts ≠ [] := by simp [nthBeside]
      rw [Bool.not_eq_true, Option.isNone_eq_false_iff, at?_isSome some, List.any_eq_true] at there
      obtain ⟨f, hf, same⟩ := there
      exact List.mem_map.mpr ⟨f, hf, by simpa using same⟩
    have distinct : ((List.range (t.entries.length + 1)).map fun n => (nthBeside p n).parts).Nodup :=
      List.Nodup.map (nthBeside_injective p) List.nodup_range
    have fewer := (distinct.subperm (List.forall_mem_map.mpr taken)).length_le
    simp only [List.length_map, List.length_range] at fewer
    omega
  · rw [besides, found]
    simpa using List.find?_some found

/-! ## Replacing a file -/

/-- A text was written to a place, and at most directories were made besides. -/
structure Written (t : Tree) (place : Place) (text : String) (t' : Tree) : Prop where
  here : t'.at? place = some (.file (.text text))
  others : ∀ x, x ≠ place → t'.at? x = t.at? x ∨ t.at? x = none ∧ t'.at? x = some .directory
  closed : t'.Closed

theorem Written.keeps {text : String} (h : Written t place text t')
    (other : t.at? place ≠ some .directory) : KeepsDirectories t t' := by
  intro x hx
  have elsewhere : x ≠ place := fun same => other (same ▸ hx)
  rcases h.others x elsewhere with same | ⟨absent, -⟩
  · rw [same, hx]
  · rw [hx] at absent
    cases absent

/-- A file that is elsewhere after a text was written was there before. -/
theorem Written.at?_of_file {text : String} {c : Content} (h : Written t place text t')
    (elsewhere : x ≠ place) (there : t'.at? x = some (.file c)) : t.at? x = some (.file c) := by
  rcases h.others x elsewhere with same | ⟨-, made⟩
  · rw [← same, there]
  · rw [there] at made
    cases made

/-- A new file in a directory that is there can be moved to a place in it that is no directory. -/
theorem moveOver_written (text : String) {q : Path} {source : Place} (h : Leads t p place)
    (closed : t.Closed) (parent : t.at? place.dropLast = some .directory)
    (other : t.at? place ≠ some .directory) (hq : Leads t q source)
    (beside : t.at? source.dropLast = some .directory) (fresh : t.at? source = none) :
    ∃ t', (t.put source (.file (.text text))).moveOver q p = .ok t' ∧ Written t place text t' := by
  have below : place ≠ [] := Leads.ne_nil_of_not_directory other
  have below' : source ≠ [] := Leads.ne_nil_of_not_directory (by rw [fresh]; nofun)
  let t₂ := t.put source (.file (.text text))
  have keeps : KeepsDirectories t t₂ := fun x hx => by
    rw [at?_put below', if_neg]
    · exact hx
    · rintro rfl
      rw [hx] at fresh
      cases fresh
  have closed₂ : t₂.Closed := closed.put below' beside fun there => by rw [fresh] at there; cases there
  have new : t₂.at? source = some (.file (.text text)) := by rw [at?_put below', if_pos rfl]
  have old : t₂.at? place ≠ some .directory := by
    rw [at?_put below']
    split
    · nofun
    · exact other
  have moved : t₂.moveOver q p = .ok ((t₂.remove source).put place (.file (.text text))) := by
    rw [moveOver, (hq.mono keeps).locate closed₂ (keeps _ beside),
      (h.mono keeps).locate closed₂ (keeps _ parent)]
    simp only [bind, Except.bind, new]
    rfl
  refine ⟨_, moved, ?_⟩
  -- in the end the new file's name is free again
  have last (x : Place) : ((t₂.remove source).put place (.file (.text text))).at? x =
      (t.put place (.file (.text text))).at? x := by
    rw [at?_put below, at?_put below, at?_remove below', at?_put below']
    by_cases same : x = source
    · simp [same, fresh]
    · simp [same]
  refine ⟨by rw [last, at?_put below, if_pos rfl], fun x hx => ?_, ?_⟩
  · rw [last, at?_put below, if_neg hx]
    exact .inl rfl
  · refine closed_of_parent fun x there => ?_
    have closed' : (t.put place (.file (.text text))).Closed :=
      closed.put below parent fun there => absurd there other
    rw [last] at there ⊢
    obtain ⟨e, he⟩ := Option.ne_none_iff_exists'.mp there
    exact closed'.parent he

/-- Replacing a file either changes nothing, or writes the text to the place that the path leads to. -/
theorem replace_cases (h : Leads t p place) (closed : t.Closed)
    (other : t.at? place ≠ some .directory) (text : String) :
    (∃ f, t.replace p text = (.error f, t)) ∨
      ∃ t', t.replace p text = (.ok (), t') ∧ Written t place text t' := by
  unfold replace
  rcases made : t.makeDirectories p.parent (p.parent.parts.length + 1) with f | t₁
  · exact .inl ⟨f, rfl⟩
  · right
    have branched : Branched t place.dropLast t₁ :=
      branched_of_makeDirectories (h.parent other) closed made
    have leads : Leads t₁ p place := h.mono branched.keeps
    have below : place ≠ [] := Leads.ne_nil_of_not_directory other
    have other₁ : t₁.at? place ≠ some .directory := by
      rcases branched.changes place with same | ⟨-, -, front⟩
      · rwa [same]
      · have shorter := front.length_le
        have some := List.length_pos_iff.mpr below
        rw [List.length_dropLast] at shorter
        omega
    obtain ⟨n, name, source⟩ := parts_besides t₁ p
    rw [← (h.parent other).eq_collapse] at source
    have proper : ".." ∉ (t₁.besides p).parts := by
      rw [source]
      simp [(h.parent other).straight, Ne.symm name]
    have beside : t₁.at? (t₁.besides p).parts.dropLast = some .directory := by
      rw [source, List.dropLast_concat]
      exact branched.made
    have located : t₁.locate (t₁.besides p) = .ok (t₁.besides p).parts :=
      (Leads.of_straight t₁ proper).locate branched.closed beside
    obtain ⟨t', moved, written⟩ := moveOver_written text leads branched.closed branched.made other₁
      (Leads.of_straight t₁ proper) beside (at?_besides t₁ p)
    refine ⟨t', ?_, written.here, fun x hx => ?_, written.closed⟩
    · simp [located, moved]
    · rcases written.others x hx with same | ⟨absent, made⟩
      · rw [same]
        rcases branched.changes x with same | ⟨absent, made, -⟩
        · exact .inl same
        · exact .inr ⟨absent, made⟩
      · rcases branched.changes x with same | ⟨-, there, -⟩
        · exact .inr ⟨same ▸ absent, made⟩
        · rw [there] at absent
          cases absent

/-! ## Texts -/

/-- A place holds a file with a text. -/
def HoldsText (t : Tree) (place : Place) (text : String) : Prop :=
  ∃ c, t.at? place = some (.file c) ∧ c.decode = .ok text

variable {text text' : String}

theorem HoldsText.unique (h : t.HoldsText place text) (h' : t.HoldsText place text') :
    text = text' := by
  obtain ⟨c, there, decoded⟩ := h
  obtain ⟨c', there', decoded'⟩ := h'
  rw [there] at there'
  cases there'
  rw [decoded] at decoded'
  exact Except.ok.inj decoded'

theorem HoldsText.congr (h : t.HoldsText place text) (same : t'.at? place = t.at? place) :
    t'.HoldsText place text := by
  unfold HoldsText
  rwa [same]

theorem HoldsText.not_directory (h : t.HoldsText place text) : t.at? place ≠ some .directory := by
  obtain ⟨c, there, -⟩ := h
  rw [there]
  nofun

theorem Written.holdsText (h : Written t place text t') : t'.HoldsText place text :=
  ⟨.text text, h.here, rfl⟩

end Tree

end Scaffold
