import Mathlib.Data.Prod.Lex
import Scaffold.Proofs.Resolver.Walks

/-!
# Recipes in search directories

Words that name neither a path nor anything in a kit are looked up in the search directories.  Each
directory offers the deepest recipe that the words lead to, or else the deepest group; of the offers a
recipe comes before a group and a deeper one before one less deep, and of equally good ones that of the
earliest directory is taken.  So the outcome is a recipe wherever any of the directories has one, even
one that is less deep or in a later directory than some group.
-/

namespace Scaffold

namespace Resolver

variable {t : Tree} {r : Resolver} {base : Path} {tokens : List String} {d : Nat} {file : Path}

/-! ## Ranks -/

/-- Recipes rank above groups, and of each kind the deeper ones above the others. -/
def Walk.rank (w : Walk) : Bool ×ₗ Nat := toLex (!w.isGroup, w.depth)

theorem better_iff {a b : Walk} : better a b = true ↔ b.rank < a.rank := by
  rw [Walk.rank, Walk.rank, Prod.Lex.toLex_lt_toLex, better]
  cases a.isGroup <;> cases b.isGroup <;> simp

/-- What leads further leads through a directory. -/
theorem isDirectory_of_look {p : Path} {back : List String} {e : Entry} (further : back ≠ [])
    (h : t.look ⟨p.root, p.parts ++ back⟩ = .ok e) : t.isDirectory p = true := by
  obtain ⟨n, rest, rfl⟩ := List.exists_cons_of_ne_nil further
  unfold Tree.look Tree.locate at h
  rw [Tree.walk_append] at h
  -- the walk got as far as `p` and took one more step from there
  cases walked : t.walk [] p.parts with
  | error f =>
    rw [walked] at h
    cases h
  | ok x =>
    rw [walked] at h
    cases stepped : t.step x n with
    | error f =>
      simp only [Tree.walk, stepped] at h
      cases h
    | ok y =>
      have directory := (Tree.step_eq_ok.mp stepped).1
      have look : t.look p = .ok .directory := by
        rw [Tree.look, Tree.locate, walked]
        simp only [Except.mapError, Bind.bind, Except.bind, directory]
        rfl
      rw [Tree.isDirectory, look]

theorem Names.take_ne_nil (h : Names tokens d) : tokens.take d ≠ [] := by
  have some := h.some
  have within := h.within
  rw [ne_eq, List.take_eq_nil_iff]
  rintro (none | rfl)
  · omega
  · rw [List.length_nil] at within
    omega

theorem RecipeAt.isDirectory (h : RecipeAt t base tokens d file) : t.isDirectory base = true := by
  obtain ⟨there, name, -, rfl⟩ := h.path
  rw [Tree.isFile] at there
  split at there
  next c found =>
    rw [List.append_assoc] at found
    exact isDirectory_of_look (List.append_ne_nil_of_right_ne_nil _ (List.cons_ne_nil _ _)) found
  next => cases there

theorem GroupAt.isDirectory (h : GroupAt t base tokens d) : t.isDirectory base = true := by
  have there : t.isDirectory (below base tokens d) = true := by
    have nested := h.nested
    rw [Recipe.isNestedIn, Bool.and_eq_true] at nested
    exact nested.1
  rw [Tree.isDirectory] at there
  split at there
  next found => exact isDirectory_of_look h.names.take_ne_nil found
  next => cases there

theorem isDirectory_of_walk? {w : Walk} (h : walk? t base tokens = some w) :
    t.isDirectory base = true := by
  cases group : w.isGroup with
  | false => exact (walk?_eq_recipe.mp ⟨h, group⟩).2.1.isDirectory
  | true => exact (walk?_eq_group.mp ⟨h, group⟩).2.2.1.isDirectory

/-! ## The best walk -/

theorem bestWalk?_append (t : Tree) (front : List Path) (D : Path) (tokens : List String) :
    bestWalk? t (front ++ [D]) tokens = match bestWalk? t front tokens, walk? t D tokens with
      | none, w => w
      | some b, none => some b
      | some b, some w => some (if better w b then w else b) := by
  rw [bestWalk?, bestWalk?, List.filter_append, List.foldl_append]
  cases there : t.isDirectory D with
  | true => rw [List.filter_cons_of_pos there]; rfl
  | false =>
    -- nothing is found where there is no directory
    have nothing : walk? t D tokens = none := by
      rw [Option.eq_none_iff_forall_ne_some]
      intro w found
      rw [isDirectory_of_walk? found] at there
      cases there
    rw [List.filter_cons_of_neg (by simp [there]), nothing, ← bestWalk?]
    cases bestWalk? t front tokens <;> rfl

theorem bestWalk?_eq_none {dirs : List Path} (h : bestWalk? t dirs tokens = none) :
    ∀ D ∈ dirs, walk? t D tokens = none := by
  induction dirs using List.reverseRecOn with
  | nil => exact fun D mem => absurd mem List.not_mem_nil
  | append_singleton front D ih =>
    rw [bestWalk?_append] at h
    cases best : bestWalk? t front tokens with
    | none =>
      rw [best] at h
      intro D' mem
      rcases List.mem_append.mp mem with mem | mem
      · exact ih best D' mem
      · rwa [List.mem_singleton.mp mem]
    | some b =>
      rw [best] at h
      cases there : walk? t D tokens <;> rw [there] at h <;> cases h

/-- The best walk is the one of highest rank in the first directory that has one of that rank. -/
theorem bestWalk?_eq_some {dirs : List Path} {w : Walk} (h : bestWalk? t dirs tokens = some w) :
    ∃ before D behind, dirs = before ++ D :: behind ∧ walk? t D tokens = some w ∧
      (∀ D' ∈ before, ∀ w', walk? t D' tokens = some w' → w'.rank < w.rank) ∧
      ∀ D' ∈ behind, ∀ w', walk? t D' tokens = some w' → w'.rank ≤ w.rank := by
  induction dirs using List.reverseRecOn generalizing w with
  | nil => cases h
  | append_singleton front D ih =>
    rw [bestWalk?_append] at h
    cases best : bestWalk? t front tokens with
    | none =>
      rw [best] at h
      refine ⟨front, D, [], rfl, h, fun D' mem w' found => ?_, fun D' mem => absurd mem List.not_mem_nil⟩
      rw [bestWalk?_eq_none best D' mem] at found
      cases found
    | some b =>
    obtain ⟨before, D', behind, rfl, found, less, le⟩ := ih best
    cases there : walk? t D tokens with
    | none =>
      rw [best, there] at h
      obtain rfl := Option.some.inj h
      refine ⟨before, D', behind ++ [D], by simp, found, less, fun E mem w' hw => ?_⟩
      rcases List.mem_append.mp mem with mem | mem
      · exact le E mem w' hw
      · rw [List.mem_singleton.mp mem, there] at hw
        cases hw
    | some w' =>
      rw [best, there] at h
      dsimp only at h
      cases beats : better w' b with
      | true =>
        rw [beats, if_pos rfl] at h
        obtain rfl := Option.some.inj h
        have above : b.rank < w'.rank := better_iff.mp beats
        refine ⟨before ++ D' :: behind, D, [], rfl, there, fun E mem v hv => ?_,
          fun E mem => absurd mem List.not_mem_nil⟩
        rcases List.mem_append.mp mem with mem | mem
        · exact (less E mem v hv).trans above
        · rcases List.mem_cons.mp mem with rfl | mem
          · rw [found] at hv
            exact Option.some.inj hv ▸ above
          · exact (le E mem v hv).trans_lt above
      | false =>
        rw [beats, if_neg Bool.false_ne_true] at h
        obtain rfl := Option.some.inj h
        have notAbove : w'.rank ≤ b.rank := not_lt.mp fun above => by
          rw [better_iff.mpr above] at beats
          cases beats
        refine ⟨before, D', behind ++ [D], by simp, found, less, fun E mem v hv => ?_⟩
        rcases List.mem_append.mp mem with mem | mem
        · exact le E mem v hv
        · rw [List.mem_singleton.mp mem, there] at hv
          exact Option.some.inj hv ▸ notAbove

/-! ## What the search directories give -/

/-- Words lead to something `d` deep in one of the search directories, and to nothing deeper in any of
them nor to anything as deep in an earlier one. -/
structure DeepestIn (dirs : List Path) (Leads : Path → Nat → Prop) (D : Path) (d : Nat) : Prop where
  leads : Leads D d
  deepest : ∀ D' ∈ dirs, ∀ e, Leads D' e → e ≤ d
  earliest : ∃ before behind, dirs = before ++ D :: behind ∧ ∀ D' ∈ before, ∀ e, Leads D' e → e < d

theorem DeepestIn.mem {dirs : List Path} {Leads : Path → Nat → Prop} {D : Path}
    (h : DeepestIn dirs Leads D d) : D ∈ dirs := by
  obtain ⟨before, behind, rfl, -⟩ := h.earliest
  simp

variable {dirs : List Path} {w : Walk}

variable {found : Resolved}

theorem inDirectories?_eq_some (h : r.inDirectories? t tokens = some found) :
    ∃ w, bestWalk? t r.directories tokens = some w ∧ found.isGroup = w.isGroup ∧
      found.path = w.path ∧ found.consumed = tokens.take w.depth ∧
      found.remaining = tokens.drop w.depth := by
  obtain ⟨w, best, rfl⟩ := Option.map_eq_some_iff.mp h
  exact ⟨w, best, rfl, rfl, rfl, rfl⟩

/-- Words that name neither a path nor anything in a kit are looked up in the search directories. -/
theorem resolveOnce_eq_inDirectories? {token : String} {rest : List String}
    (plain : looksLikePath token = false)
    (kits : ∀ k, r.kits.get? token = some k → inKit t k token rest = .ok none) :
    r.resolveOnce t (token :: rest) = .ok (r.inDirectories? t (token :: rest)) := by
  rw [resolveOnce, plain, if_neg Bool.false_ne_true, byName]
  cases kit : r.kits.get? token with
  | none => rfl
  | some k =>
    dsimp only
    rw [kits k kit]
    rfl

theorem resolve_of_resolveOnce (h : r.resolveOnce t tokens = .ok (some found)) :
    r.resolve t tokens = .ok (some found) := by
  rw [resolve, h]
  rfl

/-- Words that come to nothing are taken apart. -/
theorem resolve_of_resolveOnce_none (h : r.resolveOnce t tokens = .ok none) :
    r.resolve t tokens = match parts? tokens with
      | some parts => r.resolveOnce t parts
      | none => .ok none := by
  rw [resolve, h]
  rfl

end Resolver

end Scaffold
