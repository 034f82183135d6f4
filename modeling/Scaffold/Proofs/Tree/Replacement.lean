import Scaffold.Proofs.Tree.Places

/-!
# Replacing a file, whatever fails

A file is replaced through a new file beside it.  The directories above may have to be made first, the
new file may fail to come about, its text may fail to get into it or to the disk, and the new file may
fail to take the name of the old one.

However it ends, the new file is gone.  Where replacing fails, at whichever stage, every file is what it
was, and none came into being: at most there are more directories.  Where it succeeds, the path leads to
a file that holds exactly the text, and every other file is what it was.

Nothing is assumed about the tree or the path here.
-/

namespace Scaffold

namespace Tree

variable {t t' u : Tree} {p q : Path} {here x : Place} {text : String} {failing : Option Stage}

/-- The files of two trees are the same, each with its content; directories do not count. -/
def SameFiles (t t' : Tree) : Prop := ∀ x c, t'.at? x = some (.file c) ↔ t.at? x = some (.file c)

namespace SameFiles

theorem refl (t : Tree) : SameFiles t t := fun _ _ => Iff.rfl

theorem trans (h : SameFiles t t') (h' : SameFiles t' u) : SameFiles t u :=
  fun x c => (h' x c).trans (h x c)

/-- Trees that hold the same everywhere have the same files. -/
theorem of_at? (h : ∀ x, t'.at? x = t.at? x) : SameFiles t t' := fun x c => by rw [h]

end SameFiles

/-! ## Directories -/

/-- A directory is made where there is nothing. -/
theorem makeDirectory_sameFiles (made : t.makeDirectory p = .ok t') : SameFiles t t' := by
  unfold makeDirectory at made
  rcases located : t.locate p with f | place
  · rw [located] at made
    cases made
  · simp only [located, bind, Except.bind] at made
    split at made
    next => cases made
    next absent =>
      cases made
      have below : place ≠ [] := Leads.ne_nil_of_not_directory (by rw [absent]; nofun)
      intro x c
      rw [at?_put below]
      split
      next here => simp [here, absent]
      next => rfl

theorem makeDirectories_sameFiles {fuel : Nat} (made : t.makeDirectories p fuel = .ok t') :
    SameFiles t t' := by
  induction fuel generalizing p t' with
  | zero => cases made
  | succ fuel ih =>
    rw [makeDirectories] at made
    split at made
    next one =>
      cases made
      exact makeDirectory_sameFiles one
    next =>
      split at made
      next => cases made
      next =>
        split at made
        next => cases made
        next t₁ above =>
          -- the directories above come first, then this one
          split at made
          next one =>
            cases made
            exact (ih above).trans (makeDirectory_sameFiles one)
          next =>
            split at made
            next =>
              cases made
              exact ih above
            next => cases made
    next =>
      split at made
      next =>
        cases made
        exact SameFiles.refl t
      next => cases made

/-! ## New files -/

theorem not_mem_collapse (names : List String) : ".." ∉ Path.collapse names := by
  suffices ∀ acc : List String, ".." ∉ acc →
      ".." ∉ names.foldl (fun acc n => if n = ".." then acc.drop 1 else n :: acc) acc by
    simpa [Path.collapse] using this [] (by simp)
  induction names with
  | nil => exact fun acc h => h
  | cons n names ih =>
    intro acc h
    refine ih _ ?_
    dsimp only
    split
    · exact fun mem => h (List.drop_subset 1 acc mem)
    next other => exact fun mem => (List.mem_cons.mp mem).elim (fun same => other same.symm) h

/-- The name of the new file leads straight to its place, if anywhere. -/
theorem locate_besides (h : t.locate (t.besides p) = .ok x) : x = (t.besides p).parts := by
  obtain ⟨n, name, parts⟩ := parts_besides t p
  have straight : ".." ∉ (t.besides p).parts := by
    rw [parts]
    simp [not_mem_collapse, Ne.symm name]
  exact (Leads.of_straight t straight).eq_of_locate h

theorem KeepsDirectories.locate (h : KeepsDirectories t t') (hx : t.locate p = .ok x) :
    t'.locate p = .ok x := by
  unfold Tree.locate at hx ⊢
  rcases walked : t.walk [] p.parts with f | y
  · rw [walked] at hx
    cases hx
  · rw [walked] at hx
    cases hx
    rw [h.walk walked]
    rfl

/-- A new file that is taken away again leaves nothing behind. -/
theorem put_remove_sameFiles (fresh : t.at? x = none) (e : Entry) :
    SameFiles t ((t.put x e).remove x) := by
  have below : x ≠ [] := Leads.ne_nil_of_not_directory (by rw [fresh]; nofun)
  refine .of_at? fun y => ?_
  rw [at?_remove below, at?_put below]
  split
  next here => rw [here, fresh]
  next => rfl

/-- What gets another name, where from and where to. -/
theorem moveOver_eq_ok (moved : t.moveOver q p = .ok t') :
    ∃ a b e, t.locate q = .ok a ∧ t.locate p = .ok b ∧ t.at? a = some e ∧
      t.at? b ≠ some .directory ∧ t' = (t.remove a).put b e := by
  unfold moveOver at moved
  rcases source : t.locate q with f | a
  · rw [source] at moved
    cases moved
  rcases target : t.locate p with f | b
  · rw [source, target] at moved
    cases moved
  simp only [source, target, bind, Except.bind] at moved
  split at moved
  next => cases moved
  next => cases moved
  next e there other =>
    cases moved
    exact ⟨a, b, e, rfl, rfl, there, other, rfl⟩

/-- A path leads to a file that holds a text, and all other files are those of an earlier tree. -/
def Replaced (t : Tree) (p : Path) (text : String) (t' : Tree) : Prop :=
  ∃ place, t'.locate p = .ok place ∧ t'.at? place = some (.file (.text text)) ∧
    ∀ x, x ≠ place → ∀ c, t'.at? x = some (.file c) ↔ t.at? x = some (.file c)

/-- A new file that gets the name of another one is there under this name and no longer under its own. -/
theorem moveOver_replaced (fresh : t.at? x = none) (beside : t.locate q = .ok x)
    (moved : (t.put x (.file (.text text))).moveOver q p = .ok t') : Replaced t p text t' := by
  have below : x ≠ [] := Leads.ne_nil_of_not_directory (by rw [fresh]; nofun)
  have new (y : Place) := at?_put (t := t) (e := .file (.text text)) below y
  have keeps : KeepsDirectories t (t.put x (.file (.text text))) := fun y hy => by
    rw [new, if_neg]
    · exact hy
    · rintro rfl
      rw [hy] at fresh
      cases fresh
  obtain ⟨a, b, e, source, target, there, other, rfl⟩ := moveOver_eq_ok moved
  obtain rfl : x = a := Except.ok.inj ((keeps.locate beside).symm.trans source)
  obtain rfl : e = .file (.text text) := by
    rw [new, if_pos rfl] at there
    exact (Option.some.inj there).symm
  have below' : b ≠ [] := Leads.ne_nil_of_not_directory other
  have last (y : Place) : (((t.put x (.file (.text text))).remove x).put b (.file (.text text))).at? y =
      if y = b then some (.file (.text text)) else t.at? y := by
    rw [at?_put below', at?_remove below, new]
    by_cases own : y = x
    · simp [own, fresh]
    · simp [own]
  refine ⟨b, ?_, by rw [last, if_pos rfl], fun y elsewhere c => by rw [last, if_neg elsewhere]⟩
  -- neither name was that of a directory, so the way to the file is still there
  refine KeepsDirectories.locate (fun y hy => ?_) target
  have old : t.at? y = some .directory := by
    rw [new] at hy
    split at hy
    next => cases hy
    next => exact hy
  rw [last, if_neg]
  · exact old
  · rintro rfl
    exact other hy

/-! ## Files replaced -/

theorem SameFiles.replaced (h : SameFiles t t') (h' : Replaced t' p text u) : Replaced t p text u := by
  obtain ⟨place, located, here, others⟩ := h'
  exact ⟨place, located, here, fun x elsewhere c => (others x elsewhere c).trans (h x c)⟩

/-- Whichever stage fails, the files are what they were; and if none does, one file holds the text and
the others are what they were. -/
theorem replace_settles (t : Tree) (p : Path) (text : String) (failing : Option Stage) :
    (∃ f t', t.replace p text failing = (.error f, t') ∧ SameFiles t t') ∨
      ∃ t', t.replace p text failing = (.ok (), t') ∧ Replaced t p text t' := by
  unfold replace
  rcases made : t.makeDirectories p.parent (p.parent.parts.length + 1) with f | t₁
  · exact .inl ⟨f, t, rfl, .refl t⟩
  have directories : SameFiles t t₁ := makeDirectories_sameFiles made
  dsimp only
  rcases located : t₁.locate (t₁.besides p) with f | x
  · exact .inl ⟨f, t₁, rfl, directories⟩
  obtain rfl := locate_besides located
  have fresh := at?_besides t₁ p
  have cleaned (e : Entry) : SameFiles t ((t₁.put (t₁.besides p).parts e).remove (t₁.besides p).parts) :=
    directories.trans (put_remove_sameFiles fresh e)
  dsimp only
  split
  · exact .inl ⟨_, _, rfl, directories⟩
  split
  · exact .inl ⟨_, _, rfl, cleaned _⟩
  split
  · exact .inl ⟨_, _, rfl, cleaned _⟩
  rcases moved : (t₁.put (t₁.besides p).parts (.file (.text text))).moveOver (t₁.besides p) p with f | t₃
  · exact .inl ⟨f, _, rfl, cleaned _⟩
  · exact .inr ⟨t₃, rfl, directories.replaced (moveOver_replaced fresh located moved)⟩

/-- Where replacing a file succeeds, its text is what is read afterwards. -/
theorem read_of_replace (h : t.replace p text = (.ok (), t')) : t'.read p = .ok (.text text) := by
  rcases replace_settles t p text none with ⟨f, u, failed, -⟩ | ⟨u, replaced, place, located, here, -⟩
  · rw [failed] at h
    cases h
  · rw [replaced] at h
    cases h
    simp only [read, look, located, bind, Except.bind, here]
    rfl

/-! ## Other texts -/

/-- Two trees that differ in nothing but what their files hold. -/
def SameShape (t u : Tree) : Prop :=
  ∀ x, t.at? x = u.at? x ∨ ∃ c c', t.at? x = some (.file c) ∧ u.at? x = some (.file c')

theorem SameShape.step (h : SameShape t u) (name : String) : t.step here name = u.step here name := by
  unfold Tree.step
  rcases h here with same | ⟨c, c', ht, hu⟩
  · rw [same]
  · rw [ht, hu]

theorem SameShape.locate (h : SameShape t u) (p : Path) : t.locate p = u.locate p := by
  suffices ∀ here, t.walk here p.parts = u.walk here p.parts by
    unfold Tree.locate
    rw [this]
  induction p.parts with
  | nil => exact fun _ => rfl
  | cons n names ih =>
    intro here
    rw [Tree.walk, Tree.walk, h.step]
    split
    · rfl
    · exact ih _

/-- A file gets another name when there is one, and no directory has that name. -/
theorem moveOver_succeeds_iff :
    (∃ t', t.moveOver q p = .ok t') ↔ ∃ a b, t.locate q = .ok a ∧ t.locate p = .ok b ∧
      t.at? a ≠ none ∧ t.at? b ≠ some .directory := by
  constructor
  · rintro ⟨t', moved⟩
    obtain ⟨a, b, e, source, target, there, other, -⟩ := moveOver_eq_ok moved
    exact ⟨a, b, source, target, by rw [there]; nofun, other⟩
  · rintro ⟨a, b, source, target, there, other⟩
    obtain ⟨e, there⟩ := Option.ne_none_iff_exists'.mp there
    unfold moveOver
    simp only [source, target, there, bind, Except.bind]
    exact ⟨_, rfl⟩

/-- What the files hold is nothing that giving another name depends on. -/
theorem SameShape.moveOver {q : Path} (h : SameShape t u) (moved : t.moveOver q p = .ok t') :
    ∃ u', u.moveOver q p = .ok u' := by
  obtain ⟨a, b, hq, hp, there, other⟩ := moveOver_succeeds_iff.mp ⟨t', moved⟩
  rw [h.locate] at hq hp
  refine moveOver_succeeds_iff.mpr ⟨a, b, hq, hp, ?_, ?_⟩
  · rcases h a with same | ⟨c, c', -, held⟩
    · rwa [← same]
    · rw [held]
      nofun
  · rcases h b with same | ⟨c, c', -, held⟩
    · rwa [← same]
    · rw [held]
      nofun

/-- Whether a file can be replaced does not depend on the text. -/
theorem replace_any {text : String} (h : t.replace p text = (.ok (), t')) (text' : String) :
    ∃ u, t.replace p text' = (.ok (), u) := by
  unfold replace at h ⊢
  rcases made : t.makeDirectories p.parent (p.parent.parts.length + 1) with f | t₁
  · rw [made] at h
    cases h
  · rw [made] at h
    dsimp only at h ⊢
    rcases found : t₁.locate (t₁.besides p) with f | place
    · rw [found] at h
      cases h
    · rw [found] at h
      obtain rfl := locate_besides found
      have fresh := at?_besides t₁ p
      have below : (t₁.besides p).parts ≠ [] :=
        Leads.ne_nil_of_not_directory (by rw [fresh]; nofun)
      dsimp only at h ⊢
      rw [if_neg nofun, if_neg (by decide), if_neg nofun] at h ⊢
      have alike : SameShape (t₁.put (t₁.besides p).parts (.file (.text text)))
          (t₁.put (t₁.besides p).parts (.file (.text text'))) := fun x => by
        rw [at?_put below, at?_put below]
        split
        · exact .inr ⟨_, _, rfl, rfl⟩
        · exact .inl rfl
      rcases moved : (t₁.put (t₁.besides p).parts (.file (.text text))).moveOver (t₁.besides p) p
        with f | t₃
      · rw [moved] at h
        cases h
      · obtain ⟨u, moved⟩ := alike.moveOver moved
        rw [moved]
        exact ⟨u, rfl⟩

end Tree

end Scaffold
