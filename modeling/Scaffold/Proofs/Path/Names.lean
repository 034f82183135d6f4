import Mathlib.Algebra.GroupWithZero.Nat
import Mathlib.Data.List.Basic
import Scaffold.Path

/-!
# Names of files in reports

A report names a file by its path below the project, if the path is written so, and by the whole path
otherwise.  The name tells the place: paths that are written from a project and are named alike go
through the same components, from the same root or below the project.
-/

namespace Scaffold

namespace Text

/-- No piece between the occurrences of a character holds it. -/
theorem not_mem_of_mem_splitAll {c : Char} {s piece : List Char} (h : piece ∈ splitAll [c] s) :
    c ∉ piece := by
  have from_here (s front : List Char) (free : c ∉ front) (h : piece ∈ piecesAux [c] 0 front s) :
      c ∉ piece := by
    induction s generalizing front with
    | nil =>
      rw [piecesAux, List.mem_singleton] at h
      simpa [h] using free
    | cons d s ih =>
      by_cases same : c = d
      · subst same
        have cut : piecesAux [c] 0 front (c :: s) = front.reverse :: piecesAux [c] 0 [] s := by
          simp [piecesAux, afterStart?]
        rw [cut] at h
        rcases List.mem_cons.mp h with rfl | h
        · simpa using free
        · exact ih [] List.not_mem_nil h
      · have on : piecesAux [c] 0 front (d :: s) = piecesAux [c] 0 (d :: front) s := by
          simp [piecesAux, afterStart?, same]
        rw [on] at h
        exact ih (d :: front) (by simp [same, free]) h
  exact from_here s [] List.not_mem_nil h

theorem occurs_singleton {c : Char} {s : List Char} : occurs [c] s = true ↔ c ∈ s := by
  induction s with
  | nil => simp [occurs, cutAt?]
  | cons d s ih =>
    by_cases same : c = d
    · simp [occurs, cutAt?, afterStart?, same]
    · rw [List.mem_cons, ← ih]
      simp [occurs, cutAt?, afterStart?, same]

/-- A text without the character is one piece. -/
theorem splitAll_of_not_mem {c : Char} {s : List Char} (h : c ∉ s) : splitAll [c] s = [s] := by
  have from_here (front : List Char) (h : c ∉ s) : piecesAux [c] 0 front s = [front.reverse ++ s] := by
    induction s generalizing front with
    | nil => simp [piecesAux]
    | cons d s ih =>
      obtain ⟨other, rest⟩ := not_or.mp (mt List.mem_cons.mpr h)
      have on : piecesAux [c] 0 front (d :: s) = piecesAux [c] 0 (d :: front) s := by
        simp [piecesAux, afterStart?, other]
      rw [on, ih rest _ rest]
      simp
  exact from_here [] h

/-- The first piece ends at the first occurrence. -/
theorem splitAll_append_cons {c : Char} {a : List Char} (free : c ∉ a) (s : List Char) :
    splitAll [c] (a ++ c :: s) = a :: splitAll [c] s := by
  have from_here (a front : List Char) (free : c ∉ a) :
      piecesAux [c] 0 front (a ++ c :: s) = (front.reverse ++ a) :: piecesAux [c] 0 [] s := by
    induction a generalizing front with
    | nil => simp [piecesAux, afterStart?]
    | cons d a ih =>
      obtain ⟨other, rest⟩ := not_or.mp (mt List.mem_cons.mpr free)
      have on : piecesAux [c] 0 front (d :: a ++ c :: s) = piecesAux [c] 0 (d :: front) (a ++ c :: s) := by
        simp [piecesAux, afterStart?, other]
      rw [on, ih _ rest, List.reverse_cons, List.append_assoc, List.singleton_append]
  exact from_here a [] free

end Text

namespace Path

variable {a b project p q : Path} {text : String}

/-- A name that can stand in a path that was read. -/
structure IsName (n : String) : Prop where
  some : n ≠ ""
  point : n ≠ "."
  slash : '/' ∉ n.toList

theorem isName_of_mem_partsOf {n : String} (h : n ∈ partsOf text) : IsName n := by
  obtain ⟨piece, proper⟩ := List.mem_filter.mp h
  simp only [Bool.and_eq_true, bne_iff_ne, ne_eq] at proper
  obtain ⟨cs, hcs, rfl⟩ := List.mem_map.mp piece
  refine ⟨proper.1, proper.2, ?_⟩
  rw [String.toList_ofList]
  exact Text.not_mem_of_mem_splitAll hcs

/-- A name alone is read as itself. -/
theorem IsName.ofString {n : String} (h : IsName n) : ofString n = ⟨"", [n]⟩ := by
  have slash : ("/").toList = ['/'] := by decide
  have relative : (n.toList.takeWhile (· == '/')).length = 0 := by
    cases chars : n.toList with
    | nil => rfl
    | cons c cs =>
      have first := h.slash
      rw [chars, List.mem_cons, not_or] at first
      simp [Ne.symm first.1]
  have parts : partsOf n = [n] := by
    rw [partsOf, Text.split, slash, Text.splitAll_of_not_mem h.slash]
    simp [h.some, h.point]
  simp [Path.ofString, relative, parts]

theorem IsName.child {n : String} (h : IsName n) (p : Path) :
    p.child n = ⟨p.root, p.parts ++ [n]⟩ := by
  rw [Path.child, h.ofString, join]
  rfl

theorem toList_join (n : String) (xs : List String) :
    (Text.join "/" (n :: xs)).toList =
      n.toList ++ if xs = [] then [] else '/' :: (Text.join "/" xs).toList := by
  have slash : ("/").toList = ['/'] := by decide
  rw [Text.join, Text.join, String.toList_intercalate, String.toList_intercalate, slash]
  cases xs with
  | nil => simp [List.intercalate]
  | cons m xs => simp [List.intercalate_cons_cons]

/-- Joined names do not begin with a slash, and are not a point. -/
theorem join_isName {n : String} {xs : List String} (hx : ∀ m ∈ n :: xs, IsName m) :
    (Text.join "/" (n :: xs)).toList.head? ≠ some '/' ∧ Text.join "/" (n :: xs) ≠ "." := by
  have name := hx n List.mem_cons_self
  constructor
  · rw [toList_join]
    cases chars : n.toList with
    | nil => exact absurd (String.toList_eq_nil_iff.mp chars) name.some
    | cons c cs =>
      have slash := name.slash
      rw [chars, List.mem_cons, not_or] at slash
      simpa [eq_comm] using slash.1
  · intro point
    have chars := congrArg String.toList point
    rw [toList_join] at chars
    split at chars
    · rw [List.append_nil] at chars
      exact name.point (String.toList_inj.mp chars)
    · have slash : '/' ∈ (".").toList := by
        rw [← chars]
        simp
      exact absurd slash (by decide)

theorem head_join {xs : List String} (hx : ∀ n ∈ xs, IsName n) :
    (Text.join "/" xs).toList.head? ≠ some '/' := by
  cases xs with
  | nil => decide
  | cons n xs => exact (join_isName hx).1

/-- Names can be read off what they make with slashes between them. -/
theorem join_injective {xs ys : List String} (hx : ∀ n ∈ xs, IsName n) (hy : ∀ n ∈ ys, IsName n)
    (h : Text.join "/" xs = Text.join "/" ys) : xs = ys := by
  have free {zs : List String} (hz : ∀ n ∈ zs, IsName n) : ∀ l ∈ zs.map String.toList, '/' ∉ l := by
    intro l hl
    obtain ⟨n, hn, rfl⟩ := List.mem_map.mp hl
    exact (hz n hn).slash
  have empty : Text.join "/" [] = "" := rfl
  have chars := congrArg String.toList h
  cases xs with
  | nil =>
    cases ys with
    | nil => rfl
    | cons m ys =>
      rw [empty, toList_join] at chars
      have none := (List.append_eq_nil_iff.mp chars.symm).1
      exact absurd (String.toList_eq_nil_iff.mp none) (hy m List.mem_cons_self).some
  | cons n xs =>
    cases ys with
    | nil =>
      rw [empty, toList_join] at chars
      have none := (List.append_eq_nil_iff.mp chars).1
      exact absurd (String.toList_eq_nil_iff.mp none) (hx n List.mem_cons_self).some
    | cons m ys =>
      -- no name holds a slash, so the slashes are those that were put between names
      have slash : ("/").toList = ['/'] := by decide
      rw [Text.join, Text.join, String.toList_intercalate, String.toList_intercalate, slash] at chars
      have split := congrArg (List.splitOn '/') chars
      rw [List.splitOn_intercalate '/' (free hx) (by simp),
        List.splitOn_intercalate '/' (free hy) (by simp)] at split
      exact (List.map_inj_right fun _ _ => String.toList_inj.mp).mp split

/-! ## Paths in a report -/

/-- The name of a path in a report about a project. -/
def shownFrom (project p : Path) : String := ((p.below? project).getD p).toString

/-- The text of a path below a project does not begin with a slash, and tells the path. -/
theorem toString_below {xs : List String} (hx : ∀ n ∈ xs, IsName n) :
    (toString ⟨"", xs⟩).toList.head? ≠ some '/' ∧
      ∀ ys : List String, (∀ n ∈ ys, IsName n) → toString ⟨"", xs⟩ = toString ⟨"", ys⟩ → xs = ys := by
  have text (n : String) (zs : List String) : toString ⟨"", n :: zs⟩ = Text.join "/" (n :: zs) := by
    simp [toString]
  have point : toString ⟨"", []⟩ = "." := by decide
  cases xs with
  | nil =>
    refine ⟨by decide, fun ys hy same => ?_⟩
    cases ys with
    | nil => rfl
    | cons m ys =>
      rw [text, point] at same
      exact absurd same.symm (join_isName hy).2
  | cons n xs =>
    refine ⟨by rw [text]; exact (join_isName hx).1, fun ys hy same => ?_⟩
    cases ys with
    | nil =>
      rw [text, point] at same
      exact absurd same (join_isName hx).2
    | cons m ys =>
      rw [text, text] at same
      exact join_injective hx hy same

/-- The text of a path from a root begins with a slash, and tells the path. -/
theorem toString_absolute {r : String} {xs : List String} (root : r = "/" ∨ r = "//")
    (hx : ∀ n ∈ xs, IsName n) :
    (toString ⟨r, xs⟩).toList.head? = some '/' ∧
      ∀ r' ys, r' = "/" ∨ r' = "//" → (∀ n ∈ ys, IsName n) →
        toString ⟨r, xs⟩ = toString ⟨r', ys⟩ → xs = ys := by
  have one (zs : List String) : (toString ⟨"/", zs⟩).toList = '/' :: (Text.join "/" zs).toList := by
    simp [toString]
  have two (zs : List String) :
      (toString ⟨"//", zs⟩).toList = '/' :: '/' :: (Text.join "/" zs).toList := by
    simp [toString]
  -- behind one slash there is no further one, so the root can be told
  have apart {zs us : List String} (hz : ∀ n ∈ zs, IsName n) :
      (Text.join "/" zs).toList ≠ '/' :: (Text.join "/" us).toList := fun same => by
    have first := head_join hz
    rw [same] at first
    exact first rfl
  constructor
  · rcases root with rfl | rfl
    · rw [one]
      rfl
    · rw [two]
      rfl
  · intro r' ys root' hy same
    have chars := congrArg String.toList same
    rcases root with rfl | rfl <;> rcases root' with rfl | rfl <;> simp only [one, two] at chars
    · exact join_injective hx hy (String.toList_inj.mp (List.cons.inj chars).2)
    · exact absurd (List.cons.inj chars).2 (apart hx)
    · exact absurd (List.cons.inj chars).2.symm (apart hy)
    · exact join_injective hx hy (String.toList_inj.mp (List.cons.inj (List.cons.inj chars).2).2)

theorem root_ofString (text : String) :
    (ofString text).root = "" ∨ (ofString text).root = "/" ∨ (ofString text).root = "//" := by
  unfold ofString
  dsimp only
  split
  · exact .inl rfl
  · split
    · exact .inr (.inr rfl)
    · exact .inr (.inl rfl)

theorem root_of_isAbsolute (h : (ofString text).isAbsolute = true) :
    (ofString text).root = "/" ∨ (ofString text).root = "//" :=
  (root_ofString text).resolve_left (by simpa [isAbsolute] using h)

/-- A path that is written from a project below `/`, but not from `//`, is one from `/`. -/
theorem root_child (root : project.root = "/") (single : (ofString text).root ≠ "//") :
    (project.child text).root = "/" := by
  rw [child, join]
  split
  next absolute => exact (root_of_isAbsolute absolute).resolve_right single
  next => exact root

/-- A path has no double points that neither the project nor the text brings in. -/
theorem not_mem_child (proper : ".." ∉ project.parts) (straight : ".." ∉ partsOf text) :
    ".." ∉ (project.child text).parts := by
  rw [child, join]
  split
  · exact straight
  · exact fun mem => (List.mem_append.mp mem).elim proper straight

/-- A path that is written from a project is shown below the project, or as a path from a root. -/
theorem child_cases (project : Path) (text : String) :
    (∃ names, (∀ n ∈ names, IsName n) ∧ (project.child text).parts = project.parts ++ names ∧
        shownFrom project (project.child text) = toString ⟨"", names⟩) ∨
      ∃ r, (r = "/" ∨ r = "//") ∧ (∀ n ∈ (project.child text).parts, IsName n) ∧
        shownFrom project (project.child text) = toString ⟨r, (project.child text).parts⟩ := by
  have names : ∀ n ∈ partsOf text, IsName n := fun n => isName_of_mem_partsOf
  -- whatever is below the project consists of names that were read
  have below (front : project.parts <+: (project.child text).parts)
      (same : (project.child text).root = project.root)
      (proper : ∀ n ∈ (project.child text).parts.drop project.parts.length, IsName n) :
      ∃ names, (∀ n ∈ names, IsName n) ∧ (project.child text).parts = project.parts ++ names ∧
        shownFrom project (project.child text) = toString ⟨"", names⟩ := by
    refine ⟨_, proper, (List.prefix_iff_eq_append.mp front).symm, ?_⟩
    rw [shownFrom, below?, if_pos (by simp [same, front])]
    rfl
  cases absolute : (ofString text).isAbsolute with
  | false =>
    have child : project.child text = ⟨project.root, project.parts ++ partsOf text⟩ := by
      rw [Path.child, Path.join, absolute, if_neg Bool.false_ne_true]
      rfl
    refine .inl (below ?_ ?_ ?_) <;> rw [child]
    · exact List.prefix_append _ _
    · rwa [List.drop_left]
  | true =>
    have child : project.child text = ofString text := by
      rw [Path.child, Path.join, absolute, if_pos rfl]
    by_cases inside : (ofString text).root = project.root ∧ project.parts <+: partsOf text
    · refine .inl (below ?_ ?_ ?_) <;> rw [child]
      · exact inside.2
      · exact inside.1
      · exact fun n hn => names n (List.mem_of_mem_drop hn)
    · refine .inr ⟨(ofString text).root, root_of_isAbsolute absolute, ?_, ?_⟩
      · rw [child]
        exact names
      · rw [child, shownFrom, below?, if_neg]
        · rfl
        · change ¬(_ && List.isPrefixOf project.parts (partsOf text)) = true
          simpa using inside

/-- Paths that are written from a project and are shown alike have the same components. -/
theorem parts_eq_of_shownFrom_eq {s t : String}
    (h : shownFrom project (project.child s) = shownFrom project (project.child t)) :
    (project.child s).parts = (project.child t).parts := by
  rcases child_cases project s with ⟨xs, hx, parts, text⟩ | ⟨r, root, hx, text⟩ <;>
    rcases child_cases project t with ⟨ys, hy, parts', text'⟩ | ⟨r', root', hy, text'⟩ <;>
    rw [text, text'] at h
  · rw [parts, parts', (toString_below hx).2 ys hy h]
  · have first := (toString_below hx).1
    rw [h] at first
    exact absurd (toString_absolute root' hy).1 first
  · have first := (toString_below hy).1
    rw [← h] at first
    exact absurd (toString_absolute root hx).1 first
  · exact (toString_absolute root hx).2 r' _ root' hy h

end Path

/-!
## Reading paths back

A path that was read is written so that reading it again gives the same path.  Apart from slashes and
points a path has all the characters of its text.
-/

namespace Text

variable {c : Char} {a s : List Char}

/-- The pieces have all characters but those between them. -/
theorem sum_countP_splitAll {p : Char → Bool} (uncounted : p c = false) (s : List Char) :
    ((splitAll [c] s).map (·.countP p)).sum = s.countP p := by
  by_cases mem : c ∈ s
  · obtain ⟨a, b, rfl, free⟩ := List.eq_append_cons_of_mem mem
    have rest := sum_countP_splitAll uncounted b
    rw [splitAll_append_cons free, List.map_cons, List.sum_cons, rest, List.countP_append,
      List.countP_cons_of_neg (by simp [uncounted])]
  · rw [splitAll_of_not_mem mem]
    simp
  termination_by s.length

end Text

namespace Path

variable {xs : List String} {p : Path}

theorem partsOf_eq (cs : List Char) : partsOf (String.ofList cs) =
    ((Text.splitAll ['/'] cs).map String.ofList).filter fun n => n != "" && n != "." := by
  have slash : ("/").toList = ['/'] := by decide
  rw [partsOf, Text.split, slash, String.toList_ofList]

/-- A slash in front adds no component. -/
theorem partsOf_slash (cs : List Char) :
    partsOf (String.ofList ('/' :: cs)) = partsOf (String.ofList cs) := by
  have first := Text.splitAll_append_cons (c := '/') (a := []) List.not_mem_nil cs
  rw [List.nil_append] at first
  rw [partsOf_eq, first, partsOf_eq]
  simp

/-- Joined names are read one by one. -/
theorem partsOf_join (names : ∀ n ∈ xs, IsName n) : partsOf (Text.join "/" xs) = xs := by
  rw [← String.ofList_toList (s := Text.join "/" xs)]
  induction xs with
  | nil => decide
  | cons n xs ih =>
    obtain ⟨name, others⟩ := List.forall_mem_cons.mp names
    have kept : (n != "" && n != ".") = true := by simp [name.some, name.point]
    rw [toList_join, partsOf_eq]
    split
    next last =>
      subst last
      rw [List.append_nil, Text.splitAll_of_not_mem name.slash]
      simpa using kept
    next =>
      rw [Text.splitAll_append_cons name.slash, List.map_cons, String.ofList_toList, List.filter_cons,
        if_pos kept, ← partsOf_eq, ih others]

/-- A path whose text can be read back. -/
structure Proper (p : Path) : Prop where
  root : p.root = "" ∨ p.root = "/" ∨ p.root = "//"
  names : ∀ n ∈ p.parts, IsName n

theorem ofString_proper (text : String) : (ofString text).Proper where
  root := root_ofString text
  names _ := isName_of_mem_partsOf

/-- Slashes in front are told from the names behind them. -/
theorem takeWhile_slashes (names : ∀ n ∈ xs, IsName n) :
    (Text.join "/" xs).toList.takeWhile (· == '/') = [] := by
  have first := head_join names
  cases chars : (Text.join "/" xs).toList with
  | nil => rfl
  | cons c cs =>
    rw [chars] at first
    have other : c ≠ '/' := fun slash => first (congrArg some slash)
    simp [other]

/-- The text of a path is read as the path. -/
theorem Proper.ofString_toString (h : p.Proper) : ofString p.toString = p := by
  obtain ⟨root, parts⟩ := p
  obtain ⟨roots, names⟩ := h
  dsimp only at roots names
  have slashes := takeWhile_slashes names
  have components := partsOf_join names
  by_cases point : root = "" ∧ parts = []
  · obtain ⟨rfl, rfl⟩ := point
    decide
  · have text : toString ⟨root, parts⟩ = root ++ Text.join "/" parts := by
      rw [toString, if_neg]
      simpa using point
    rw [text, ofString]
    rcases roots with rfl | rfl | rfl
    · rw [String.empty_append, slashes, components]
      rfl
    · have chars : ("/" ++ Text.join "/" parts).toList = '/' :: (Text.join "/" parts).toList := by simp
      have read : partsOf ("/" ++ Text.join "/" parts) = parts := by
        rw [← String.ofList_toList (s := "/" ++ Text.join "/" parts), chars, partsOf_slash,
          String.ofList_toList, components]
      simp [chars, slashes, read]
    · have chars : ("//" ++ Text.join "/" parts).toList =
          '/' :: '/' :: (Text.join "/" parts).toList := by simp
      have read : partsOf ("//" ++ Text.join "/" parts) = parts := by
        rw [← String.ofList_toList (s := "//" ++ Text.join "/" parts), chars, partsOf_slash,
          partsOf_slash, String.ofList_toList, components]
      simp [chars, slashes, read]

/-- Texts of the same path differ in slashes and points only. -/
theorem countP_eq_of_ofString_eq (count : Char → Bool) (slash : count '/' = false)
    (point : count '.' = false) {a b : String} (h : ofString a = ofString b) :
    a.toList.countP count = b.toList.countP count := by
  have counted (text : String) :
      ((partsOf text).map (·.toList.countP count)).sum = text.toList.countP count := by
    have slashes : ("/").toList = ['/'] := by decide
    rw [← Text.sum_countP_splitAll slash, partsOf, Text.split, slashes]
    -- the components that are dropped have no character that counts
    induction Text.splitAll ['/'] text.toList with
    | nil => rfl
    | cons piece pieces ih =>
      rw [List.map_cons, List.map_cons, List.sum_cons, ← ih, List.filter_cons]
      split
      next => simp
      next dropped =>
        have none : piece.countP count = 0 := by
          have written : String.ofList piece = "" ∨ String.ofList piece = "." := by
            rw [Bool.and_eq_true, bne_iff_ne, bne_iff_ne] at dropped
            exact Decidable.or_iff_not_not_and_not.mpr dropped
          rcases written with written | written <;> rw [← String.toList_inj, String.toList_ofList] at written
          · rw [written]
            rfl
          · rw [written]
            simpa using point
        rw [none, Nat.zero_add]
  have parts : partsOf a = partsOf b := congrArg Path.parts h
  rw [← counted a, ← counted b, parts]

end Path

end Scaffold
