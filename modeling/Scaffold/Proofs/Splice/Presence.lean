import Scaffold.Proofs.Pattern.Literal
import Scaffold.Proofs.Text.Lines
import Scaffold.Proofs.Splice.Lines

/-!
# What a splice leaves in a text

A splice puts its body at the front, at the end, or between two lines of a content.  So what stands
in one line of the content still stands there afterwards, and what stands in one line of the body
stands in the result, whatever becomes of the line breaks.

A splice that is needless where a literal is present puts this literal in if it stands in the body.
From then on the splice is needless, and stays so whatever is spliced in later.
-/

namespace Scaffold

namespace Text

/-! ## Occurrences in a text -/

variable {q s x a b : List Char}

/-- What does not hold a character lies on one side of it. -/
theorem infix_of_infix_cut {c : Char} (free : c ∉ x) (h : x <:+: a ++ c :: b) :
    x <:+: a ∨ x <:+: b := by
  obtain ⟨front, back, h⟩ := h
  rcases List.append_eq_append_iff.mp h with ⟨mid, ha, -⟩ | ⟨mid, ha, hb⟩
  · exact .inl ⟨front, mid, ha.symm⟩
  cases mid with
  | nil => exact .inl ⟨front, [], by simpa using ha⟩
  | cons d mid =>
    -- `x` ends behind the character, so it begins there
    obtain ⟨rfl, rfl⟩ := List.cons.inj hb
    rcases List.append_eq_append_iff.mp ha with ⟨w, -, hx⟩ | ⟨w, -, hx⟩
    · exact absurd (by simp [hx]) free
    cases w with
    | nil =>
      obtain rfl : c :: mid = x := hx
      exact absurd List.mem_cons_self free
    | cons d w =>
      obtain ⟨rfl, rfl⟩ := List.cons.inj hx
      exact .inr ⟨w, back, rfl⟩

/-- What stands in one line of a text still stands there with something put between two lines. -/
theorem infix_insert (free : '\n' ∉ x) (h : x <:+: a ++ b)
    (between : a = [] ∨ b = [] ∨ ['\n'] <:+ a) (y : List Char) : x <:+: a ++ y ++ b := by
  rcases between with rfl | rfl | ⟨front, rfl⟩
  · exact h.trans (List.suffix_append y b).isInfix
  · rw [List.append_nil] at h ⊢
    exact h.trans (List.prefix_append a y).isInfix
  · rw [List.append_assoc, List.singleton_append] at h
    rcases infix_of_infix_cut free h with h | h
    · refine h.trans ⟨[], '\n' :: (y ++ b), ?_⟩
      simp
    · exact h.trans (List.suffix_append _ b).isInfix

/-- Dropping line breaks at the back takes nothing away that stands in a line. -/
theorem infix_dropBack (free : '\n' ∉ x) (h : x <:+: s) : x <:+: dropBack (· == '\n') s := by
  have whole := (dropBack_append_dropped (· == '\n') s).symm
  have breaks : ∀ c ∈ (s.reverse.takeWhile (· == '\n')).reverse, c = '\n' := by
    intro c hc
    simpa using List.all_eq_true.mp List.all_takeWhile c (List.mem_reverse.mp hc)
  rw [whole] at h
  cases back : (s.reverse.takeWhile (· == '\n')).reverse with
  | nil => rwa [back, List.append_nil] at h
  | cons c rest =>
    rw [back] at h breaks
    obtain rfl : c = '\n' := breaks c List.mem_cons_self
    rcases infix_of_infix_cut free h with h | h
    · exact h
    · cases x with
      | nil => exact List.nil_infix
      | cons d x =>
        have mem : d ∈ rest := h.subset List.mem_cons_self
        rw [breaks d (List.mem_cons_of_mem _ mem)] at free
        exact absurd List.mem_cons_self free

/-- Replacing a character changes nothing about what does not hold it. -/
theorem infix_replaceChars {c : Char} (free : c ∉ x) (h : x <:+: s) :
    x <:+: replaceChars [c] q s := by
  obtain ⟨front, back, rfl⟩ := h
  have same : x.flatMap (fun d => if d = c then q else [d]) = x := by
    have one : x.map (fun d => if d = c then q else [d]) = x.map fun d => [d] := by
      refine List.map_congr_left fun d hd => if_neg ?_
      rintro rfl
      exact free hd
    rw [List.flatMap_def, one, ← List.flatMap_def, List.flatMap_singleton']
  rw [replaceChars_singleton, List.flatMap_append, List.flatMap_append, same]
  exact ⟨_, _, rfl⟩

/-- What holds no line break stands in a text however its line breaks are written. -/
theorem infix_unifyBreaks (n : '\n' ∉ x) (r : '\r' ∉ x) (h : x <:+: s) :
    x <:+: unifyBreaks s := by
  cases x with
  | nil => exact List.nil_infix
  | cons c x =>
    obtain ⟨front, back, rfl⟩ := h
    have whole : unifyBreaks (front ++ c :: x ++ back) =
        unifyBreaks front ++ (c :: x) ++ unifyBreaks back := by
      simp only [List.mem_cons, not_or] at n r
      rw [List.append_assoc, List.cons_append,
        unifyBreaks_append (Ne.symm n.1) (Ne.symm r.1), unifyBreaks_append_left r.2]
      simp
    exact ⟨_, _, whole.symm⟩

end Text

/-! ## Places between lines -/

namespace Splice

variable {eol s lit : List Char}

/-- A place at which a text can be cut: its front, its back, or behind a line break. -/
def IsBetween (eol s : List Char) (n : Nat) : Prop :=
  n = 0 ∨ s.length ≤ n ∨ ∃ front back, s = front ++ eol ++ back ∧ n = (front ++ eol).length

theorem eol_of_lineEnding (s : List Char) : ['\n'] <:+ lineEnding s := by
  unfold lineEnding
  dsimp only
  split
  · exact ⟨['\r'], rfl⟩
  · exact List.suffix_rfl

theorem isBetween_startOfLine (k : Nat) : IsBetween eol s (startOfLine eol s k) := by
  by_cases within : k < (Text.splitAll eol s).length
  · cases k with
    | zero =>
      rw [startOfLine_eq, Text.firstLines_zero (Text.splitAll_ne_nil eol s)]
      exact .inl rfl
    | succ k =>
      -- the line in front of this one ends with its ending
      have front := (cut_at_line eol s (k + 1)).1
      rw [Text.firstLines_of_lt within,
        List.take_succ_eq_append_getElem (Nat.lt_of_succ_lt within), List.flatMap_append,
        List.flatMap_singleton, ← List.append_assoc] at front
      refine .inr (.inr
        ⟨((Text.splitAll eol s).take k).flatMap (· ++ eol) ++ (Text.splitAll eol s)[k],
          s.drop (startOfLine eol s (k + 1)), ?_, ?_⟩)
      · rw [← front, List.take_append_drop]
      · rw [← front, List.length_take, Nat.min_eq_left (startOfLine_le eol s _)]
  · exact .inr (.inl (Nat.le_of_eq (startOfLine_of_le (Nat.not_lt.mp within)).symm))

/-- Every location is a place between lines. -/
theorem isBetween_place {l : Location} {n : Nat} (h : place eol s l = .ok n) :
    IsBetween eol s n := by
  rcases place_eq_ok h with ⟨k, -, rfl⟩ | ⟨-, rfl⟩
  · exact isBetween_startOfLine k
  · exact .inr (.inl (Nat.le_refl _))

/-! ## What a splice keeps and brings -/

/-- What stands in a line stays there when something is put between lines. -/
theorem infix_put {n : Nat} (eols : ['\n'] <:+ eol) (between : IsBetween eol s n)
    (free : '\n' ∉ lit) (h : lit <:+: s) (y : List Char) :
    lit <:+: s.take n ++ y ++ s.drop n := by
  refine Text.infix_insert free (by rwa [List.take_append_drop]) ?_ y
  rcases between with rfl | long | ⟨front, back, rfl, rfl⟩
  · exact .inl (List.take_zero)
  · exact .inr (.inl (List.drop_eq_nil_of_le long))
  · rw [List.take_left]
    exact .inr (.inr (eols.trans (List.suffix_append front eol)))

/-- What stands in a line of the body stands in what is put into the content. -/
theorem infix_piece {body : List Char} (n : '\n' ∉ lit) (r : '\r' ∉ lit) (h : lit <:+: body)
    (rule : Rule) (offset : Nat) : lit <:+: piece eol s rule body offset := by
  have text : lit <:+: bodyFor eol rule.endsLine body := by
    unfold bodyFor
    refine Text.infix_replaceChars n ?_
    have unified := Text.infix_unifyBreaks n r h
    split
    · split
      · exact unified
      · exact unified.trans (List.prefix_append _ _).isInfix
    · exact Text.infix_dropBack n unified
  have ended (y z : List Char) : lit <:+: z → lit <:+: z ++ y := fun h =>
    h.trans (List.prefix_append _ _).isInfix
  have begun (y z : List Char) : lit <:+: z → lit <:+: y ++ z := fun h =>
    h.trans (List.suffix_append _ _).isInfix
  unfold piece
  dsimp only
  split <;> split
  · exact begun _ _ (ended _ _ text)
  · exact begun _ _ text
  · exact ended _ _ text
  · exact text

/-! ## Literals that make a splice needless -/

/-- A text that stands for itself in a pattern and stands in one line. -/
structure IsMark (mark : String) : Prop where
  some : mark ≠ ""
  literal : Pattern.IsLiteral mark.toList
  feed : '\n' ∉ mark.toList
  carriage : '\r' ∉ mark.toList

variable {content body mark : String} {rule : Rule} {o : Outcome}

/-- A splice is needless under a mark exactly where the mark is present. -/
theorem needless_iff (h : IsMark mark) (content : String) :
    needless content (some mark) = true ↔ mark.toList <:+: content.toList := by
  have compiled := Pattern.compile?_of_literal h.literal { multiLine := true }
  unfold needless
  split
  · contradiction
  next empty => exact absurd (Option.some.inj empty) h.some
  next p _ heq =>
    cases heq
    rw [compiled]
    exact Pattern.search?_sequence rfl content.toList

/-- A splice changed something exactly if its content is another one. -/
theorem changed_iff (h : apply content body rule = .ok o) :
    o.changed = true ↔ o.content ≠ content := by
  unfold apply at h
  split at h
  · cases h
    simp
  · dsimp only at h
    rcases placed : place (lineEnding content.toList) content.toList rule.location with f | n
    · rw [placed] at h
      cases h
    · rw [placed] at h
      cases h
      rw [bne_iff_ne, ne_eq, ne_eq, ← String.toList_inj, String.toList_ofList]

/-- What stands in one line of a content stands there after any splice. -/
theorem apply_retains (h : apply content body rule = .ok o) (free : '\n' ∉ lit)
    (present : lit <:+: content.toList) : lit <:+: o.content.toList := by
  rcases apply_eq_ok h with ⟨-, -, same⟩ | ⟨n, placed, -, result⟩
  · rwa [same]
  · rw [result]
    exact infix_put (eol_of_lineEnding _) (isBetween_place placed) free present _

/-- After a splice under a mark that stands in its body, the mark is present. -/
theorem apply_marks (h : apply content body rule = .ok o) (skipIf : rule.skipIf = some mark)
    (hm : IsMark mark) (marks : mark.toList <:+: body.toList) :
    mark.toList <:+: o.content.toList := by
  rcases apply_eq_ok h with ⟨needless, -, same⟩ | ⟨n, -, -, result⟩
  · rw [skipIf] at needless
    rw [same]
    exact (needless_iff hm content).mp needless
  · rw [result]
    have brought : mark.toList <:+:
        piece (lineEnding content.toList) content.toList rule body.toList n :=
      infix_piece hm.feed hm.carriage marks rule n
    exact brought.trans ⟨_, _, rfl⟩

/-- Where its mark is present a splice is skipped. -/
theorem apply_of_marked (body : String) (skipIf : rule.skipIf = some mark) (hm : IsMark mark)
    (present : mark.toList <:+: content.toList) :
    ∃ why, why ≠ "" ∧ apply content body rule =
      .ok { content, changed := false, skipped := true, reason := some why } := by
  have needless : needless content rule.skipIf = true := by
    rw [skipIf]
    exact (needless_iff hm content).mpr present
  refine ⟨"skip_if matched: " ++ rule.skipIf.getD "", fun empty => ?_, by rw [apply, if_pos needless]⟩
  have lengths := congrArg String.length empty
  have some : ("skip_if matched: ").length = 17 := by decide
  have none : ("").length = 0 := by decide
  rw [String.length_append, some, none] at lengths
  omega

end Splice

end Scaffold
