import Scaffold.Proofs.Text.Lines
import Scaffold.Template

/-!
# Placeholders

The placeholders of a template are all that it takes from variables.  A placeholder begins with the name
of a variable, and what follows behind points leads into the value of this variable; so two sets of
variables in which each placeholder has the same text give the same text as a whole.

A name in double braces, with a blank on either side, is read as the placeholder of this name.
-/

namespace Scaffold.Template

/-! ## Names -/

/-- The variable of a dotted name. -/
def root (name : String) : String := (Text.split "." name).headD ""

/-- What leads from the variable of a dotted name to its value. -/
def path (name : String) : List String := (Text.split "." name).tail

theorem lookup_eq (vars : Record Value) (name : String) :
    lookup vars name = (vars.get? (root name)).bind fun v => walk v (path name) := by
  unfold lookup root path
  rcases parts : Text.split "." name with _ | ⟨k, ks⟩
  · exact absurd (List.map_eq_nil_iff.mp parts) (Text.splitAll_ne_nil _ _)
  · rfl

/-- The name of a placeholder. -/
structure IsName (x : List Char) : Prop where
  nonempty : x ≠ []
  chars : ∀ c ∈ x, isNameChar c = true

/-- The code points of blanks. -/
def blankCodes : List Nat :=
  [9, 10, 11, 12, 13, 28, 29, 30, 31, 32, 0x85, 0xa0, 0x1680, 0x2000, 0x2001, 0x2002, 0x2003, 0x2004,
    0x2005, 0x2006, 0x2007, 0x2008, 0x2009, 0x200a, 0x2028, 0x2029, 0x202f, 0x205f, 0x3000]

theorem toNat_mem_blankCodes {c : Char} (h : Text.isBlank c = true) : c.toNat ∈ blankCodes := by
  simp only [Text.isBlank, Bool.or_eq_true, Bool.and_eq_true, decide_eq_true_eq, beq_iff_eq] at h
  simp only [blankCodes, List.mem_cons, List.not_mem_nil, or_false]
  omega

/-- A character of a name is no blank. -/
theorem isBlank_eq_false {c : Char} (h : isNameChar c = true) : Text.isBlank c = false := by
  rw [← Bool.not_eq_true]
  intro blank
  have outside : ∀ n ∈ blankCodes, isNameChar (Char.ofNat n) = false := by
    -- the table of letters is gone through as a list, which the kernel reads much faster
    simp only [isNameChar, Text.isWord, Text.isLetterOrNumber, Text.inRanges, ← Array.any_toList]
    decide +kernel
  have none := outside c.toNat (toNat_mem_blankCodes blank)
  rw [Char.ofNat_toNat, h] at none
  cases none

/-! ## Reading -/

theorem isName_of_readPlace? {s rest x : List Char} {fs : List (List Char)}
    (h : readPlace? s = some (.place x fs, rest)) : IsName x := by
  unfold readPlace? at h
  split at h
  next s =>
    dsimp only at h
    split at h
    next => cases h
    next filled =>
      obtain ⟨⟨fs', rest'⟩, -, same⟩ := Option.map_eq_some_iff.mp h
      cases same
      exact ⟨by simpa using filled, List.all_eq_true.mp List.all_takeWhile⟩
  next => cases h

theorem isName_of_mem_piecesFrom {s x : List Char} {fs : List (List Char)} {skip : Nat}
    (h : .place x fs ∈ piecesFrom skip s) : IsName x := by
  induction s generalizing skip with
  | nil => cases skip <;> cases h
  | cons c s ih =>
    cases skip with
    | succ skip => exact ih h
    | zero =>
      rw [piecesFrom] at h
      split at h
      next p rest read =>
        rcases List.mem_cons.mp h with rfl | h
        · exact isName_of_readPlace? read
        · exact ih h
      next =>
        rcases List.mem_cons.mp h with h | h
        · cases h
        · exact ih h

/-- What stands in a placeholder is a name. -/
theorem isName_of_mem_pieces {s x : List Char} {fs : List (List Char)} (h : .place x fs ∈ pieces s) :
    IsName x := isName_of_mem_piecesFrom h

theorem piecesFrom_all (s : List Char) : piecesFrom s.length s = [] := by
  induction s with
  | nil => rfl
  | cons c s ih => exact ih

/-- A name in braces, with a blank on either side. -/
def inBraces (x : List Char) : List Char := '\x7b' :: '\x7b' :: ' ' :: (x ++ [' ', '\x7d', '\x7d'])

theorem readPlace?_inBraces {x : List Char} (h : IsName x) :
    readPlace? (inBraces x) = some (.place x [], []) := by
  obtain ⟨c, r, rfl⟩ := List.exists_cons_of_ne_nil h.nonempty
  have first : Text.isBlank c = false := isBlank_eq_false (h.chars c List.mem_cons_self)
  have body : Text.trimLeft (' ' :: (c :: r ++ [' ', '\x7d', '\x7d'])) =
      c :: r ++ [' ', '\x7d', '\x7d'] := by
    rw [Text.trimLeft, List.dropWhile_cons_of_pos (by decide), List.cons_append,
      List.dropWhile_cons_of_neg (by simp [first])]
  have name : (c :: r ++ [' ', '\x7d', '\x7d']).takeWhile isNameChar = c :: r := by
    rw [List.takeWhile_append_of_pos h.chars]
    simp [show isNameChar ' ' = false by decide]
  have rest : (c :: r ++ [' ', '\x7d', '\x7d']).dropWhile isNameChar = [' ', '\x7d', '\x7d'] := by
    rw [List.dropWhile_append_of_pos h.chars]
    rfl
  unfold inBraces readPlace?
  simp only [body, name, rest]
  rfl

theorem pieces_inBraces {x : List Char} (h : IsName x) : pieces (inBraces x) = [.place x []] := by
  have read := readPlace?_inBraces h
  unfold pieces
  rw [inBraces, piecesFrom, ← inBraces, read]
  exact congrArg _ (piecesFrom_all _)

/-! ## Evaluation -/

/-- A placeholder alone has the text of its name. -/
theorem eval_place (vars : Record Value) (x : List Char) :
    (Piece.place x []).eval vars = (textOf? (lookup vars (String.ofList x))).map String.toList := by
  show (do return (← applyFilters [] (← textOf? (lookup vars (String.ofList x)))).toList) = _
  cases textOf? (lookup vars (String.ofList x)) <;> rfl

/-- Where a placeholder has a text behind its filters, its name has a text. -/
theorem text_of_eval_place {vars : Record Value} {x part : List Char} {fs : List (List Char)}
    (h : (Piece.place x fs).eval vars = .ok part) :
    ∃ text, textOf? (lookup vars (String.ofList x)) = .ok text := by
  rw [Piece.eval] at h
  rcases own : textOf? (lookup vars (String.ofList x)) with f | text
  · rw [own] at h
    cases h
  · exact ⟨text, rfl⟩

/-- A name in braces is rendered to its text. -/
theorem render_inBraces {x : List Char} (h : IsName x) (vars : Record Value) :
    render (String.ofList (inBraces x)) vars = textOf? (lookup vars (String.ofList x)) := by
  rw [render, String.toList_ofList, pieces_inBraces h, evalAll, eval_place]
  cases textOf? (lookup vars (String.ofList x)) with
  | error f => rfl
  | ok text => simp [evalAll, Except.map, bind, Except.bind, pure, Except.pure]

theorem eval_of_evalAll {vars : Record Value} {ps : List Piece} {text : List Char}
    (h : evalAll vars ps = .ok text) {p : Piece} (hp : p ∈ ps) : ∃ part, p.eval vars = .ok part := by
  induction ps generalizing text with
  | nil => cases hp
  | cons q ps ih =>
    rw [evalAll] at h
    rcases first : q.eval vars with f | part
    · rw [first] at h
      cases h
    · rcases rest : evalAll vars ps with f | parts
      · rw [first, rest] at h
        cases h
      · rcases List.mem_cons.mp hp with rfl | hp
        · exact ⟨part, first⟩
        · exact ih rest hp

theorem evalAll_congr {vars vars' : Record Value} {ps : List Piece}
    (h : ∀ x fs, .place x fs ∈ ps →
      textOf? (lookup vars (String.ofList x)) = textOf? (lookup vars' (String.ofList x))) :
    evalAll vars ps = evalAll vars' ps := by
  induction ps with
  | nil => rfl
  | cons p ps ih =>
    have rest := ih fun x fs hx => h x fs (List.mem_cons_of_mem p hx)
    have first : p.eval vars = p.eval vars' := by
      cases p with
      | char c => rfl
      | place x fs => rw [Piece.eval, Piece.eval, h x fs List.mem_cons_self]
    rw [evalAll, evalAll, first, rest]

/-- Where a template has a text, each of its pieces has one. -/
theorem eval_of_render {text y : String} {vars : Record Value} (h : render text vars = .ok y) {p : Piece}
    (hp : p ∈ pieces text.toList) : ∃ part, p.eval vars = .ok part := by
  unfold render at h
  rcases all : evalAll vars (pieces text.toList) with f | parts
  · rw [all] at h
    cases h
  · exact eval_of_evalAll all hp

/-- Variables count for a template only in the texts of its placeholders. -/
theorem render_congr {text : String} {vars vars' : Record Value}
    (h : ∀ x fs, .place x fs ∈ pieces text.toList →
      textOf? (lookup vars (String.ofList x)) = textOf? (lookup vars' (String.ofList x))) :
    render text vars = render text vars' := by
  rw [render, render, evalAll_congr h]

end Scaffold.Template
