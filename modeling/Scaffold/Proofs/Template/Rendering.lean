import Mathlib.Data.List.Chain
import Scaffold.Proofs.Template.Filters
import Scaffold.Proofs.Template.Placeholders
import Scaffold.Proofs.Text.Parts

/-!
# Templates by their segments

A template is written as a sequence of segments, literal text and placeholders, where no two braces open next
to each other in the literal text between placeholders.  Reading gives these segments back: a literal may end
in a brace, or hold bars and closing braces, and the placeholder behind it still starts where it was written,
since behind the two braces that would start too early there is a brace and no name.

So rendering puts the literals as they are, and in the place of each placeholder the text of its name with its
filters applied from left to right.  What a value holds is never read.
-/

namespace Scaffold.Template

/-- The known filters, by their names. -/
def knownFilters : List String := ["upper", "lower", "capitalize"] ++ caseFilters

/-- Blanks, as many as one likes. -/
structure Blanks where
  chars : List Char
  blank : ∀ c ∈ chars, Text.isBlank c = true

/-- A filter in a placeholder, with the blanks around its name. -/
structure FilterUse where
  before : Blanks
  name : String
  known : name ∈ knownFilters
  behind : Blanks

/-- A placeholder as it is written. -/
structure Placeholder where
  before : Blanks
  name : List Char
  isName : IsName name
  behind : Blanks
  filters : List FilterUse

/-- A segment of a template. -/
inductive Segment where
  | literal (text : List Char)
  | placeholder (p : Placeholder)

/-! ## What is written -/

/-- A filter with its bar. -/
def FilterUse.text (u : FilterUse) : List Char :=
  '|' :: (u.before.chars ++ (u.name.toList ++ u.behind.chars))

/-- What follows the opening braces of a placeholder. -/
def Placeholder.inner (p : Placeholder) : List Char :=
  p.before.chars ++ (p.name ++ (p.behind.chars ++ (p.filters.flatMap FilterUse.text ++ ['\x7d', '\x7d'])))

/-- A placeholder in its braces. -/
def Placeholder.text (p : Placeholder) : List Char := '\x7b' :: '\x7b' :: p.inner

def Segment.text : Segment → List Char
  | .literal s => s
  | .placeholder p => p.text

/-- The segments one behind the other. -/
def written (segments : List Segment) : List Char := segments.flatMap Segment.text

/-- Literals that no placeholder stands between hold no two opening braces next to each other. -/
def Apart (segments : List Segment) : Prop :=
  ∀ literals : List (List Char), literals.map Segment.literal <:+: segments →
    ¬['\x7b', '\x7b'] <:+: literals.flatten

/-! ## What is meant -/

/-- A text behind a filter. -/
def FilterUse.apply (text : String) (u : FilterUse) : String := (filter? u.name).elim text fun f => f text

/-- The text of a segment: a literal as it is, a name in its text with its filters applied from left to right. -/
def Segment.rendered (vars : Record Value) : Segment → Except Fault (List Char)
  | .literal s => .ok s
  | .placeholder p =>
    (textOf? (lookup vars (String.ofList p.name))).map fun text => (p.filters.foldl FilterUse.apply text).toList

/-! ## Filters -/

theorem exists_filter {name : String} (known : name ∈ knownFilters) : ∃ f, filter? name = some f := by
  rcases List.mem_append.mp known with plain | case
  · simp only [List.mem_cons, List.not_mem_nil, or_false] at plain
    rcases plain with rfl | rfl | rfl
    · exact ⟨_, rfl⟩
    · exact ⟨_, rfl⟩
    · exact ⟨_, rfl⟩
  · obtain ⟨form, -, assemble, same⟩ := exists_form case
    exact ⟨_, same⟩

/-- The name of a filter is a word. -/
theorem isWord_of_known {name : String} (known : name ∈ knownFilters) :
    name.toList ≠ [] ∧ ∀ c ∈ name.toList, Text.isWord c = true := by
  have all : ∀ name ∈ knownFilters, name.toList ≠ [] ∧ name.toList.all Text.isWord = true := by decide
  exact ⟨(all name known).1, List.all_eq_true.mp (all name known).2⟩

/-- Known filters are applied one after the other. -/
theorem applyFilters_known (filters : List FilterUse) (text : String) :
    applyFilters (filters.map fun u => u.name.toList) text = .ok (filters.foldl FilterUse.apply text) := by
  induction filters generalizing text with
  | nil => rfl
  | cons u filters ih =>
    obtain ⟨f, same⟩ := exists_filter u.known
    have applied : FilterUse.apply text u = f text := by
      rw [FilterUse.apply, same]
      rfl
    rw [List.map_cons, applyFilters, String.ofList_toList, same]
    show applyFilters _ (f text) = _
    rw [ih, List.foldl_cons, applied]

/-! ## Reading a placeholder -/

variable {s t rest : List Char} {c : Char}

/-- The blanks in front of something else are dropped. -/
theorem trimLeft_blanks (b : Blanks) (stops : Text.Stops Text.isBlank t) : Text.trimLeft (b.chars ++ t) = t :=
  Text.dropWhile_append_stops b.blank stops

/-- What follows a name or a filter: more filters and the closing braces. -/
def closing (filters : List FilterUse) (rest : List Char) : List Char :=
  filters.flatMap FilterUse.text ++ '\x7d' :: '\x7d' :: rest

theorem closing_cons (u : FilterUse) (filters : List FilterUse) (rest : List Char) :
    closing (u :: filters) rest =
      '|' :: (u.before.chars ++ (u.name.toList ++ (u.behind.chars ++ closing filters rest))) := by
  simp [closing, FilterUse.text]

/-- It begins with a bar or a brace. -/
theorem stops_closing {p : Char → Bool} (bar : p '|' = false) (brace : p '\x7d' = false)
    (filters : List FilterUse) (rest : List Char) : Text.Stops p (closing filters rest) := by
  intro c hc
  cases filters with
  | nil =>
    obtain rfl : '\x7d' = c := by simpa [closing] using hc
    exact brace
  | cons u filters =>
    rw [closing_cons] at hc
    obtain rfl : '|' = c := by simpa using hc
    exact bar

theorem isWord_of_isBlank (blank : Text.isBlank c = true) : Text.isWord c = false := by
  rw [Bool.eq_false_iff]
  intro word
  have other := isBlank_eq_false (c := c) (by simp [isNameChar, word])
  rw [blank] at other
  cases other

theorem isNameChar_of_isBlank (blank : Text.isBlank c = true) : isNameChar c = false := by
  rw [Bool.eq_false_iff]
  intro name
  have other := isBlank_eq_false name
  rw [blank] at other
  cases other

theorem isBlank_of_isWord (word : Text.isWord c = true) : Text.isBlank c = false :=
  isBlank_eq_false (by simp [isNameChar, word])

/-- The filters of a placeholder are read as they were written. -/
theorem readFilters?_closing (filters : List FilterUse) (rest : List Char) {fuel : Nat}
    (enough : filters.length < fuel) :
    readFilters? fuel (closing filters rest) = some (filters.map fun u => u.name.toList, rest) := by
  induction filters generalizing fuel with
  | nil =>
    obtain ⟨fuel, rfl⟩ := Nat.exists_eq_add_of_lt enough
    rfl
  | cons u filters ih =>
    cases fuel with
    | zero => exact absurd enough (Nat.not_lt_zero _)
    | succ fuel =>
      obtain ⟨filled, word⟩ := isWord_of_known u.known
      have ends : Text.Stops Text.isWord (u.behind.chars ++ closing filters rest) :=
        .append (fun c hc => isWord_of_isBlank (u.behind.blank c hc)) (stops_closing (by decide) (by decide) _ _)
      have starts : Text.Stops Text.isBlank (u.name.toList ++ (u.behind.chars ++ closing filters rest)) :=
        Text.stops_of_filled filled fun c hc => isBlank_of_isWord (word c hc)
      have bare : Text.Stops Text.isBlank (closing filters rest) := stops_closing (by decide) (by decide) _ _
      rw [closing_cons, readFilters?]
      simp only [trimLeft_blanks u.before starts, Text.takeWhile_append_stops word ends,
        Text.dropWhile_append_stops word ends, trimLeft_blanks u.behind bare]
      rw [if_neg (by simpa using filled), ih (Nat.lt_of_succ_lt_succ enough)]
      rfl

theorem length_le_closing (filters : List FilterUse) (rest : List Char) :
    filters.length ≤ (closing filters rest).length := by
  induction filters with
  | nil => exact Nat.zero_le _
  | cons u filters ih =>
    rw [closing_cons]
    simp only [List.length_cons, List.length_append]
    omega

/-- A placeholder is read as it was written, whatever follows it. -/
theorem readPlace?_text (p : Placeholder) (rest : List Char) :
    readPlace? (p.text ++ rest) = some (.place p.name (p.filters.map fun u => u.name.toList), rest) := by
  have parts : p.text ++ rest =
      '\x7b' :: '\x7b' :: (p.before.chars ++ (p.name ++ (p.behind.chars ++ closing p.filters rest))) := by
    simp [Placeholder.text, Placeholder.inner, closing]
  have starts : Text.Stops Text.isBlank (p.name ++ (p.behind.chars ++ closing p.filters rest)) :=
    Text.stops_of_filled p.isName.nonempty fun c hc => isBlank_eq_false (p.isName.chars c hc)
  have ends : Text.Stops isNameChar (p.behind.chars ++ closing p.filters rest) :=
    .append (fun c hc => isNameChar_of_isBlank (p.behind.blank c hc)) (stops_closing (by decide) (by decide) _ _)
  have bare : Text.Stops Text.isBlank (closing p.filters rest) := stops_closing (by decide) (by decide) _ _
  rw [parts, readPlace?]
  simp only [trimLeft_blanks p.before starts, Text.takeWhile_append_stops p.isName.chars ends,
    Text.dropWhile_append_stops p.isName.chars ends, trimLeft_blanks p.behind bare]
  rw [if_neg (by simpa using p.isName.nonempty),
    readFilters?_closing _ _ (Nat.lt_succ_of_le (length_le_closing _ _))]
  rfl

/-! ## Reading a template -/

theorem piecesFrom_append (s rest : List Char) : piecesFrom s.length (s ++ rest) = piecesFrom 0 rest := by
  induction s with
  | nil => rfl
  | cons c s ih => exact ih

theorem pieces_placeholder (p : Placeholder) (rest : List Char) :
    pieces (p.text ++ rest) = .place p.name (p.filters.map fun u => u.name.toList) :: pieces rest := by
  have read := readPlace?_text p rest
  have skips : ('\x7b' :: (p.inner ++ rest)).length - rest.length = ('\x7b' :: p.inner).length := by
    simp only [List.length_cons, List.length_append]
    omega
  rw [pieces, Placeholder.text, List.cons_append, List.cons_append, piecesFrom, ← List.cons_append,
    ← List.cons_append, ← Placeholder.text, read]
  simp only [List.cons_append] at skips ⊢
  rw [skips, ← List.cons_append]
  exact congrArg _ (piecesFrom_append _ _)

/-- No placeholder starts where the braces are not followed by something else than a brace. -/
theorem readPlace?_of_not_braces (other : ¬['\x7b', '\x7b'] <+: s) : readPlace? s = none := by
  unfold readPlace?
  split
  next s => exact absurd (by simp) other
  next => rfl

/-- A brace in front of a placeholder starts none. -/
theorem readPlace?_brace (p : Placeholder) (rest : List Char) : readPlace? ('\x7b' :: (p.text ++ rest)) = none := by
  rfl

/-- What a literal stands in front of: nothing, or a placeholder. -/
inductive Follows : List Char → Prop where
  | ended : Follows []
  | opened (p : Placeholder) (rest : List Char) : Follows (p.text ++ rest)

/-- A literal is read as it is. -/
theorem pieces_literal (apart : ¬['\x7b', '\x7b'] <:+: s) (follows : Follows rest) :
    pieces (s ++ rest) = s.map .char ++ pieces rest := by
  induction s with
  | nil => rfl
  | cons c s ih =>
    have behind : ¬['\x7b', '\x7b'] <:+: s := fun inside => apart (List.infix_cons inside)
    -- two opening braces here would have to be the last of the literal and the first of the placeholder
    have none : readPlace? (c :: (s ++ rest)) = none := by
      cases s with
      | cons d s =>
        apply readPlace?_of_not_braces
        intro braces
        have here : c = '\x7b' ∧ d = '\x7b' := by simpa [eq_comm] using braces
        apply apart
        rw [here.1, here.2]
        exact ⟨[], s, rfl⟩
      | nil =>
        cases follows with
        | ended => exact readPlace?_of_not_braces (by simp)
        | opened p rest =>
          by_cases brace : c = '\x7b'
          · rw [brace]
            exact readPlace?_brace p rest
          · exact readPlace?_of_not_braces (by simp [Ne.symm brace])
    rw [pieces, List.cons_append, piecesFrom, none]
    show .char c :: pieces (s ++ rest) = _
    rw [ih behind]
    rfl

/-- The pieces that a segment is read as. -/
def Segment.pieces : Segment → List Piece
  | .literal s => s.map .char
  | .placeholder p => [.place p.name (p.filters.map fun u => u.name.toList)]

theorem Apart.tail {seg : Segment} {segs : List Segment} (apart : Apart (seg :: segs)) : Apart segs :=
  fun literals inside => apart literals (List.infix_cons inside)

/-- The segments of a template are read as they were written.  By induction on the segments, with the literals
since the last placeholder in front. -/
theorem pieces_segments (segs : List Segment) (apart : Apart segs)
    (front : ∀ literals : List (List Char), literals.map Segment.literal <+: segs →
      ¬['\x7b', '\x7b'] <:+: s ++ literals.flatten) :
    pieces (s ++ written segs) = s.map .char ++ segs.flatMap Segment.pieces := by
  induction segs generalizing s with
  | nil =>
    have alone : ¬['\x7b', '\x7b'] <:+: s := by simpa using front [] (by simp)
    have none : pieces [] = [] := rfl
    simpa [written, none] using pieces_literal alone .ended
  | cons seg segs ih =>
    cases seg with
    | literal t =>
      have more := ih (s := s ++ t) apart.tail fun literals starts => by
        have longer := front (t :: literals) (by simpa using starts)
        simpa [List.append_assoc] using longer
      simpa [written, Segment.text, Segment.pieces] using more
    | placeholder p =>
      have alone : ¬['\x7b', '\x7b'] <:+: s := by simpa using front [] (by simp)
      have behind : pieces (written segs) = segs.flatMap Segment.pieces :=
        ih (s := []) apart.tail fun literals starts => apart.tail literals starts.isInfix
      have parts : s ++ written (.placeholder p :: segs) = s ++ (p.text ++ written segs) := rfl
      rw [parts, pieces_literal alone (.opened p _), pieces_placeholder, behind]
      rfl

/-! ## Rendering -/

theorem evalAll_append (vars : Record Value) (ps qs : List Piece) :
    evalAll vars (ps ++ qs) = (do return (← evalAll vars ps) ++ (← evalAll vars qs)) := by
  induction ps with
  | nil => cases h : evalAll vars qs <;> simp [evalAll, h, bind, Except.bind, pure, Except.pure]
  | cons p ps ih =>
    rw [List.cons_append, evalAll, evalAll, ih]
    cases p.eval vars with
    | error f => rfl
    | ok a =>
      cases evalAll vars ps with
      | error f => rfl
      | ok b => cases h : evalAll vars qs <;> simp [bind, Except.bind, pure, Except.pure]

theorem evalAll_chars (vars : Record Value) (s : List Char) : evalAll vars (s.map .char) = .ok s := by
  induction s with
  | nil => rfl
  | cons c s ih =>
    rw [List.map_cons, evalAll, ih]
    rfl

/-- The pieces of a segment have its text. -/
theorem evalAll_segment (vars : Record Value) (seg : Segment) : evalAll vars seg.pieces = seg.rendered vars := by
  cases seg with
  | literal s => exact evalAll_chars vars s
  | placeholder p =>
    rw [Segment.pieces, evalAll, Piece.eval, Segment.rendered]
    cases textOf? (lookup vars (String.ofList p.name)) with
    | error f => rfl
    | ok text =>
      show (do
        let a ← (do return (← applyFilters _ text).toList : Except Fault (List Char))
        let b ← evalAll vars []
        return a ++ b) = _
      rw [applyFilters_known]
      simp [evalAll, Except.map, bind, Except.bind, pure, Except.pure]

theorem evalAll_segments (vars : Record Value) (segs : List Segment) :
    evalAll vars (segs.flatMap Segment.pieces) = (segs.mapM (Segment.rendered vars)).map List.flatten := by
  induction segs with
  | nil => rfl
  | cons seg segs ih =>
    rw [List.flatMap_cons, evalAll_append, evalAll_segment, ih, List.mapM_cons]
    cases seg.rendered vars with
    | error f => rfl
    | ok a => cases segs.mapM (Segment.rendered vars) <;> rfl

/-- A template is rendered segment by segment, each in its own text, and read only once: whatever a value holds
stands in the result as it is. -/
theorem render_segments (segments : List Segment) (apart : Apart segments) (vars : Record Value) :
    render (String.ofList (written segments)) vars =
      (segments.mapM (Segment.rendered vars)).map fun parts => String.ofList parts.flatten := by
  have read : pieces (written segments) = segments.flatMap Segment.pieces :=
    pieces_segments (s := []) segments apart fun literals starts => apart literals starts.isInfix
  rw [render, String.toList_ofList, read, evalAll_segments]
  cases segments.mapM (Segment.rendered vars) <;> rfl

/-! ## A value with braces -/

/-- Literals between which placeholders stand are apart if none of them holds two opening braces next to each
other. -/
theorem apart_of_alternating {segments : List Segment}
    (alternating : segments.IsChain fun a b => ¬∃ s t, a = .literal s ∧ b = .literal t)
    (each : ∀ s, .literal s ∈ segments → ¬['\x7b', '\x7b'] <:+: s) : Apart segments := by
  intro literals inside
  match literals with
  | [] => simp
  | [s] => simpa using each s (inside.subset (by simp))
  | s :: t :: literals =>
    have chain := alternating.infix inside
    rw [List.map_cons, List.map_cons, List.isChain_cons_cons] at chain
    exact absurd ⟨s, t, rfl, rfl⟩ chain.1

namespace Labelled

/-- Blanks, given by their characters. -/
def blanks (chars : List Char) (all : chars.all Text.isBlank = true) : Blanks := ⟨chars, List.all_eq_true.mp all⟩

/-- The title of a page, in capitals with underscores or as it is. -/
def title (behind : Blanks) (filters : List FilterUse) : Segment :=
  .placeholder {
    before := blanks [' '] (by decide)
    name := "page.title".toList
    isName := ⟨by decide, List.all_eq_true.mp (by decide)⟩
    behind
    filters }

/-- A label with braces and bars around its placeholders. -/
def label : List Segment :=
  [.literal "set \x7b".toList,
    title (blanks [] rfl)
      [⟨blanks [' '] (by decide), "snake", by decide, blanks [] rfl⟩,
        ⟨blanks [] rfl, "upper", by decide, blanks ['\t'] (by decide)⟩],
    .literal "\x7d | \x7b".toList, title (blanks [' '] (by decide)) [], .literal "\x7d\x7d".toList]

/-- A page whose title looks like a placeholder. -/
def vars : Record Value :=
  [("owner", .str "Ada"), ("page", .dict [(.str "title", .str "\x7b\x7b owner \x7d\x7d notes")])]

/-- The title stands in the label as it is, and is not read again. -/
theorem label_rendered :
    Apart label ∧
      render "set \x7b\x7b\x7b page.title| snake|upper\t\x7d\x7d\x7d | \x7b\x7b\x7b page.title \x7d\x7d\x7d\x7d" vars =
        .ok "set \x7bOWNER_NOTES\x7d | \x7b\x7b\x7b owner \x7d\x7d notes\x7d\x7d" := by
  have apart : Apart label := by
    refine apart_of_alternating ?_ ?_
    · simp [label, title]
    · intro s mem
      simp only [label, title, List.mem_cons, List.not_mem_nil, or_false, reduceCtorEq, false_or,
        Segment.literal.injEq] at mem
      rcases mem with rfl | rfl | rfl <;> decide
  refine ⟨apart, (render_segments label apart vars).trans ?_⟩
  rfl

end Labelled

end Scaffold.Template
