import Scaffold.Check.Statements
import Scaffold.Proofs.Check.ImportListings
import Scaffold.Proofs.Text.Lines

/-!
# Import statements on a line of their own

An import statement of Python source imports modules, each of which may be given another name, or names from a
module.  It stands on a line of its own where nothing but blanks stand in front of it, and behind it blanks and
perhaps a comment.

The pattern comes to the line unless a stretch that begins on a line further up goes on to it.  Its words tell that
this happens in one way only: the last lines in front of a list of modules hold just the word `from` and the name of
a module.
-/

namespace Scaffold.Check.Import

open Text (isInk parts Stops)

/-! ## Statements -/

/-- A character that a name may have; outside of ASCII any but a blank may be one. -/
def isNaming (c : Char) : Bool := if c.toNat < 128 then Text.isWord c else !Text.isBlank c

/-- The form of a name. -/
structure IsName (s : List Char) : Prop where
  filled : s ≠ []
  all : ∀ c ∈ s, isNaming c = true
  free : String.ofList s ∉ Statements.keywords

/-- The form of a module: names with points between them. -/
def IsModule (s : List Char) : Prop := ∀ n ∈ Text.splitAll ['.'] s, IsName n

/-- A character of what is taken from a module. -/
def isSelecting (c : Char) : Bool := isNaming c || Text.isBlank c || "*(),\\".toList.contains c

/-- The form of what is taken from a module; its first character ends the keyword in front of it. -/
structure IsSelection (s : List Char) : Prop where
  apart : ∃ c ∈ s.head?, isNaming c = false
  all : ∀ c ∈ s, isSelecting c = true

/-- An import statement: of modules, or of names from a module. -/
inductive Statement where
  | modules (gap : List Char) (list : Listing)
  | names (gap module gap' selection : List Char)

namespace Statement

def text : Statement → List Char
  | modules gap l => importWord ++ (gap ++ l.text)
  | names gap module gap' selection => fromWord ++ (gap ++ (module ++ (gap' ++ (importWord ++ selection))))

/-- What a statement is made of. -/
def Made : Statement → Prop
  | modules gap l => IsGap gap ∧ l.Made IsModule IsName
  | names gap module gap' selection => IsGap gap ∧ IsModule module ∧ IsGap gap' ∧ IsSelection selection

/-- A statement on one line. -/
structure Written (s : Statement) : Prop where
  made : s.Made
  line : '\n' ∉ s.text

end Statement

/-- The module `m` is `b`, or one inside of it. -/
def IsWithin (b m : List Char) : Prop := m = b ∨ b ++ ['.'] <+: m

/-- A statement imports a module, or one inside of it. -/
def Statement.Imports (b : List Char) : Statement → Prop
  | modules _ l => ∃ e ∈ l.entries, IsWithin b e.module
  | names _ module _ _ => IsWithin b module

/-! ## Places in a text -/

/-- Only blanks are left of a line. -/
def EndsLine (s : List Char) : Prop := ∃ trail rest, s = trail ++ rest ∧ AllBlank trail ∧ AtLineEnd rest

/-- Only blanks and a comment are left of a line. -/
def EndsInComment (s : List Char) : Prop := ∃ trail rest, s = trail ++ '#' :: rest ∧ AllBlank trail

/-- What stands around a statement that has a line of its own. -/
structure OwnLine (front indent behind : List Char) : Prop where
  start : AtLineStart front.reverse
  blank : AllBlank indent
  line : '\n' ∉ indent
  ends : EndsLine behind ∨ EndsInComment behind

/-- The last lines of a text hold just the word `from` and the name of a module. -/
def Dangles (front : List Char) : Prop :=
  ∃ above last module, front = above ++ last ∧ AtLineStart above.reverse ∧ IsDotted module ∧
    parts last = [fromWord, module]

/-- What stands around a statement does not keep the pattern from it: to a list of modules no line further up leads
on, and it ends without a comment and without another name on a line further down. -/
def Statement.Undisturbed (front behind : List Char) : Statement → Prop
  | modules _ _ => ¬Dangles front ∧ EndsLine behind ∧ ¬GoesOn behind
  | names _ _ _ _ => True

/-- The pattern can tell what a statement imports of a module `b`: it knows all characters of the names, and either a
module inside of `b` is imported, or `b` itself is not given another name or is so between spaces; what is taken from
a module stands behind a blank. -/
def Statement.Plain (b : List Char) : Statement → Prop
  | modules _ l => l.Known ∧ ∃ e ∈ l.entries, IsWithin b e.module ∧ (e.module = b → ∀ a ∈ e.alias?, a.Spaced)
  | names _ module _ selection => IsDotted module ∧ ∀ c ∈ selection.head?, Text.isBlank c = true

instance (s : List Char) : Decidable (IsName s) :=
  decidable_of_iff (s ≠ [] ∧ s.all isNaming = true ∧ String.ofList s ∉ Statements.keywords)
    ⟨fun ⟨filled, all, free⟩ => ⟨filled, List.all_eq_true.mp all, free⟩,
      fun h => ⟨h.filled, List.all_eq_true.mpr h.all, h.free⟩⟩

instance (s : List Char) : Decidable (IsModule s) := inferInstanceAs (Decidable (∀ n ∈ Text.splitAll ['.'] s, _))

instance (s : List Char) : Decidable (IsSelection s) :=
  decidable_of_iff (s.head?.any (fun c => !isNaming c) = true ∧ s.all isSelecting = true)
    ⟨fun ⟨apart, all⟩ => ⟨by simpa [Option.any_eq_true] using apart, List.all_eq_true.mp all⟩,
      fun h => ⟨by simpa [Option.any_eq_true] using h.apart, List.all_eq_true.mpr h.all⟩⟩

instance (s : Statement) : Decidable s.Made :=
  match s with
  | .modules _ _ => inferInstanceAs (Decidable (_ ∧ _))
  | .names _ _ _ _ => inferInstanceAs (Decidable (_ ∧ _))

instance (s : Statement) : Decidable s.Written :=
  decidable_of_iff (s.Made ∧ '\n' ∉ s.text) ⟨fun ⟨made, line⟩ => ⟨made, line⟩, fun h => ⟨h.made, h.line⟩⟩

instance (b m : List Char) : Decidable (IsWithin b m) := inferInstanceAs (Decidable (_ ∨ _))

instance (b : List Char) (s : Statement) : Decidable (s.Imports b) :=
  match s with
  | .modules _ l => inferInstanceAs (Decidable (∃ e ∈ l.entries, _))
  | .names _ _ _ _ => inferInstanceAs (Decidable (IsWithin _ _))

instance (b : List Char) (s : Statement) : Decidable (s.Plain b) :=
  match s with
  | .modules _ l => inferInstanceAs (Decidable (_ ∧ ∃ e ∈ l.entries, _))
  | .names _ module _ selection =>
    decidable_of_iff (IsDotted module ∧ selection.head?.all Text.isBlank = true)
      (and_congr_right fun _ => Option.all_eq_true _ _)

variable {s t rest : List Char} {c : Char}

/-! ## Names -/

theorem isInk_of_isNaming (h : isNaming c = true) : isInk c = true := by
  unfold isNaming at h
  split at h
  next ascii => exact isInk_of_isDotted (isDotted_of_isWord h)
  next beyond =>
    have other : c ≠ ',' := by
      rintro rfl
      exact beyond (by decide)
    have inked : Text.isBlank c = false := by simpa using h
    simp [isInk, inked, other]

theorem IsName.inked (h : IsName s) : IsInked s := ⟨h.filled, fun c hc => isInk_of_isNaming (h.all c hc)⟩

theorem IsModule.naming (h : IsModule s) (mem : c ∈ s) : isNaming c = true ∨ c = '.' := by
  rw [← Text.joinChars_splitAll (p := ['.']) s] at mem
  rcases Text.mem_joinChars mem with point | ⟨n, hn, mem⟩
  · exact .inr (List.mem_singleton.mp point)
  · exact .inl ((h n hn).all c mem)

theorem IsModule.inked (h : IsModule s) : IsInked s := by
  constructor
  · rintro rfl
    exact (h [] (by decide)).filled rfl
  · intro c hc
    rcases h.naming hc with naming | rfl
    · exact isInk_of_isNaming naming
    · decide

theorem not_isModule_importWord : ¬IsModule importWord := fun h =>
  (h importWord (by decide)).free (by decide)

theorem not_isModule_asWord : ¬IsModule asWord := fun h => (h asWord (by decide)).free (by decide)

/-- No module begins with a point. -/
theorem IsModule.head_ne (h : IsModule s) : s.head? ≠ some '.' := by
  intro point
  obtain ⟨t, rfl⟩ := List.head?_eq_some_iff.mp point
  have first : [] ∈ Text.splitAll ['.'] ('.' :: t) := by
    have cut := Text.splitAll_append_cons (c := '.') (a := []) List.not_mem_nil t
    rw [List.nil_append] at cut
    rw [cut]
    exact List.mem_cons_self
  exact (h [] first).filled rfl

theorem Listing.Made.inked_of_written {l : Listing} (h : l.Made IsModule IsName) : l.Inked :=
  h.mono (fun _ => IsModule.inked) fun _ => IsName.inked

/-! ## A stretch that reaches a line -/

/-- The text in front of the start of a line ends in a blank, as do the last lines of such a text. -/
theorem AtLineStart.blank_of_getLast? {above last : List Char} (start : AtLineStart (above ++ last).reverse) :
    ∀ c ∈ last.getLast?, Text.isBlank c = true := by
  intro c hc
  have ends : (above ++ last).getLast? = some c := by
    rw [List.getLast?_append, hc]
    rfl
  rcases start with none | feed
  · rw [List.reverse_eq_nil_iff.mp none] at ends
    cases ends
  · rw [List.head?_reverse, ends] at feed
    obtain rfl := Option.some.inj feed
    decide

/-- Where the last lines of a text hold just the word `from` and a name, these are its last words. -/
theorem Dangles.suffix_parts (h : Dangles s) : ∃ module, [fromWord, module] <:+ parts s := by
  obtain ⟨above, last, module, rfl, start, -, words⟩ := h
  have start' : AtLineStart ([] ++ above).reverse := start
  have blank := start'.blank_of_getLast?
  exact ⟨module, parts above, by rw [Text.parts_append_of_blank blank, words]⟩

/-- No word goes on into the end of a line. -/
theorem EndsLine.stops (h : EndsLine s) : Stops isInk s := by
  obtain ⟨trail, rest, rfl, blank, ends⟩ := h
  apply Text.Stops.append fun c hc => Text.isInk_of_isBlank (blank c hc)
  rcases ends with rfl | feed
  · exact Text.stops_nil _
  · intro c hc
    obtain rfl : c = '\n' := Option.some.inj (hc.symm.trans feed)
    decide

/-- What ends where a line ends goes past a text without line feeds. -/
theorem exists_of_atLineEnd {passed line more : List Char} (ends : AtLineEnd rest) (free : '\n' ∉ line)
    (same : passed ++ rest = line ++ more) : ∃ beyond, passed = line ++ beyond ∧ more = beyond ++ rest := by
  rcases List.append_eq_append_iff.mp same with ⟨left, rfl, rfl⟩ | ⟨beyond, rfl, rfl⟩
  · cases left with
    | nil => exact ⟨[], by simp, rfl⟩
    | cons c left =>
      rcases ends with none | feed
      · cases none
      · obtain rfl : c = '\n' := Option.some.inj feed
        exact absurd (List.mem_append_right _ List.mem_cons_self) free
  · exact ⟨beyond, rfl, rfl⟩

/-- Of two texts that one begins with, the longer one begins with the other. -/
theorem prefix_of_append {a b t : List Char} (same : a ++ s = b ++ t) (shorter : a.length ≤ b.length) : a <+: b := by
  have start : b <+: a ++ s := by
    rw [same]
    exact List.prefix_append b t
  exact List.prefix_of_prefix_length_le (List.prefix_append a s) start shorter

theorem keyword_inked : IsInked fromWord ∧ IsInked importWord :=
  ⟨by decide, by decide⟩

/-- The start of a line: a keyword and a module, and what follows. -/
structure Opens (indent keyword gap module more : List Char) : Prop where
  blank : AllBlank indent
  word : IsInked keyword
  other : keyword ≠ asWord
  apart : IsGap gap
  isModule : IsModule module
  stops : Stops isInk more
  oneLine : '\n' ∉ indent ++ (keyword ++ (gap ++ module))

/-- What a stretch can be that begins in `front` and goes on into a line which opens with a keyword and a module: one
of that line, with only blanks in front of it, or one from the word `from` and the name of a module in front of it to
the keyword `import`. -/
inductive Reaches (rest front keyword module more : List Char) (captures : List (Nat × List Char)) : Prop where
  | names (gap' : List Char) (c : Char) (blank : AllBlank front) (isFrom : keyword = fromWord)
    (dotted : IsDotted module) (apart : IsGap gap') (ends : Text.isBlank c = true)
    (same : more = gap' ++ (importWord ++ c :: rest)) (captured : captures = [(1, module)])
  | modules (l : Listing) (tail : List Char) (blank : AllBlank front) (isImport : keyword = importWord)
    (known : l.Known) (trailing : AllBlank tail) (ends : AtLineEnd rest)
    (same : module ++ more = (l.text ++ tail) ++ rest) (captured : captures = [(2, l.text)])
  | across (above : List Char) (isImport : keyword = importWord) (dotted : IsDotted above)
    (words : parts front = [fromWord, above])

section

variable {front indent keyword gap module more passed : List Char} {captures : List (Nat × List Char)}
  (opens : Opens indent keyword gap module more) (last : ∀ c ∈ front.getLast?, Text.isBlank c = true)

include opens in
theorem parts_opening : parts (indent ++ (keyword ++ (gap ++ (module ++ more)))) = keyword :: module :: parts more := by
  rw [Text.parts_blanks opens.blank, opens.word.parts_append (opens.apart.stops _),
    Text.parts_blanks opens.apart.2, opens.isModule.inked.parts_append opens.stops]

include opens in
/-- A line is read in one way up to its module, whatever blanks stand in front of it. -/
theorem behind_keyword {indent' before : List Char} (blank : AllBlank front) (indented : AllBlank indent')
    (apart : IsGap before) (word : Stops Text.isBlank t)
    (same : (front ++ indent) ++ (keyword ++ (gap ++ (module ++ s))) = indent' ++ (keyword ++ (before ++ t))) :
    module ++ s = t := by
  obtain ⟨-, keywords⟩ := Text.span_unique same (List.forall_mem_append.mpr ⟨blank, opens.blank⟩)
    (opens.word.stops _) indented (opens.word.stops _)
  obtain ⟨-, modules⟩ := Text.span_unique (List.append_cancel_left keywords) opens.apart.2
    (opens.isModule.inked.stops _) apart.2 word
  exact modules

include opens in
/-- In no list a keyword and a module follow each other. -/
theorem not_infix_parts (l : Listing) : ¬[keyword, module] <:+: l.parts := by
  intro inside
  have follow := l.isChain.infix inside
  rw [List.isChain_cons_cons] at follow
  have comma (s : List Char) (h : IsInked s) : s ≠ [','] := by
    rintro rfl
    cases (show isInk ',' = false by decide).symm.trans (h.2 ',' List.mem_cons_self)
  rcases follow.1 with same | same | same | same
  · exact comma keyword opens.word same
  · exact comma module opens.isModule.inked same
  · exact opens.other same
  · exact not_isModule_asWord (same ▸ opens.isModule)

include opens last

/-- A text in front that ends in a blank does not hold all words of the stretch, since this ends behind a word. -/
theorem reaches_of_names {indent' before dotted behind : List Char} {c : Char} (indented : AllBlank indent')
    (apart : IsGap before) (isDotted : IsDotted dotted) (apart' : IsGap behind) (blank : Text.isBlank c = true)
    (same : front ++ (indent ++ (keyword ++ (gap ++ (module ++ more)))) =
      (indent' ++ (fromWord ++ (before ++ (dotted ++ (behind ++ (importWord ++ [c])))))) ++ rest)
    (beyond : front.length <
      (indent' ++ (fromWord ++ (before ++ (dotted ++ (behind ++ (importWord ++ [c])))))).length) :
    Reaches rest front keyword module more [(1, dotted)] := by
  obtain ⟨isFrom, isImport⟩ := keyword_inked
  -- the words of the stretch without its last blank, and those of the text in two ways
  have stretch (t : List Char) (stops : Stops isInk t) :
      parts (indent' ++ (fromWord ++ (before ++ (dotted ++ (behind ++ (importWord ++ t)))))) =
        fromWord :: dotted :: importWord :: parts t := by
    rw [Text.parts_blanks indented, isFrom.parts_append (apart.stops _), Text.parts_blanks apart.2,
      isDotted.inked.parts_append (apart'.stops _), Text.parts_blanks apart'.2, isImport.parts_append stops]
  have words : parts front ++ keyword :: module :: parts more = fromWord :: dotted :: importWord :: parts rest :=
    calc parts front ++ keyword :: module :: parts more
      _ = parts (front ++ (indent ++ (keyword ++ (gap ++ (module ++ more))))) := by
        rw [Text.parts_append_of_blank last, parts_opening opens]
      _ = parts (indent' ++ (fromWord ++ (before ++ (dotted ++ (behind ++ (importWord ++ c :: rest)))))) := by
        rw [same]
        simp
      _ = fromWord :: dotted :: importWord :: parts rest := by
        rw [stretch _ (Text.stops_cons.mpr (Text.isInk_of_isBlank blank)), Text.parts_cons_blank blank]
  rcases shape : parts front with _ | ⟨x, _ | ⟨y, _ | ⟨z, zs⟩⟩⟩
  · -- no word stands in front: the stretch is one of the line
    rw [shape] at words
    simp only [List.nil_append, List.cons.injEq] at words
    obtain ⟨rfl, rfl, -⟩ := words
    have before_line := Text.parts_eq_nil_iff.mp shape
    have whole : (front ++ indent) ++ (fromWord ++ (gap ++ (module ++ more))) =
        indent' ++ (fromWord ++ (before ++ (module ++ (behind ++ (importWord ++ c :: rest))))) := by
      simpa using same
    have modules := behind_keyword opens before_line indented apart (isDotted.inked.stops _) whole
    exact .names behind c before_line rfl isDotted apart' blank (List.append_cancel_left modules) rfl
  · -- the word `from` stands in front: the module of the line would be the keyword `import`
    rw [shape] at words
    simp only [List.cons_append, List.nil_append, List.cons.injEq] at words
    exact absurd (words.2.2.1 ▸ opens.isModule) not_isModule_importWord
  · -- a name stands in front as well: the stretch ends behind the keyword of the line
    rw [shape] at words
    simp only [List.cons_append, List.nil_append, List.cons.injEq] at words
    obtain ⟨rfl, rfl, rfl, -⟩ := words
    exact .across y rfl isDotted shape
  · -- all words of the stretch stand in the text in front, which leaves none for its last letters
    have whole : front ++ (indent ++ (keyword ++ (gap ++ (module ++ more)))) =
        (indent' ++ (fromWord ++ (before ++ (dotted ++ (behind ++ importWord))))) ++ c :: rest := by
      simpa using same
    have upTo : front <+: indent' ++ (fromWord ++ (before ++ (dotted ++ (behind ++ importWord)))) := by
      apply prefix_of_append whole
      simp only [List.length_append, List.length_singleton] at beyond ⊢
      omega
    have ends : ∃ c ∈ (indent' ++ (fromWord ++ (before ++ (dotted ++ (behind ++ importWord))))).getLast?,
        isInk c = true := ⟨'t', by simp [importWord], by decide⟩
    have all := stretch [] (Text.stops_nil _)
    rw [List.append_nil] at all
    have fewer := Text.length_parts_lt upTo last ends
    rw [all, shape] at fewer
    simp only [List.length_cons, List.length_nil, parts] at fewer
    omega

/-- A list goes on to the end of a line, so that it has the keyword and the module as parts, which cannot follow each
other in a list. -/
theorem reaches_of_modules {indent' before tail : List Char} {l : Listing} (indented : AllBlank indent')
    (apart : IsGap before) (known : l.Known) (trailing : AllBlank tail) (ends : AtLineEnd rest)
    (same : front ++ (indent ++ (keyword ++ (gap ++ (module ++ more)))) =
      (indent' ++ (importWord ++ (before ++ (l.text ++ tail)))) ++ rest)
    (beyond : front.length < (indent' ++ (importWord ++ (before ++ (l.text ++ tail)))).length) :
    Reaches rest front keyword module more [(2, l.text)] := by
  obtain ⟨-, isImport⟩ := keyword_inked
  have stretch : parts (indent' ++ (importWord ++ (before ++ (l.text ++ tail)))) = importWord :: l.parts := by
    rw [Text.parts_blanks indented, isImport.parts_append (apart.stops _), Text.parts_blanks apart.2,
      parts_listing known.inked trailing.stops, Text.parts_of_blank trailing, List.append_nil]
  obtain ⟨behind, split⟩ := prefix_of_append same (Nat.le_of_lt beyond)
  -- the stretch ends behind the module of the line
  have line : behind ++ rest = (indent ++ (keyword ++ (gap ++ module))) ++ more := by
    rw [← split, List.append_assoc front] at same
    rw [← List.append_cancel_left same]
    simp
  obtain ⟨further, rfl, rfl⟩ := exists_of_atLineEnd ends opens.oneLine line
  have stops : Stops isInk further := opens.stops.of_append
  have words : parts front ++ keyword :: module :: parts further = importWord :: l.parts := by
    have opens' : Opens indent keyword gap module further := { opens with stops }
    rw [← stretch, ← split, Text.parts_append_of_blank last, ← parts_opening opens']
    simp
  rcases shape : parts front with _ | ⟨w, ws⟩
  · rw [shape] at words
    obtain ⟨rfl, -⟩ := List.cons.inj words
    have before_line := Text.parts_eq_nil_iff.mp shape
    have whole : (front ++ indent) ++ (importWord ++ (gap ++ (module ++ further))) =
        indent' ++ (importWord ++ (before ++ (l.text ++ tail))) := by
      simpa using split
    have first : Stops Text.isBlank (l.text ++ tail) := by
      rw [Listing.text, Entry.text]
      simp only [List.append_assoc]
      exact known.first.module.inked.stops _
    have modules := behind_keyword opens before_line indented apart first whole
    apply Reaches.modules l tail before_line rfl known trailing ends _ rfl
    rw [← modules, List.append_assoc]
  · rw [shape] at words
    apply absurd _ (not_infix_parts opens l)
    rw [← (List.cons.inj words).2]
    exact ⟨ws, parts further, by simp⟩

theorem reaches_of_found (same : front ++ (indent ++ (keyword ++ (gap ++ (module ++ more)))) = passed ++ rest)
    (beyond : front.length < passed.length) (found : Found rest passed captures) :
    Reaches rest front keyword module more captures := by
  cases found with
  | names indented apart dotted apart' blank =>
    exact reaches_of_names opens last indented apart dotted apart' blank same beyond
  | modules indented apart known trailing ends =>
    exact reaches_of_modules opens last indented apart known trailing ends same beyond

end

/-! ## From one stretch to the next -/

open Pattern

variable {before after front line : List Char} {m : Match} {P : List (Nat × List Char) → Prop}

theorem mem_allFrom_of_matchAt? {p : Compiled} (h : p.matchAt? before after = some m) :
    m ∈ p.allFrom 0 before after := by
  cases after with
  | nil =>
    rw [Compiled.allFrom, h]
    exact List.mem_singleton_self m
  | cons c after =>
    rw [Compiled.allFrom, h]
    exact List.mem_cons_self

/-- The pattern comes to a stretch at the start of a line, or is led on to there by a stretch from further up.  By
induction on the text in front; the stretch of the last match does not go on into the line. -/
theorem exists_matchFrom (here : (statement.matchAt? (front.reverse ++ before) line).isSome = true)
    (good : ∀ above last passed rest captures, front = above ++ last → AtLineStart (above.reverse ++ before) →
      last ++ line = passed ++ rest → last.length < passed.length → Found rest passed captures → P captures)
    {skip : Nat} (within : skip ≤ front.length) :
    ∃ m ∈ statement.allFrom skip before (front ++ line), P m.captures := by
  induction front generalizing before skip with
  | nil =>
    obtain rfl : skip = 0 := Nat.le_zero.mp within
    obtain ⟨m, found⟩ := Option.isSome_iff_exists.mp here
    obtain ⟨start, passed, rest, same, stretch, -⟩ := found_of_matchAt? found
    refine ⟨m, mem_allFrom_of_matchAt? found, good [] [] passed rest _ rfl start same ?_ stretch⟩
    exact List.length_pos_iff.mpr stretch.ne_nil
  | cons c front ih =>
    have further {skip : Nat} (within : skip ≤ front.length) :
        ∃ m ∈ statement.allFrom skip (c :: before) (front ++ line), P m.captures := by
      refine ih ?_ ?_ within
      · simpa using here
      · intro above last passed rest captures split start
        exact good (c :: above) last passed rest captures (by rw [split, List.cons_append]) (by simpa using start)
    cases skip with
    | succ skip => exact further (Nat.le_of_succ_le_succ within)
    | zero =>
      rw [List.cons_append, Compiled.allFrom]
      cases found : statement.matchAt? before (c :: (front ++ line)) with
      | none => exact further (Nat.zero_le _)
      | some m =>
        obtain ⟨start, passed, rest, same, stretch, begins, stops⟩ := found_of_matchAt? found
        by_cases beyond : (c :: front).length < passed.length
        · exact ⟨m, List.mem_cons_self, good [] (c :: front) passed rest _ rfl start same beyond stretch⟩
        · have short : m.stop - m.start - 1 ≤ front.length := by
            rw [List.length_cons] at beyond
            omega
          obtain ⟨m', mem, h⟩ := further short
          exact ⟨m', List.mem_cons_of_mem m mem, h⟩

theorem exists_match (start : AtLineStart front.reverse)
    (here : ∃ passed rest captures, line = passed ++ rest ∧ Found rest passed captures)
    (good : ∀ above last passed rest captures, front = above ++ last → AtLineStart above.reverse →
      last ++ line = passed ++ rest → last.length < passed.length → Found rest passed captures → P captures) :
    ∃ m ∈ statement.all (front ++ line), P m.captures := by
  obtain ⟨passed, rest, captures, rfl, stretch⟩ := here
  refine exists_matchFrom ?_ ?_ (Nat.zero_le _)
  · rw [List.append_nil]
    exact matchAt?_isSome start stretch
  · intro above last passed' rest' captures' split begins
    exact good above last passed' rest' captures' split (by simpa using begins)

end Scaffold.Check.Import
