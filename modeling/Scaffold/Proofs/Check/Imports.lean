import Scaffold.Check
import Scaffold.Proofs.Check.ImportFinds
import Scaffold.Proofs.Pattern.Spans

/-!
# Blocked imports

Where a text imports a blocked module on a line of its own, the check reports an error.  This holds of every text
around the statement, for names that are taken from a module; around a list of modules it holds where neither a line
further up nor one further down leads into the list and no comment stands behind it.  It does not hold of every
statement: some the pattern does not know, whatever stands around them.
-/

namespace Scaffold.Check.Import

open Text (parts)

variable {s : Statement} {front indent behind : List Char}

/-! ## What is reported -/

theorem isListed_iff {name : List Char} {listed : List String} :
    isListed (String.ofList name) listed = true ↔
      ∃ b ∈ listed, name = b.toList ∨ b.toList ++ ['/'] <+: name ∨ b.toList ++ ['.'] <+: name := by
  rw [isListed, List.any_eq_true]
  refine exists_congr fun b => and_congr_right fun _ => ?_
  have slash : (b ++ "/").toList = b.toList ++ ['/'] := String.toList_append
  have point : (b ++ ".").toList = b.toList ++ ['.'] := String.toList_append
  rw [Bool.or_eq_true, Bool.or_eq_true, beq_iff_eq, Text.startsWith, Text.startsWith, List.isPrefixOf_iff_prefix,
    List.isPrefixOf_iff_prefix, ← String.toList_inj, String.toList_ofList, slash, point, or_assoc]

theorem importProblem?_isSome {g : Guardrails} {b : String} {name : List Char}
    (blocked : b ∈ g.blockedImports.getD []) (within : IsWithin b.toList name) (head : name.head? ≠ some '.') :
    (importProblem? g (String.ofList name)).isSome = true := by
  have own : Text.startsWith "." (String.ofList name) = false := by
    rw [Bool.eq_false_iff]
    intro starts
    rw [Text.startsWith, List.isPrefixOf_iff_prefix] at starts
    obtain ⟨more, same⟩ := starts
    rw [String.toList_ofList (l := name)] at same
    rw [← same] at head
    exact head rfl
  have listed : isListed (String.ofList name) (g.blockedImports.getD []) = true :=
    isListed_iff.mpr ⟨b, blocked, within.imp_right .inr⟩
  rw [importProblem?, own, if_neg Bool.false_ne_true, if_pos listed]
  rfl

theorem mem_imports {text : String} {name : List Char}
    (found : name ∈ (statement.all text.toList).flatMap modulesOf) (filled : name ≠ []) :
    String.ofList name ∈ imports text := by
  apply List.mem_map_of_mem
  rw [List.mem_filter, List.mem_eraseDups]
  exact ⟨List.mem_append_left _ found, by simpa using filled⟩

/-- The report on a text that is not blank and whose form can be judged. -/
theorem check_eq {text : String} {g : Guardrails} {form : Option String} (filled : Text.isBlankString text = false)
    (h : formProblem? text g = .ok form) : ∃ r, g.check text = .ok r ∧
      r.errors = (lengthProblem? text g).toList ++ form.toList ++ importProblems text g := by
  simp only [Guardrails.check, filled, h]
  exact ⟨_, rfl, rfl⟩

/-- The text in which a statement stands. -/
def Statement.within (front indent behind : List Char) (s : Statement) : String :=
  String.ofList (front ++ (indent ++ (s.text ++ behind)))

/-- A text with a statement is not blank. -/
theorem not_blank_within (s : Statement) : Text.isBlankString (s.within front indent behind) = false := by
  have keyword : ∃ c ∈ s.text, Text.isBlank c = false := by
    cases s with
    | modules gap l => exact ⟨'i', by simp [Statement.text, importWord], by decide⟩
    | names gap module gap' selection => exact ⟨'f', by simp [Statement.text, fromWord], by decide⟩
  obtain ⟨c, mem, inked⟩ := keyword
  rw [Text.isBlankString, List.all_eq_false]
  refine ⟨c, ?_, by simp [inked]⟩
  simp [Statement.within, mem]

/-- A plain statement on a line of its own is reported if the module is blocked. -/
theorem plain_reported {b : String} {g : Guardrails} {form : Option String} (written : s.Written)
    (imports : s.Imports b.toList) (plain : s.Plain b.toList) (own : OwnLine front indent behind)
    (undisturbed : s.Undisturbed front behind) (blocked : b ∈ g.blockedImports.getD [])
    (h : formProblem? (s.within front indent behind) g = .ok form) :
    ∃ r, g.check (s.within front indent behind) = .ok r ∧ r.errors ≠ [] := by
  obtain ⟨r, checked, errors⟩ := check_eq (not_blank_within s) h
  refine ⟨r, checked, ?_⟩
  obtain ⟨name, found, inside, head, filled⟩ := exists_found written own undisturbed plain imports
  obtain ⟨problem, some⟩ := Option.isSome_iff_exists.mp (importProblem?_isSome blocked inside head)
  have looks : looksAtImports g = true := by
    rw [looksAtImports, Bool.or_eq_true]
    right
    simpa using List.ne_nil_of_mem blocked
  have mem : problem ∈ importProblems (s.within front indent behind) g := by
    rw [importProblems, if_pos looks, List.mem_filterMap]
    refine ⟨_, mem_imports ?_ filled, some⟩
    rwa [Statement.within, String.toList_ofList]
  rw [errors]
  exact List.append_ne_nil_of_right_ne_nil _ (List.ne_nil_of_mem mem)

/-! ## What is not reported -/

/-- A character that stands in statements: one of a name, a blank, or one of some marks. -/
def isStatementChar (c : Char) : Bool := isSelecting c || c == '.'

theorem isStatementChar_of_isNaming {c : Char} (h : isNaming c = true) : isStatementChar c = true := by
  simp [isStatementChar, isSelecting, h]

theorem isStatementChar_of_isBlank {c : Char} (h : Text.isBlank c = true) : isStatementChar c = true := by
  simp [isStatementChar, isSelecting, h]

/-- All characters of a statement are such. -/
theorem Statement.Written.all (written : s.Written) : ∀ c ∈ s.text, isStatementChar c = true := by
  have gap (g : List Char) (hg : AllBlank g) : ∀ c ∈ g, isStatementChar c = true :=
    fun c hc => isStatementChar_of_isBlank (hg c hc)
  have module (m : List Char) (hm : IsModule m) : ∀ c ∈ m, isStatementChar c = true := by
    intro c hc
    rcases hm.naming hc with naming | rfl
    · exact isStatementChar_of_isNaming naming
    · decide
  have word (w : List Char) (hw : w.all isStatementChar = true) : ∀ c ∈ w, isStatementChar c = true :=
    List.all_eq_true.mp hw
  have entry (e : Entry) (he : e.Made IsModule IsName) : ∀ c ∈ e.text, isStatementChar c = true := by
    obtain ⟨name, _ | a⟩ := e
    · rw [Entry.text_none]
      exact module name he.module
    · obtain ⟨before, between, other⟩ := he.other a rfl
      simp only [Entry.text_some, Alias.text, List.forall_mem_append]
      exact ⟨module name he.module, gap _ before.2, word _ (by decide), gap _ between.2,
        fun c hc => isStatementChar_of_isNaming (other.all c hc)⟩
  cases s with
  | names gap₁ name gap₂ selection =>
    obtain ⟨apart, isModule, apart', selected⟩ := written.made
    simp only [Statement.text, List.forall_mem_append]
    exact ⟨word _ (by decide), gap _ apart.2, module _ isModule, gap _ apart'.2, word _ (by decide),
      fun c hc => by simp [isStatementChar, selected.all c hc]⟩
  | modules gap₁ l =>
    obtain ⟨apart, first, others⟩ := written.made
    simp only [Statement.text, Listing.text, List.forall_mem_append]
    refine ⟨word _ (by decide), gap _ apart.2, entry _ first, fun c hc => ?_⟩
    obtain ⟨f, hf, mem⟩ := List.mem_flatMap.mp hc
    obtain ⟨before, behind, known⟩ := others f hf
    have all : ∀ c ∈ f.text, isStatementChar c = true := by
      simp only [Further.text, List.forall_mem_append, List.forall_mem_cons]
      exact ⟨gap _ before, by decide, gap _ behind, entry _ known⟩
    exact all c mem

/-- What comes in front of a quoted name. -/
def quotedFront : Pattern.Node :=
  .either
    (Pattern.sequence [Pattern.verbatim "import", blank, .repeated .fewest 0 none unquoted, Pattern.verbatim "from",
      blanks])
    (.either (.seq (Pattern.verbatim "import") blanks) (.seq (Pattern.verbatim "require(") blanks))

open Pattern in
/-- What is quoted stands behind a quotation mark, so that nothing is found among the characters of statements. -/
theorem quoted_all {text : List Char} (free : ∀ c ∈ text, isStatementChar c = true) : quoted.all text = [] := by
  have node : quoted.node = .seq quotedFront (.seq quote (.seq (.group 1 (.repeated .most 1 none unquoted)) quote)) :=
    rfl
  rw [List.eq_nil_iff_forall_not_mem]
  intro m mem
  obtain ⟨front, behind, rfl, found⟩ := matchAt?_of_mem_allFrom mem
  obtain ⟨t, run, -⟩ := Option.map_eq_some_iff.mp found
  rw [node, Node.run] at run
  obtain ⟨u, ⟨passed, after, -⟩, accepted⟩ := Node.run_goesOn _ _ _ _ _ run
  rw [Node.run, quote, Node.run] at accepted
  split at accepted
  next c v next =>
    split at accepted
    next isQuote =>
      have mem : c ∈ front ++ behind := by
        obtain ⟨before, here, captures⟩ := u
        cases here with
        | nil => cases next
        | cons d here =>
          cases next
          rw [show behind = passed ++ c :: here from after]
          simp
      have marks : c = '\x27' ∨ c = '\x22' := by
        rw [← Char.toNat_inj, ← Char.toNat_inj]
        simpa [inSet, variants, quoted, Member.holds] using isQuote
      rcases marks with rfl | rfl
      · cases (show isStatementChar '\x27' = false by decide).symm.trans (free _ mem)
      · cases (show isStatementChar '\x22' = false by decide).symm.trans (free _ mem)
    next => cases accepted
  next => cases accepted

/-- What a name begins with that is found for a module is part of the module, if no blank is in it. -/
theorem prefix_of_prefix_found {p module more : List Char} (inked : ∀ c ∈ p, Text.isBlank c = false)
    (blank : ∀ c ∈ more.head?, Text.isBlank c = true) (h : p <+: module ++ more) : p <+: module := by
  obtain ⟨behind, same⟩ := h
  rcases List.append_eq_append_iff.mp same with ⟨left, rfl, -⟩ | ⟨beyond, rfl, rfl⟩
  · exact List.prefix_append p left
  · cases beyond with
    | nil => exact ⟨[], by simp⟩
    | cons c beyond =>
      cases (inked c (by simp)).symm.trans (blank c rfl)

theorem chars_of_isWithin {b m : List Char} (h : IsModule m) (within : IsWithin b m) :
    ∀ c ∈ b, isNaming c = true ∨ c = '.' := by
  intro c hc
  rcases within with rfl | inside
  · exact h.naming hc
  · exact h.naming (inside.subset (List.mem_append_left _ hc))

/-- A module that is not inside of `b`, or is `b` with another name that is not seen, is not found as one that is
blocked. -/
theorem not_listed_found {e : Entry} {b : String} (he : e.Made IsModule IsName)
    (chars : ∀ c ∈ b.toList, isNaming c = true ∨ c = '.')
    (unseen : IsWithin b.toList e.module → e.module = b.toList ∧ ∃ a, e.alias? = some a ∧ ¬a.Spaced) :
    isListed (String.ofList e.found) [b] = false := by
  have inked : e.Inked := he.mono (fun _ => IsModule.inked) fun _ => IsName.inked
  obtain ⟨more, found, blank⟩ := found_eq inked
  have ink (c : Char) (hc : isNaming c = true ∨ c = '.') : Text.isBlank c = false := by
    rcases hc with naming | rfl
    · exact Text.isBlank_of_isInk (isInk_of_isNaming naming)
    · decide
  have inside (p : List Char) (hp : ∀ c ∈ p, Text.isBlank c = false) (h : b.toList ++ p <+: e.found) :
      b.toList ++ p <+: e.module := by
    refine prefix_of_prefix_found (List.forall_mem_append.mpr ⟨fun c hc => ink c (chars c hc), hp⟩) blank ?_
    rwa [← found]
  rw [Bool.eq_false_iff]
  intro listed
  rw [isListed_iff] at listed
  simp only [List.mem_singleton, exists_eq_left] at listed
  rcases listed with same | slash | point
  · have module : e.module = b.toList := by
      have start := inside [] (by simp) (by simp [same])
      rw [List.append_nil] at start
      refine (start.eq_of_length_le ?_).symm
      rw [← same, found, List.length_append]
      exact Nat.le_add_right _ _
    obtain ⟨-, a, other, apart⟩ := unseen (.inl module)
    obtain ⟨name, alias?⟩ := e
    obtain rfl : alias? = some a := other
    rw [Entry.found_some, if_neg apart, ← module] at same
    exact a.text_ne_nil (List.append_right_eq_self.mp same)
  · have mem : '/' ∈ e.module := (inside ['/'] (List.forall_mem_singleton.mpr (by decide)) slash).subset (by simp)
    rcases he.module.naming mem with naming | other
    · cases (show isNaming '/' = false by decide).symm.trans naming
    · cases other
  · have within := inside ['.'] (List.forall_mem_singleton.mpr (by decide)) point
    have longer := within.length_le
    rw [(unseen (.inr within)).1, List.length_append, List.length_singleton] at longer
    omega

/-- The check of a text with nothing but a statement, where `b` alone is blocked. -/
def blocking (b : String) : Guardrails := { blockedImports := some [b] }

/-- A statement that is not plain is not reported where it stands alone. -/
theorem not_reported {b : String} (written : s.Written) (imports : s.Imports b.toList) (hidden : ¬s.Plain b.toList) :
    ∃ r, (blocking b).check (s.within [] [] []) = .ok r ∧ r.errors = [] := by
  obtain ⟨r, checked, errors⟩ := check_eq (g := blocking b) (not_blank_within s) rfl
  refine ⟨r, checked, ?_⟩
  have chars : (s.within [] [] []).toList = s.text := by simp [Statement.within]
  have unlisted (m : Pattern.Match) (hm : m ∈ statement.all s.text) (name : List Char) (hn : name ∈ modulesOf m) :
      isListed (String.ofList name) [b] = false := by
    cases s with
    | names gap module gap' selection => exact absurd (plain_of_match_names written hm) hidden
    | modules gap l =>
      obtain ⟨known, found⟩ := modulesOf_of_match_modules written hm
      rw [found] at hn
      obtain ⟨e, he, rfl⟩ := List.mem_map.mp hn
      obtain ⟨e', he', inside⟩ := imports
      refine not_listed_found (written.made.2.of_mem_entries he)
        (chars_of_isWithin (written.made.2.of_mem_entries he').module inside) fun within => ?_
      by_contra seen
      refine hidden ⟨known, e, he, within, fun same a ha => ?_⟩
      by_contra apart
      exact seen ⟨same, a, ha, apart⟩
  have none : importProblems (s.within [] [] []) (blocking b) = [] := by
    rw [importProblems]
    split
    · rw [List.filterMap_eq_nil_iff]
      intro name mem
      obtain ⟨cs, found, rfl⟩ := List.mem_map.mp mem
      rw [List.mem_filter, List.mem_eraseDups, chars, quoted_all written.all, List.filterMap_nil,
        List.append_nil] at found
      obtain ⟨m, hm, hn⟩ := List.mem_flatMap.mp found.1
      have free : isListed (String.ofList cs) ((blocking b).blockedImports.getD []) = false := unlisted m hm cs hn
      rw [importProblem?, free]
      simp [blocking]
    · rfl
  rw [errors, none]
  rfl

/-- A statement that imports `b` is reported in every text that leaves its line to the pattern, whatever else is asked
of the text, exactly if it is plain. -/
theorem blocked_import_reported_iff {b : String} (written : s.Written) (imports : s.Imports b.toList) :
    (∀ (front indent behind : List Char) (g : Guardrails) (form : Option String), OwnLine front indent behind →
        s.Undisturbed front behind → b ∈ g.blockedImports.getD [] →
        formProblem? (s.within front indent behind) g = .ok form →
        ∃ r, g.check (s.within front indent behind) = .ok r ∧ r.errors ≠ []) ↔
      s.Plain b.toList := by
  constructor
  · intro all
    by_contra hidden
    obtain ⟨r, checked, unseen⟩ := not_reported written imports hidden
    have ends : EndsLine [] := ⟨[], [], rfl, allBlank_nil, .inl rfl⟩
    have own : OwnLine [] [] [] := ⟨.inl rfl, allBlank_nil, List.not_mem_nil, .inl ends⟩
    have undisturbed : s.Undisturbed [] [] := by
      cases s with
      | names => trivial
      | modules gap l =>
        refine ⟨?_, ends, not_goesOn_of_blank allBlank_nil⟩
        rintro ⟨above, last, module, split, -, -, words⟩
        obtain ⟨-, rfl⟩ := List.append_eq_nil_iff.mp split.symm
        cases words
    obtain ⟨r', checked', seen⟩ := all [] [] [] (blocking b) none own undisturbed (by simp [blocking]) rfl
    rw [checked] at checked'
    cases checked'
    exact seen unseen
  · intro plain front indent behind g form own undisturbed blocked h
    exact plain_reported written imports plain own undisturbed blocked h

namespace Borrowed

/-- A list of modules: one inside of `os` with another name, and a further one. -/
def spaced : Statement :=
  .modules " ".toList ⟨⟨"os.path".toList, some ⟨" ".toList, " ".toList, "p".toList⟩⟩,
    [⟨[], " ".toList, ⟨"sys".toList, none⟩⟩]⟩

/-- The module `os` with another name between tabulators. -/
def tabbed : Statement := .modules " ".toList ⟨⟨"os".toList, some ⟨"\t".toList, "\t".toList, "o".toList⟩⟩, []⟩

/-- The first statement is reported inside of a script; the second one is not reported in every text. -/
theorem spaced_reported_and_tabbed_not :
    (∃ r, (blocking "os").check "if True:\n    import os.path as p, sys\nprint(p.sep)\n" = .ok r ∧ r.errors ≠ []) ∧
      ¬∀ (front indent behind : List Char) (g : Guardrails) (form : Option String), OwnLine front indent behind →
        tabbed.Undisturbed front behind → "os" ∈ g.blockedImports.getD [] →
        formProblem? (tabbed.within front indent behind) g = .ok form →
        ∃ r, g.check (tabbed.within front indent behind) = .ok r ∧ r.errors ≠ [] := by
  constructor
  · have plain : spaced.Plain "os".toList := by decide
    have text : spaced.within "if True:\n".toList "    ".toList "\nprint(p.sep)\n".toList =
        "if True:\n    import os.path as p, sys\nprint(p.sep)\n" := by decide
    rw [← text]
    have ends : EndsLine "\nprint(p.sep)\n".toList := ⟨[], _, rfl, allBlank_nil, .inr rfl⟩
    refine (blocked_import_reported_iff (by decide) (by decide)).mpr plain _ _ _ _ none
      ⟨.inr (by decide), by decide, by decide, .inl ends⟩ ⟨fun dangles => ?_, ends, fun goes => ?_⟩ (by decide) rfl
    · obtain ⟨module, last⟩ := dangles.suffix_parts
      have words : (parts "if True:\n".toList).length = 2 := by decide
      cases last.eq_of_length words.symm
    · cases goes.head?_parts
  · rw [blocked_import_reported_iff (by decide) (by decide)]
    decide

/-- A module, and what follows it up to the end of the text. -/
def bare : Statement := .modules " ".toList ⟨⟨"os".toList, none⟩, []⟩

/-- A list of modules in front of a comment is not reported.  Nor is one that a line in front of it or one behind it
leads into, nor names that are taken from a module without a blank in front of them. -/
theorem bare_missed :
    (bare.Written ∧ bare.Imports "os".toList ∧ OwnLine [] [] "  # for paths\nprint(os.getcwd())\n".toList ∧
      bare.within [] [] "  # for paths\nprint(os.getcwd())\n".toList =
        "import os  # for paths\nprint(os.getcwd())\n") ∧
      ∀ text ∈ ["import os  # for paths\nprint(os.getcwd())\n", "from x\nimport os\n", "import os\nas usual\n",
        "from os import(path)\n"], ((blocking "os").check text).map Report.errors = .ok [] := by
  refine ⟨⟨by decide, by decide, ⟨.inl rfl, by decide, by decide, .inr ⟨"  ".toList, _, rfl, by decide⟩⟩, by decide⟩, ?_⟩
  decide +kernel

end Borrowed

end Scaffold.Check.Import
