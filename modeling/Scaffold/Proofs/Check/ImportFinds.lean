import Scaffold.Proofs.Check.ImportStatements

/-!
# What is found of an import statement

Of a plain statement on a line of its own the pattern finds the module that is imported, whatever stands around it
as long as it leaves the line to the pattern.

Where a statement stands alone, nothing but the statement can be found.  So what the pattern does not know in it is
not found at all, and of a list of modules just the names are found that the list gives.
-/

namespace Scaffold.Check.Import

open Pattern
open Text (isInk parts Stops)

variable {s : Statement} {l : Listing} {e : Entry} {gap module gap' selection front indent behind : List Char}
  {b : List Char} {c : Char}

/-! ## Statements as lines -/

theorem opens_names (made : (Statement.names gap module gap' selection).Written) (blank : AllBlank indent)
    (line : '\n' ∉ indent) (behind : List Char) :
    Opens indent fromWord gap module (gap' ++ (importWord ++ (selection ++ behind))) := by
  obtain ⟨⟨apart, isModule, apart', -⟩, free⟩ := made
  refine ⟨blank, keyword_inked.1, by decide, apart, isModule, apart'.stops _, ?_⟩
  simp only [Statement.text, List.mem_append, not_or] at free ⊢
  exact ⟨line, free.1, free.2.1, free.2.2.1⟩

theorem opens_modules (made : (Statement.modules gap l).Written) (blank : AllBlank indent)
    (line : '\n' ∉ indent) (stops : Stops isInk behind) :
    ∃ more, Opens indent importWord gap l.first.module (more ++ behind) ∧ l.text = l.first.module ++ more := by
  obtain ⟨⟨apart, made⟩, free⟩ := made
  have inked := made.inked_of_written
  refine ⟨(l.first.alias?.map Alias.text).getD [] ++ l.others.flatMap Further.text, ?_, ?_⟩
  · refine ⟨blank, keyword_inked.2, by decide, apart, made.first.module, ?_, ?_⟩
    · rw [List.append_assoc]
      cases other : l.first.alias? with
      | none => exact stops_others inked.others stops
      | some a =>
        rw [Option.map_some, Option.getD_some, Alias.text, List.append_assoc]
        exact (inked.first.other a other).before.stops _
    · simp only [Statement.text, Listing.text, Entry.text, List.mem_append, not_or] at free ⊢
      exact ⟨line, free.1, free.2.1, free.2.2.1.1⟩
  · rw [Listing.text, Entry.text, List.append_assoc]

/-! ## What the pattern finds -/

/-- Of names that are taken from a module the module is found. -/
theorem exists_match_names (made : (Statement.names gap module gap' selection).Written)
    (own : OwnLine front indent behind) (plain : (Statement.names gap module gap' selection).Plain b) :
    ∃ m ∈ statement.all (front ++ (indent ++ ((Statement.names gap module gap' selection).text ++ behind))),
      m.captures = [(1, module)] := by
  have opens := opens_names made own.blank own.line behind
  obtain ⟨⟨apart, -, apart', ⟨c, first, -⟩, -⟩, -⟩ := made
  obtain ⟨more, rfl⟩ := List.head?_eq_some_iff.mp first
  refine exists_match (P := (· = [(1, module)])) own.start ⟨_, more ++ behind, _, ?_,
    .names own.blank apart plain.1 apart' (plain.2 c rfl)⟩ ?_
  · simp [Statement.text]
  · rintro above last passed rest captures rfl - same beyond found
    have line : last ++ (indent ++ (fromWord ++ (gap ++ (module ++ (gap' ++ (importWord ++ (c :: more ++ behind))))))) =
        passed ++ rest := by
      rw [← same]
      simp [Statement.text]
    cases reaches_of_found opens own.start.blank_of_getLast? line beyond found with
    | names _ _ _ _ _ _ _ _ captured => exact captured
    | modules _ _ _ isImport => exact absurd isImport (by decide)
    | across _ isImport => exact absurd isImport (by decide)

/-- Of a list of modules a list is found that begins with the same ones. -/
theorem exists_match_modules (made : (Statement.modules gap l).Written) (own : OwnLine front indent behind)
    (undisturbed : (Statement.modules gap l).Undisturbed front behind) (known : l.Known) :
    ∃ m ∈ statement.all (front ++ (indent ++ ((Statement.modules gap l).text ++ behind))),
      ∃ l' : Listing, l'.Known ∧ l.entries <+: l'.entries ∧ m.captures = [(2, l'.text)] := by
  obtain ⟨clear, ends, single⟩ := undisturbed
  obtain ⟨more, opens, split⟩ := opens_modules made own.blank own.line ends.stops
  refine exists_match (P := fun captures => ∃ l' : Listing, l'.Known ∧ l.entries <+: l'.entries ∧
    captures = [(2, l'.text)]) own.start ?_ ?_
  · obtain ⟨trail, rest, rfl, blank, atEnd⟩ := ends
    refine ⟨_, rest, _, ?_, .modules own.blank made.made.1 known blank atEnd⟩
    simp [Statement.text]
  · rintro above last passed rest captures rfl begins same beyond found
    have line : last ++ (indent ++ (importWord ++ (gap ++ (l.first.module ++ (more ++ behind))))) = passed ++ rest := by
      rw [← same, Statement.text, split]
      simp
    cases reaches_of_found opens own.start.blank_of_getLast? line beyond found with
    | names _ _ _ isFrom => exact absurd isFrom (by decide)
    | across module _ dotted words => exact absurd ⟨above, last, module, rfl, begins, dotted, words⟩ clear
    | modules l' tail _ _ known' trailing atEnd list captured =>
      refine ⟨l', known', ?_, captured⟩
      have free : '\n' ∉ l.text := by
        have := made.line
        simp only [Statement.text, List.mem_append, not_or] at this
        exact this.2.2
      rw [← List.append_assoc, ← split] at list
      obtain ⟨further, whole, rfl⟩ := exists_of_atLineEnd atEnd free list.symm
      apply Listing.entries_prefix known known' trailing ends.stops.of_append ?_ whole
      rintro ⟨a, ha, start⟩
      exact single ⟨a, ha, start.trans (List.prefix_append _ _)⟩

/-! ## What is found of a statement -/

theorem modulesOf_names {m : Match} (h : m.captures = [(1, module)]) : modulesOf m = [module] := by
  simp [modulesOf, Match.group?, h]

theorem modulesOf_modules {m : Match} (known : l.Known) (h : m.captures = [(2, l.text)]) :
    modulesOf m = l.entries.map Entry.found := by
  rw [← map_plainName_splitAll known.inked]
  simp [modulesOf, Match.group?, h]

/-- The name that is found for a module is that of the module, with a blank behind it if more is found. -/
theorem found_eq (he : e.Inked) : ∃ more, e.found = e.module ++ more ∧ ∀ c ∈ more.head?, Text.isBlank c = true := by
  obtain ⟨module, _ | a⟩ := e
  · exact ⟨[], by rw [Entry.found_none, List.append_nil], nofun⟩
  · by_cases spaced : a.Spaced
    · exact ⟨[], by rw [Entry.found_some, if_pos spaced, List.append_nil], nofun⟩
    · refine ⟨a.text, by rw [Entry.found_some, if_neg spaced], ?_⟩
      have gap := (he.other a rfl).before
      rw [Alias.text, List.head?_append_of_ne_nil _ gap.1]
      exact fun c hc => gap.2 c (List.mem_of_mem_head? hc)

/-- A module inside of `b` is found as such, and `b` itself if its other name is seen. -/
theorem isWithin_found (he : e.Inked) (within : IsWithin b e.module)
    (seen : e.module = b → ∀ a ∈ e.alias?, a.Spaced) : IsWithin b e.found := by
  rcases within with same | inside
  · left
    obtain ⟨module, _ | a⟩ := e
    · exact same
    · rw [Entry.found_some, if_pos (seen same a rfl)]
      exact same
  · obtain ⟨more, found, -⟩ := found_eq he
    rw [found]
    exact .inr (inside.trans (List.prefix_append _ _))

/-- No name that is found begins with a point. -/
theorem head_found_ne (he : e.Inked) (isModule : IsModule e.module) : e.found.head? ≠ some '.' := by
  obtain ⟨more, found, -⟩ := found_eq he
  rw [found, List.head?_append_of_ne_nil _ isModule.inked.1]
  exact isModule.head_ne

/-- Of a plain statement on a line of its own the module is found that is imported. -/
theorem exists_found (written : s.Written) (own : OwnLine front indent behind)
    (undisturbed : s.Undisturbed front behind) (plain : s.Plain b) (imports : s.Imports b) :
    ∃ name ∈ (statement.all (front ++ (indent ++ (s.text ++ behind)))).flatMap modulesOf,
      IsWithin b name ∧ name.head? ≠ some '.' ∧ name ≠ [] := by
  cases s with
  | names gap module gap' selection =>
    obtain ⟨m, mem, captured⟩ := exists_match_names written own plain
    have isModule : IsModule module := written.made.2.1
    refine ⟨module, List.mem_flatMap.mpr ⟨m, mem, ?_⟩, imports, isModule.head_ne, isModule.inked.1⟩
    rw [modulesOf_names captured]
    exact List.mem_singleton_self module
  | modules gap l =>
    obtain ⟨known, e, he, within, seen⟩ := plain
    obtain ⟨m, mem, l', known', start, captured⟩ := exists_match_modules written own undisturbed known
    have inked : e.Inked := written.made.2.inked_of_written.of_mem_entries he
    have isModule : IsModule e.module := (written.made.2.of_mem_entries he).module
    refine ⟨e.found, List.mem_flatMap.mpr ⟨m, mem, ?_⟩, isWithin_found inked within seen,
      head_found_ne inked isModule, ?_⟩
    · rw [modulesOf_modules known' captured]
      exact List.mem_map_of_mem (start.subset he)
    · obtain ⟨more, found, -⟩ := found_eq inked
      rw [found]
      exact List.append_ne_nil_of_left_ne_nil isModule.inked.1 more

/-! ## A statement alone -/

/-- A match begins at a place of the text. -/
theorem matchAt?_of_mem_allFrom {p : Compiled} {m : Match} {skip : Nat} {before after : List Char}
    (h : m ∈ p.allFrom skip before after) : ∃ passed rest, after = passed ++ rest ∧
      p.matchAt? (passed.reverse ++ before) rest = some m := by
  induction after generalizing skip before with
  | nil =>
    cases skip with
    | zero =>
      rw [Compiled.allFrom, Option.mem_toList] at h
      exact ⟨[], [], rfl, h⟩
    | succ skip => cases h
  | cons c after ih =>
    have further {skip : Nat} (h : m ∈ p.allFrom skip (c :: before) after) :
        ∃ passed rest, c :: after = passed ++ rest ∧ p.matchAt? (passed.reverse ++ before) rest = some m := by
      obtain ⟨passed, rest, rfl, found⟩ := ih h
      exact ⟨c :: passed, rest, rfl, by simpa using found⟩
    cases skip with
    | succ skip => exact further h
    | zero =>
      rw [Compiled.allFrom] at h
      cases found : p.matchAt? before (c :: after) with
      | none =>
        rw [found] at h
        exact further h
      | some m' =>
        rw [found] at h
        rcases List.mem_cons.mp h with rfl | h
        · exact ⟨[], c :: after, rfl, found⟩
        · exact further h

/-- In a text without line feeds stretches begin at its start. -/
theorem found_of_mem_all {text : List Char} {m : Match} (free : '\n' ∉ text) (h : m ∈ statement.all text) :
    ∃ passed rest, text = passed ++ rest ∧ Found rest passed m.captures := by
  obtain ⟨front, behind, rfl, found⟩ := matchAt?_of_mem_allFrom h
  obtain ⟨start, passed, rest, rfl, stretch, -⟩ := found_of_matchAt? found
  rw [List.append_nil] at start
  rcases start with none | feed
  · rw [List.reverse_eq_nil_iff.mp none]
    exact ⟨passed, rest, rfl, stretch⟩
  · rw [List.head?_reverse] at feed
    exact absurd (List.mem_append_left _ (List.mem_of_mem_getLast? feed)) free

/-- Names that are taken from a module are found only if the pattern knows the module and a blank stands in front of
them. -/
theorem plain_of_match_names {m : Match} (written : (Statement.names gap module gap' selection).Written)
    (h : m ∈ statement.all (Statement.names gap module gap' selection).text) :
    (Statement.names gap module gap' selection).Plain b := by
  obtain ⟨passed, rest, same, found⟩ := found_of_mem_all written.line h
  have opens : Opens [] fromWord gap module (gap' ++ (importWord ++ (selection ++ []))) :=
    opens_names written allBlank_nil List.not_mem_nil []
  have line : [] ++ ([] ++ (fromWord ++ (gap ++ (module ++ (gap' ++ (importWord ++ (selection ++ []))))))) =
      passed ++ rest := by
    rw [← same]
    simp [Statement.text]
  cases reaches_of_found opens (by simp) line (List.length_pos_iff.mpr found.ne_nil) found with
  | modules _ _ _ isImport => exact absurd isImport (by decide)
  | across _ isImport => exact absurd isImport (by decide)
  | names apart' c _ _ dotted gap ends same =>
    refine ⟨dotted, fun d hd => ?_⟩
    have isImport := keyword_inked.2
    obtain ⟨-, words⟩ := Text.span_unique same written.made.2.2.1.2 (isImport.stops _) gap.2 (isImport.stops _)
    rw [List.append_nil] at words
    rw [List.append_cancel_left words] at hd
    obtain rfl := Option.some.inj hd
    exact ends

/-- A module whose parts the pattern takes for names is known. -/
theorem Entry.Made.known (he : e.Made IsModule IsName) (dotted : ∀ w ∈ e.parts, IsDotted w) : e.Known := by
  refine ⟨dotted _ List.mem_cons_self, fun a ha => ?_⟩
  obtain ⟨before, between, name⟩ := he.other a ha
  have mem : a.name ∈ e.parts := by simp [Entry.parts, ha]
  refine ⟨before, between, name.filled, fun c hc => ?_⟩
  have known := (dotted _ mem).2 c hc
  rw [isDotted, Bool.or_eq_true, beq_iff_eq] at known
  rcases known with word | rfl
  · exact word
  · cases (show isNaming '.' = false by decide).symm.trans (name.all _ hc)

/-- A list whose parts are those of a list that the pattern knows is known too. -/
theorem known_of_parts_eq {l' : Listing} (hl : l.Made IsModule IsName) (known : l'.Known)
    (same : l.parts = l'.parts) : l.Known := by
  have dotted (w : List Char) (mem : w ∈ l.parts) (inked : IsInked w) : IsDotted w := by
    rw [same] at mem
    rcases dotted_of_mem_parts known mem with rfl | dotted
    · cases (show isInk ',' = false by decide).symm.trans (inked.2 _ List.mem_cons_self)
    · exact dotted
  have inked (e : Entry) (he : e.Inked) (w : List Char) (mem : w ∈ e.parts) : IsInked w := by
    rcases he.of_mem_parts mem with inked | rfl | inked
    · exact inked
    · exact asWord_inked
    · exact inked
  have all := hl.inked_of_written
  refine ⟨hl.first.known fun w mem => dotted w (List.mem_append_left _ mem) (inked _ all.first w mem), fun f hf => ?_⟩
  have entry := (all.others f hf).entry
  refine ⟨(hl.others f hf).before, (hl.others f hf).behind, (hl.others f hf).entry.known fun w mem => ?_⟩
  refine dotted w (List.mem_append_right _ (List.mem_flatMap.mpr ⟨f, hf, ?_⟩)) (inked _ entry w mem)
  exact List.mem_cons_of_mem _ mem

/-- Of a list of modules that stands alone just the names of its modules are found, if the pattern knows it at all. -/
theorem modulesOf_of_match_modules {m : Match} (written : (Statement.modules gap l).Written)
    (h : m ∈ statement.all (Statement.modules gap l).text) :
    l.Known ∧ modulesOf m = l.entries.map Entry.found := by
  obtain ⟨passed, rest, same, found⟩ := found_of_mem_all written.line h
  obtain ⟨more, opens, split⟩ := opens_modules written allBlank_nil List.not_mem_nil (Text.stops_nil _)
  have line : [] ++ ([] ++ (importWord ++ (gap ++ (l.first.module ++ (more ++ []))))) = passed ++ rest := by
    rw [← same, Statement.text, split]
    simp
  cases reaches_of_found opens (by simp) line (List.length_pos_iff.mpr found.ne_nil) found with
  | names _ _ _ isFrom => exact absurd isFrom (by decide)
  | across _ _ _ words => cases words
  | modules l' tail _ _ known' trailing ends same captured =>
    rw [List.append_nil, ← split] at same
    have none : rest = [] := by
      refine ends.resolve_right fun feed => ?_
      have mem : '\n' ∈ l.text := by
        rw [same]
        exact List.mem_append_right _ (List.mem_of_mem_head? feed)
      exact written.line (List.mem_append_right _ (List.mem_append_right _ mem))
    rw [none, List.append_nil] at same
    have inked := written.made.2.inked_of_written
    have parts_eq : l.parts = l'.parts := by
      have mine := parts_listing inked (Text.stops_nil _)
      rw [List.append_nil, same, parts_listing known'.inked trailing.stops, Text.parts_of_blank trailing, parts,
        List.append_nil, List.append_nil] at mine
      exact mine.symm
    have known := known_of_parts_eq written.made.2 known' parts_eq
    refine ⟨known, ?_⟩
    have there : l.entries <+: l'.entries :=
      Listing.entries_prefix known known' trailing (Text.stops_nil _) (not_goesOn_of_blank allBlank_nil)
        (by rw [List.append_nil, same])
    have back : l'.entries <+: l.entries :=
      Listing.entries_prefix known' known allBlank_nil trailing.stops (not_goesOn_of_blank trailing)
        (by rw [List.append_nil, same])
    rw [modulesOf_modules known' captured, there.eq_of_length_le back.length_le]

end Scaffold.Check.Import
