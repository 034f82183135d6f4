import Mathlib.Data.List.Chain
import Scaffold.Proofs.Check.ImportLines
import Scaffold.Proofs.Path.Names
import Scaffold.Proofs.Template.Placeholders
import Scaffold.Proofs.Text.Parts

/-!
# What is found in a list of modules

A list of modules is read in one way: where a text begins with a list that the pattern knows, every list that the
pattern can find there begins with the same modules, unless another name for the last of them follows.

The list is cut at its commas, and of each part the name in front of another name is found.  That the word `as`
stands between two names is seen by the spaces next to it; where there are other blanks, the whole part is taken
for the name of a module.
-/

namespace Scaffold.Check.Import

open Text (isInk parts Stops)

variable {s t tail rest : List Char} {c : Char} {a : Alias} {e : Entry} {f : Further} {l : Listing}

/-! ## Characters -/

theorem isBlank_of_isDotted (h : isDotted c = true) : Text.isBlank c = false := by
  apply Template.isBlank_eq_false
  unfold isDotted at h
  unfold Template.isNameChar
  rw [h, Bool.true_or]

theorem isDotted_of_isWord (h : Text.isWord c = true) : isDotted c = true := by
  simp [isDotted, h]

theorem isInk_of_isDotted (h : isDotted c = true) : isInk c = true := by
  have other : c ≠ ',' := by
    rintro rfl
    cases (show isDotted ',' = false by decide).symm.trans h
  simp [isInk, isBlank_of_isDotted h, other]

theorem isDotted_of_isInk_eq_false (h : isInk c = false) : isDotted c = false := by
  rw [Bool.eq_false_iff]
  intro dotted
  rw [isInk_of_isDotted dotted] at h
  cases h

theorem stops_dotted (h : Stops isInk s) : Stops isDotted s :=
  fun c hc => isDotted_of_isInk_eq_false (h c hc)

theorem stops_word (h : Stops isDotted s) : Stops Text.isWord s := fun c hc => by
  have := h c hc
  rw [isDotted, Bool.or_eq_false_iff] at this
  exact this.1

/-- A word, whatever it stands for. -/
def IsInked (s : List Char) : Prop := s ≠ [] ∧ ∀ c ∈ s, isInk c = true

instance (s : List Char) : Decidable (IsInked s) :=
  decidable_of_iff (s ≠ [] ∧ s.all isInk = true) (and_congr_right fun _ => List.all_eq_true)

theorem IsDotted.inked (h : IsDotted s) : IsInked s := ⟨h.1, fun c hc => isInk_of_isDotted (h.2 c hc)⟩

theorem IsUndotted.dotted (h : IsUndotted s) : IsDotted s := ⟨h.1, fun c hc => isDotted_of_isWord (h.2 c hc)⟩

theorem AllBlank.stops (h : AllBlank s) : Stops isInk s :=
  fun c hc => Text.isInk_of_isBlank (h c (List.mem_of_mem_head? hc))

theorem IsGap.stops (h : IsGap s) (t : List Char) : Stops isInk (s ++ t) :=
  Text.stops_of_filled h.1 fun c hc => Text.isInk_of_isBlank (h.2 c hc)

theorem IsInked.stops (h : IsInked s) (t : List Char) : Stops Text.isBlank (s ++ t) :=
  Text.stops_of_filled h.1 fun c hc => Text.isBlank_of_isInk (h.2 c hc)

theorem IsInked.parts_append (h : IsInked s) (stops : Stops isInk t) : parts (s ++ t) = s :: parts t :=
  Text.parts_word h.1 h.2 stops

theorem stops_comma (s : List Char) : Stops Text.isBlank (',' :: s) := Text.stops_cons.mpr (by decide)

theorem asWord_inked : IsInked asWord := by decide

/-! ## The parts of a list -/

section

variable {M N M' N' : List Char → Prop}

theorem Alias.Made.mono (h : a.Made N) (hn : ∀ w, N w → N' w) : a.Made N' :=
  ⟨h.before, h.between, hn _ h.name⟩

theorem Entry.Made.mono (h : e.Made M N) (hm : ∀ w, M w → M' w) (hn : ∀ w, N w → N' w) : e.Made M' N' :=
  ⟨hm _ h.module, fun a ha => (h.other a ha).mono hn⟩

theorem Further.Made.mono (h : f.Made M N) (hm : ∀ w, M w → M' w) (hn : ∀ w, N w → N' w) : f.Made M' N' :=
  ⟨h.before, h.behind, h.entry.mono hm hn⟩

theorem Listing.Made.mono (h : l.Made M N) (hm : ∀ w, M w → M' w) (hn : ∀ w, N w → N' w) : l.Made M' N' :=
  ⟨h.first.mono hm hn, fun f hf => (h.others f hf).mono hm hn⟩

end

theorem Listing.Made.of_mem_entries {M N : List Char → Prop} (h : l.Made M N) (he : e ∈ l.entries) : e.Made M N := by
  rcases List.mem_cons.mp he with rfl | he
  · exact h.first
  · obtain ⟨f, hf, rfl⟩ := List.mem_map.mp he
    exact (h.others f hf).entry

abbrev Entry.Inked (e : Entry) : Prop := e.Made IsInked IsInked

abbrev Further.Inked (f : Further) : Prop := f.Made IsInked IsInked

abbrev Listing.Inked (l : Listing) : Prop := l.Made IsInked IsInked

theorem Further.Made.inked (h : f.Known) : f.Inked := h.mono (fun _ => IsDotted.inked) fun _ hn => hn.dotted.inked

theorem Listing.Made.inked (h : l.Known) : l.Inked := h.mono (fun _ => IsDotted.inked) fun _ hn => hn.dotted.inked

def Entry.parts (e : Entry) : List (List Char) := e.module :: (e.alias?.map fun a => [asWord, a.name]).getD []

def Further.parts (f : Further) : List (List Char) := [','] :: f.entry.parts

/-- The words and commas of a list. -/
def Listing.parts (l : Listing) : List (List Char) := l.first.parts ++ l.others.flatMap Further.parts

theorem parts_entry (h : e.Inked) (stops : Stops isInk t) : parts (e.text ++ t) = e.parts ++ parts t := by
  obtain ⟨module, _ | a⟩ := e
  · rw [Entry.text, Option.map_none, Option.getD_none, List.append_nil]
    exact h.module.parts_append stops
  · obtain ⟨before, between, name⟩ := h.other a rfl
    rw [Entry.text, Option.map_some, Option.getD_some, Alias.text]
    simp only [List.append_assoc]
    rw [h.module.parts_append (before.stops _), Text.parts_blanks before.2,
      asWord_inked.parts_append (between.stops _), Text.parts_blanks between.2, name.parts_append stops]
    rfl

theorem Further.Made.stops (h : f.Inked) (t : List Char) : Stops isInk (f.text ++ t) := by
  rw [Further.text, List.append_assoc]
  exact .append (fun c hc => Text.isInk_of_isBlank (h.before c hc)) (Text.stops_cons.mpr (by decide))

theorem stops_others {fs : List Further} (hfs : ∀ f ∈ fs, f.Inked) (stops : Stops isInk t) :
    Stops isInk (fs.flatMap Further.text ++ t) := by
  cases fs with
  | nil => exact stops
  | cons f fs =>
    rw [List.flatMap_cons, List.append_assoc]
    exact (hfs f List.mem_cons_self).stops _

theorem parts_others {fs : List Further} (hfs : ∀ f ∈ fs, f.Inked) (stops : Stops isInk t) :
    parts (fs.flatMap Further.text ++ t) = fs.flatMap Further.parts ++ parts t := by
  induction fs with
  | nil => rfl
  | cons f fs ih =>
    obtain ⟨hf, hfs⟩ := List.forall_mem_cons.mp hfs
    rw [List.flatMap_cons, List.flatMap_cons, Further.text]
    simp only [List.append_assoc, List.cons_append]
    rw [Text.parts_blanks hf.before, Text.parts_comma, Text.parts_blanks hf.behind,
      parts_entry hf.entry (stops_others hfs stops), ih hfs]
    rfl

theorem parts_listing (h : l.Inked) (stops : Stops isInk t) : parts (l.text ++ t) = l.parts ++ parts t := by
  rw [Listing.text, List.append_assoc, parts_entry h.first (stops_others h.others stops),
    parts_others h.others stops, Listing.parts, List.append_assoc]

/-- Of two parts that follow each other in a list, one is a comma or the word `as`. -/
def Parted (p q : List Char) : Prop := p = [','] ∨ q = [','] ∨ p = asWord ∨ q = asWord

theorem isChain_entry (e : Entry) (ps : List (List Char)) (chain : ps.IsChain Parted)
    (comma : ∀ p ∈ ps.head?, p = [',']) : (e.parts ++ ps).IsChain Parted := by
  have ahead (p : List Char) : (p :: ps).IsChain Parted := by
    cases ps with
    | nil => exact .singleton p
    | cons q ps => exact .cons_cons (.inr (.inl (comma q rfl))) chain
  obtain ⟨module, _ | a⟩ := e
  · exact ahead module
  · exact .cons_cons (.inr (.inr (.inr rfl))) (.cons_cons (.inr (.inr (.inl rfl))) (ahead a.name))

theorem isChain_others (fs : List Further) :
    (fs.flatMap Further.parts).IsChain Parted ∧ ∀ p ∈ (fs.flatMap Further.parts).head?, p = [','] := by
  induction fs with
  | nil => exact ⟨.nil, nofun⟩
  | cons f fs ih =>
    have entry := isChain_entry f.entry _ ih.1 ih.2
    rw [List.flatMap_cons, Further.parts, List.cons_append]
    refine ⟨?_, by simp⟩
    cases chars : f.entry.parts ++ fs.flatMap Further.parts with
    | nil => exact .singleton _
    | cons q ps => exact .cons_cons (.inl rfl) (chars ▸ entry)

/-- No two words that follow each other in a list are names. -/
theorem Listing.isChain (l : Listing) : l.parts.IsChain Parted :=
  isChain_entry l.first _ (isChain_others l.others).1 (isChain_others l.others).2

theorem Entry.Made.of_mem_parts {M N : List Char → Prop} {w : List Char} (he : e.Made M N) (mem : w ∈ e.parts) :
    M w ∨ w = asWord ∨ N w := by
  obtain ⟨module, _ | a⟩ := e
  · obtain rfl := List.mem_singleton.mp mem
    exact .inl he.module
  · have apart : w = module ∨ w = asWord ∨ w = a.name := by simpa [Entry.parts] using mem
    rcases apart with rfl | rfl | rfl
    · exact .inl he.module
    · exact .inr (.inl rfl)
    · exact .inr (.inr (he.other a rfl).name)

/-- The words of a list that the pattern knows are what the pattern takes for modules. -/
theorem dotted_of_mem_parts (h : l.Known) {w : List Char} (mem : w ∈ l.parts) : w = [','] ∨ IsDotted w := by
  have entry (e : Entry) (he : e.Known) (mem : w ∈ e.parts) : IsDotted w := by
    rcases he.of_mem_parts mem with dotted | rfl | undotted
    · exact dotted
    · decide
    · exact undotted.dotted
  rcases List.mem_append.mp mem with mem | mem
  · exact .inr (entry _ h.first mem)
  · obtain ⟨f, hf, mem⟩ := List.mem_flatMap.mp mem
    rcases List.mem_cons.mp mem with rfl | mem
    · exact .inl rfl
    · exact .inr (entry _ (h.others f hf).entry mem)

/-! ## One way to read a list -/

/-- Another name for a module follows. -/
def GoesOn (s : List Char) : Prop := ∃ a : Alias, a.Known ∧ a.text <+: s

/-- Where another name follows, the next word is `as`. -/
theorem GoesOn.head?_parts (h : GoesOn s) : (parts s).head? = some asWord := by
  obtain ⟨a, ha, behind, rfl⟩ := h
  simp only [Alias.text, List.append_assoc]
  rw [Text.parts_blanks ha.before.2, asWord_inked.parts_append (ha.between.stops _)]
  rfl

theorem not_goesOn_of_blank (h : AllBlank s) : ¬GoesOn s := fun goes => by
  have first := goes.head?_parts
  rw [Text.parts_of_blank h] at first
  cases first

/-- A module further on is no other name for the one before it. -/
theorem not_goesOn_others {fs : List Further} (hfs : ∀ f ∈ fs, f.Known) (ends : ¬GoesOn rest) :
    ¬GoesOn (fs.flatMap Further.text ++ rest) := by
  cases fs with
  | nil => exact ends
  | cons f fs =>
    rintro ⟨a, ha, more, same⟩
    simp only [Alias.text, Further.text, List.flatMap_cons, List.append_assoc, List.cons_append] at same
    obtain ⟨-, same⟩ := Text.span_unique same ha.before.2 (asWord_inked.stops _)
      (hfs f List.mem_cons_self).before (stops_comma _)
    cases same

theorem Alias.Made.unique {b : Alias} (ha : a.Known) (hb : b.Known) (stops : Stops Text.isWord s)
    (stops' : Stops Text.isWord t) (same : a.text ++ s = b.text ++ t) : a = b ∧ s = t := by
  obtain ⟨before, between, name⟩ := a
  obtain ⟨before', between', name'⟩ := b
  simp only [Alias.text, List.append_assoc] at same
  obtain ⟨rfl, words⟩ := Text.span_unique same ha.before.2 (asWord_inked.stops _) hb.before.2
    (asWord_inked.stops _)
  obtain ⟨rfl, names⟩ := Text.span_unique (List.append_cancel_left words) ha.between.2
    (ha.name.dotted.inked.stops _) hb.between.2 (hb.name.dotted.inked.stops _)
  obtain ⟨rfl, rfl⟩ := Text.span_unique names ha.name.2 stops hb.name.2 stops'
  exact ⟨rfl, rfl⟩

theorem Entry.text_none (module : List Char) : Entry.text ⟨module, none⟩ = module := List.append_nil module

theorem Entry.text_some (module : List Char) (a : Alias) : Entry.text ⟨module, some a⟩ = module ++ a.text := rfl

/-- Where no other name follows, a module is read in one way. -/
theorem Entry.Made.unique {e' : Entry} (he : e.Known) (he' : e'.Known) (stops : Stops isDotted s)
    (stops' : Stops isDotted t) (ends : ¬GoesOn s) (ends' : ¬GoesOn t) (same : e.text ++ s = e'.text ++ t) :
    e = e' ∧ s = t := by
  have behind (a : Alias) (ha : a.Known) (t : List Char) : Stops isDotted (a.text ++ t) := by
    rw [Alias.text, List.append_assoc]
    exact stops_dotted (ha.before.stops _)
  obtain ⟨module, _ | a⟩ := e <;> obtain ⟨module', _ | b⟩ := e'
  · rw [Entry.text_none, Entry.text_none] at same
    obtain ⟨rfl, rfl⟩ := Text.span_unique same he.module.2 stops he'.module.2 stops'
    exact ⟨rfl, rfl⟩
  · rw [Entry.text_none, Entry.text_some, List.append_assoc] at same
    have hb := he'.other b rfl
    obtain ⟨-, rfl⟩ := Text.span_unique same he.module.2 stops he'.module.2 (behind b hb t)
    exact absurd ⟨b, hb, List.prefix_append _ _⟩ ends
  · rw [Entry.text_none, Entry.text_some, List.append_assoc] at same
    have ha := he.other a rfl
    obtain ⟨-, rfl⟩ := Text.span_unique same he.module.2 (behind a ha s) he'.module.2 stops'
    exact absurd ⟨a, ha, List.prefix_append _ _⟩ ends'
  · rw [Entry.text_some, Entry.text_some, List.append_assoc, List.append_assoc] at same
    have ha := he.other a rfl
    have hb := he'.other b rfl
    obtain ⟨rfl, names⟩ := Text.span_unique same he.module.2 (behind a ha s) he'.module.2 (behind b hb t)
    obtain ⟨rfl, rfl⟩ := ha.unique hb (stops_word stops) (stops_word stops') names
    exact ⟨rfl, rfl⟩

/-- A list that is found where a list is written begins with the modules of that.  By induction on the modules
further on; behind the last of them no other name follows. -/
theorem entries_prefix {fs gs : List Further} {e e' : Entry} (he : e.Known) (hfs : ∀ f ∈ fs, f.Known)
    (he' : e'.Known) (hgs : ∀ f ∈ gs, f.Known) (trailing : AllBlank tail) (stops : Stops isInk rest)
    (ends : ¬GoesOn rest)
    (same : e'.text ++ (gs.flatMap Further.text ++ tail) = e.text ++ (fs.flatMap Further.text ++ rest)) :
    e :: fs.map Further.entry <+: e' :: gs.map Further.entry := by
  have inked (fs : List Further) (hfs : ∀ f ∈ fs, f.Known) : ∀ f ∈ fs, f.Inked := fun f hf => (hfs f hf).inked
  induction fs generalizing e e' gs with
  | nil =>
    obtain ⟨rfl, -⟩ := he'.unique he (stops_dotted (stops_others (inked gs hgs) trailing.stops)) (stops_dotted stops)
      (not_goesOn_others hgs (not_goesOn_of_blank trailing)) ends same
    exact List.cons_prefix_cons.mpr ⟨rfl, List.nil_prefix⟩
  | cons f fs ih =>
    obtain ⟨rfl, others⟩ := he'.unique he (stops_dotted (stops_others (inked gs hgs) trailing.stops))
      (stops_dotted (stops_others (inked _ hfs) stops)) (not_goesOn_others hgs (not_goesOn_of_blank trailing))
      (not_goesOn_others hfs ends) same
    obtain ⟨hf, hfs⟩ := List.forall_mem_cons.mp hfs
    cases gs with
    | nil =>
      have mem : ',' ∈ tail := by
        rw [show tail = _ from others]
        simp [Further.text]
      cases (show Text.isBlank ',' = false by decide).symm.trans (trailing _ mem)
    | cons g gs =>
      obtain ⟨hg, hgs⟩ := List.forall_mem_cons.mp hgs
      simp only [List.flatMap_cons, Further.text, List.append_assoc, List.cons_append] at others
      obtain ⟨-, others⟩ := Text.span_unique others hg.before (stops_comma _) hf.before (stops_comma _)
      have word (e : Entry) (he : e.Known) (t : List Char) : Stops Text.isBlank (e.text ++ t) := by
        rw [Entry.text, List.append_assoc]
        exact he.module.inked.stops _
      obtain ⟨-, others⟩ := Text.span_unique (List.cons.inj others).2 hg.behind (word _ hg.entry _) hf.behind
        (word _ hf.entry _)
      exact List.cons_prefix_cons.mpr ⟨rfl, ih hf.entry hfs hg.entry hgs others⟩

theorem Listing.entries_prefix {l l' : Listing} (h : l.Known) (h' : l'.Known) (trailing : AllBlank tail)
    (stops : Stops isInk rest) (ends : ¬GoesOn rest) (same : l'.text ++ tail = l.text ++ rest) :
    l.entries <+: l'.entries := by
  rw [Listing.text, Listing.text, List.append_assoc, List.append_assoc] at same
  exact Import.entries_prefix h.first h.others h'.first h'.others trailing stops ends same

/-! ## The names that are found -/

/-- The word `as` stands between two spaces. -/
def Alias.Spaced (a : Alias) : Prop := a.before.getLast? = some ' ' ∧ a.between.head? = some ' '

instance (a : Alias) : Decidable a.Spaced := inferInstanceAs (Decidable (_ ∧ _))

/-- The name that is found for a module: its own, or all of its text if another name is not seen in it. -/
def Entry.found (e : Entry) : List Char :=
  match e.alias? with
  | none => e.module
  | some a => if a.Spaced then e.module else e.text

theorem Entry.found_none (module : List Char) : Entry.found ⟨module, none⟩ = module := rfl

theorem Entry.found_some (module : List Char) (a : Alias) :
    Entry.found ⟨module, some a⟩ = if a.Spaced then module else module ++ a.text := rfl

/-- The word `as` between two spaces. -/
def spacedAs : List Char := " as ".toList

theorem IsInked.ends (h : IsInked s) :
    (∀ c ∈ s.head?, Text.isBlank c = false) ∧ ∀ c ∈ s.getLast?, Text.isBlank c = false :=
  ⟨fun c hc => Text.isBlank_of_isInk (h.2 c (List.mem_of_mem_head? hc)),
    fun c hc => Text.isBlank_of_isInk (h.2 c (List.mem_of_mem_getLast? hc))⟩

/-- A module with its other name begins and ends with characters of words. -/
theorem ends_entry (he : e.Inked) :
    (∀ c ∈ e.text.head?, Text.isBlank c = false) ∧ ∀ c ∈ e.text.getLast?, Text.isBlank c = false := by
  obtain ⟨module, _ | a⟩ := e
  · rw [Entry.text_none]
    exact he.module.ends
  · have name := (he.other a rfl).name
    have last : (module ++ a.text).getLast? = a.name.getLast? := by
      rw [Alias.text, ← List.append_assoc, ← List.append_assoc, ← List.append_assoc,
        List.getLast?_append_of_ne_nil _ name.1]
    rw [Entry.text_some, last, List.head?_append_of_ne_nil _ he.module.1]
    exact ⟨he.module.ends.1, name.ends.2⟩

/-- Where the word `as` stands between two spaces behind a module, the module is what stands in front of it.  The
parts of the text leave two other places for that word: that of the module, where no space stands in front, and that
of the other name, where none stands behind. -/
theorem spaced_of_cut {module front behind : List Char} (he : Entry.Inked ⟨module, some a⟩)
    (same : module ++ a.text = front ++ (spacedAs ++ behind)) : Text.trimChars front = module ∧ a.Spaced := by
  have ha := he.other a rfl
  have space : Text.isBlank ' ' = true := by decide
  have stops (s : List Char) : Stops isInk (' ' :: s) := Text.stops_cons.mpr (by decide)
  have spaced : spacedAs ++ behind = ' ' :: (asWord ++ ' ' :: behind) := by simp [spacedAs, asWord]
  rw [spaced] at same
  have ends := ends_entry he
  rw [Entry.text_some, same] at ends
  have whole : parts (module ++ a.text) = [module, asWord, a.name] := by
    have := parts_entry he (Text.stops_nil _)
    rwa [Entry.text_some, List.append_nil] at this
  rw [same, Text.parts_append (.inr (stops _)), Text.parts_cons_blank space, asWord_inked.parts_append (stops _),
    Text.parts_cons_blank space] at whole
  rcases shape : parts front with _ | ⟨w, _ | ⟨w', ws⟩⟩
  · -- the word is the module, behind a space
    have blank := Text.parts_eq_nil_iff.mp shape
    exfalso
    cases front with
    | nil => cases ends.1 ' ' rfl
    | cons c front => cases (blank c List.mem_cons_self).symm.trans (ends.1 c rfl)
  · -- the word is that between the names
    rw [shape] at whole
    obtain rfl : w = module := (List.cons.inj whole).1
    obtain ⟨indent, trail, rfl, before, after⟩ := Text.eq_of_parts_eq_singleton shape
    refine ⟨by rw [Text.trimChars_blanks before after,
      Text.trimChars_of_ends he.module.ends.1 he.module.ends.2], ?_⟩
    cases indent with
    | cons c indent => cases (before c List.mem_cons_self).symm.trans (ends.1 c rfl)
    | nil =>
      have behind_module : a.before ++ (asWord ++ (a.between ++ a.name)) =
          (trail ++ [' ']) ++ (asWord ++ ' ' :: behind) := by
        simpa [Alias.text] using same
      have gap : AllBlank (trail ++ [' ']) := List.forall_mem_append.mpr ⟨after, by simp [space]⟩
      obtain ⟨last, words⟩ := Text.span_unique behind_module ha.before.2 (asWord_inked.stops _) gap
        (asWord_inked.stops _)
      have first : a.between.head? = some ' ' := by
        have heads := congrArg List.head? (List.append_cancel_left words)
        rwa [List.head?_append_of_ne_nil _ ha.between.1] at heads
      exact ⟨by rw [last]; simp, first⟩
  · -- the word is the other name, with a space behind it
    rw [shape] at whole
    have none : parts behind = [] := by
      have lengths := congrArg List.length whole
      simp only [List.length_append, List.length_cons, List.length_nil] at lengths
      exact List.length_eq_zero_iff.mp (by omega)
    have blank : ∀ c ∈ ' ' :: behind, Text.isBlank c = true :=
      List.forall_mem_cons.mpr ⟨space, Text.parts_eq_nil_iff.mp none⟩
    have last : (front ++ ' ' :: (asWord ++ ' ' :: behind)).getLast? = some ((' ' :: behind).getLast (by simp)) := by
      rw [← List.getLast?_eq_some_getLast, ← List.cons_append, ← List.append_assoc,
        List.getLast?_append_of_ne_nil _ (List.cons_ne_nil _ _)]
    cases (blank _ (List.getLast_mem _)).symm.trans (ends.2 _ last)

theorem Alias.Spaced.infix_text (h : a.Spaced) (module : List Char) :
    spacedAs <:+: Entry.text ⟨module, some a⟩ := by
  obtain ⟨front, before⟩ := List.getLast?_eq_some_iff.mp h.1
  obtain ⟨behind, between⟩ := List.head?_eq_some_iff.mp h.2
  refine ⟨module ++ front, behind ++ a.name, ?_⟩
  rw [Entry.text_some, Alias.text, before, between]
  simp [spacedAs, asWord]

/-- Of a module that stands between blanks the name is found. -/
theorem plainName_entry (he : e.Inked) {front behind : List Char} (before : AllBlank front)
    (after : AllBlank behind) : plainName (front ++ (e.text ++ behind)) = e.found := by
  have trimmed := Text.trimChars_of_ends (ends_entry he).1 (ends_entry he).2
  rw [plainName, Text.trimChars_blanks before after, trimmed, ← spacedAs]
  cases cut : Text.cutAt? spacedAs e.text with
  | none =>
    rw [Option.map_none, Option.getD_none, trimmed]
    obtain ⟨module, _ | a⟩ := e
    · exact Entry.text_none module
    · rw [Entry.found_some, Entry.text_some]
      refine (if_neg fun spaced => ?_).symm
      have within : spacedAs <:+: Entry.text ⟨module, some a⟩ := spaced.infix_text module
      cases cut ▸ Text.cutAt?_isSome within
  | some pieces =>
    obtain ⟨front, behind⟩ := pieces
    have same := Text.eq_of_cutAt? cut
    rw [List.append_assoc] at same
    rw [Option.map_some, Option.getD_some]
    obtain ⟨module, _ | a⟩ := e
    · have mem : ' ' ∈ module := by
        rw [Entry.text_none] at same
        rw [same]
        simp [spacedAs]
      cases (show isInk ' ' = false by decide).symm.trans (he.module.2 _ mem)
    · obtain ⟨name, spaced⟩ := spaced_of_cut he same
      rw [Entry.found_some, if_pos spaced]
      exact name

theorem comma_not_mem_blank (h : AllBlank s) : ',' ∉ s := fun mem => by
  cases (show Text.isBlank ',' = false by decide).symm.trans (h _ mem)

theorem comma_not_mem_entry (he : e.Inked) : ',' ∉ e.text := by
  have word (w : List Char) (hw : IsInked w) : ',' ∉ w := fun mem => by
    cases (show isInk ',' = false by decide).symm.trans (hw.2 _ mem)
  obtain ⟨module, _ | a⟩ := e
  · rw [Entry.text_none]
    exact word module he.module
  · have ha := he.other a rfl
    simp [Entry.text_some, Alias.text, word _ he.module, comma_not_mem_blank ha.before.2, word _ asWord_inked,
      comma_not_mem_blank ha.between.2, word _ ha.name]

/-- Of every module of a list the name is found.  By induction on the modules further on; with each of them the blanks
in front of its comma go to the part before it. -/
theorem map_plainName_splitAll (hl : l.Inked) :
    (Text.splitAll [','] l.text).map plainName = l.entries.map Entry.found := by
  have free (e : Entry) (he : e.Inked) (front behind : List Char) (before : AllBlank front)
      (after : AllBlank behind) : ',' ∉ front ++ (e.text ++ behind) := by
    simp [comma_not_mem_blank before, comma_not_mem_entry he, comma_not_mem_blank after]
  have from_here (e : Entry) (fs : List Further) (front : List Char) (he : e.Inked) (hfs : ∀ f ∈ fs, f.Inked)
      (before : AllBlank front) :
      (Text.splitAll [','] (front ++ (e.text ++ fs.flatMap Further.text))).map plainName =
        e.found :: fs.map fun f => f.entry.found := by
    induction fs generalizing e front with
    | nil =>
      have none : AllBlank [] := nofun
      rw [List.flatMap_nil, Text.splitAll_of_not_mem (free e he front [] before none), List.map_singleton,
        plainName_entry he before none, List.map_nil]
    | cons f fs ih =>
      obtain ⟨hf, hfs⟩ := List.forall_mem_cons.mp hfs
      have cut : front ++ (e.text ++ (f :: fs).flatMap Further.text) =
          (front ++ (e.text ++ f.before)) ++ ',' :: (f.behind ++ (f.entry.text ++ fs.flatMap Further.text)) := by
        simp [Further.text]
      rw [cut, Text.splitAll_append_cons (free e he front f.before before hf.before), List.map_cons,
        plainName_entry he before hf.before, ih f.entry f.behind hf.entry hfs hf.behind, List.map_cons]
  have all := from_here l.first l.others [] hl.first hl.others nofun
  rw [List.nil_append] at all
  rw [Listing.text, all, Listing.entries, List.map_cons, List.map_map]
  rfl

end Scaffold.Check.Import
