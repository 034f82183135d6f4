import Scaffold.Check.Imports
import Scaffold.Proofs.Pattern.Ends

/-!
# The stretches of import statements

An import statement names what it imports: a module from which names are taken, or a list of modules, each of
which may be given another name.  The stretch that the pattern for such statements finds at the start of a line
is told here by its parts.  It goes over blanks, over line feeds too, to the keyword; of the first form it ends
with the character behind the word `import`, of the second with the blanks behind the list, where a line ends.

The pattern finds a stretch wherever there is one, and it finds nothing else.
-/

namespace Scaffold.Check.Import

open Pattern

/-! ## Lists of modules -/

/-- Another name for a module: blanks, the word `as`, blanks and the name. -/
structure Alias where
  before : List Char
  between : List Char
  name : List Char

/-- A module in a list, with the name it is given, if any. -/
structure Entry where
  module : List Char
  alias? : Option Alias

/-- A module further on in a list, with the blanks around the comma in front of it. -/
structure Further where
  before : List Char
  behind : List Char
  entry : Entry

/-- A list of modules. -/
structure Listing where
  first : Entry
  others : List Further

/-- The word in front of another name. -/
def asWord : List Char := "as".toList

/-- The keyword in front of a list of modules, and in front of the names taken from one. -/
def importWord : List Char := "import".toList

/-- The keyword in front of a module from which names are taken. -/
def fromWord : List Char := "from".toList

def Alias.text (a : Alias) : List Char := a.before ++ (asWord ++ (a.between ++ a.name))

def Entry.text (e : Entry) : List Char := e.module ++ (e.alias?.map Alias.text).getD []

def Further.text (f : Further) : List Char := f.before ++ ',' :: (f.behind ++ f.entry.text)

def Listing.text (l : Listing) : List Char := l.first.text ++ l.others.flatMap Further.text

/-- The modules of a list, with their other names. -/
def Listing.entries (l : Listing) : List Entry := l.first :: l.others.map Further.entry

/-! ## What the pattern knows -/

/-- Nothing but blanks. -/
def AllBlank (s : List Char) : Prop := ∀ c ∈ s, Text.isBlank c = true

theorem allBlank_nil : AllBlank [] := nofun

/-- At least one blank, and nothing else. -/
def IsGap (s : List Char) : Prop := s ≠ [] ∧ AllBlank s

/-- A character that the pattern takes for part of a module. -/
def isDotted (c : Char) : Bool := Text.isWord c || c == '.'

/-- What the pattern takes for a module. -/
def IsDotted (s : List Char) : Prop := s ≠ [] ∧ ∀ c ∈ s, isDotted c = true

/-- What the pattern takes for the other name of a module. -/
def IsUndotted (s : List Char) : Prop := s ≠ [] ∧ ∀ c ∈ s, Text.isWord c = true

section

variable (M N : List Char → Prop)

/-- Another name that is one of `N`, with blanks in front of it and of the word `as`. -/
structure Alias.Made (a : Alias) : Prop where
  before : IsGap a.before
  between : IsGap a.between
  name : N a.name

/-- A module that is one of `M`, and another name that is one of `N`. -/
structure Entry.Made (e : Entry) : Prop where
  module : M e.module
  other : ∀ a, e.alias? = some a → a.Made N

structure Further.Made (f : Further) : Prop where
  before : AllBlank f.before
  behind : AllBlank f.behind
  entry : f.entry.Made M N

structure Listing.Made (l : Listing) : Prop where
  first : l.first.Made M N
  others : ∀ f ∈ l.others, f.Made M N

end

abbrev Alias.Known (a : Alias) : Prop := a.Made IsUndotted

abbrev Entry.Known (e : Entry) : Prop := e.Made IsDotted IsUndotted

abbrev Further.Known (f : Further) : Prop := f.Made IsDotted IsUndotted

abbrev Listing.Known (l : Listing) : Prop := l.Made IsDotted IsUndotted

instance (s : List Char) : Decidable (AllBlank s) :=
  decidable_of_iff (s.all Text.isBlank = true) List.all_eq_true

instance (s : List Char) : Decidable (IsGap s) := inferInstanceAs (Decidable (_ ∧ _))

instance (s : List Char) : Decidable (IsDotted s) :=
  decidable_of_iff (s ≠ [] ∧ s.all isDotted = true) (and_congr_right fun _ => List.all_eq_true)

instance (s : List Char) : Decidable (IsUndotted s) :=
  decidable_of_iff (s ≠ [] ∧ s.all Text.isWord = true) (and_congr_right fun _ => List.all_eq_true)

section

variable {M N : List Char → Prop} [DecidablePred M] [DecidablePred N]

instance (a : Alias) : Decidable (a.Made N) :=
  decidable_of_iff (IsGap a.before ∧ IsGap a.between ∧ N a.name)
    ⟨fun ⟨before, between, name⟩ => ⟨before, between, name⟩, fun h => ⟨h.before, h.between, h.name⟩⟩

instance (e : Entry) : Decidable (e.Made M N) :=
  decidable_of_iff (M e.module ∧ ∀ a ∈ e.alias?, a.Made N)
    ⟨fun ⟨module, other⟩ => ⟨module, other⟩, fun h => ⟨h.module, h.other⟩⟩

instance (f : Further) : Decidable (f.Made M N) :=
  decidable_of_iff (AllBlank f.before ∧ AllBlank f.behind ∧ f.entry.Made M N)
    ⟨fun ⟨before, behind, entry⟩ => ⟨before, behind, entry⟩, fun h => ⟨h.before, h.behind, h.entry⟩⟩

instance (l : Listing) : Decidable (l.Made M N) :=
  decidable_of_iff (l.first.Made M N ∧ ∀ f ∈ l.others, f.Made M N)
    ⟨fun ⟨first, others⟩ => ⟨first, others⟩, fun h => ⟨h.first, h.others⟩⟩

end

/-- The options of the pattern. -/
abbrev options : Options := { multiLine := true }

theorem inSet_blank (c : Char) : inSet options false [.named .blank false] c = Text.isBlank c := by
  simp [inSet, variants, Member.holds, CharClass.holds]

theorem inSet_word (c : Char) : inSet options false [.named .word false] c = Text.isWord c := by
  simp [inSet, variants, Member.holds, CharClass.holds]

theorem inSet_dotted (c : Char) : inSet options false [.named .word false, .code 46] c = isDotted c := by
  have point : (c.toNat == 46) = (c == '.') := by
    rw [Bool.eq_iff_iff, beq_iff_eq, beq_iff_eq, ← Char.toNat_inj]
    rfl
  simp [inSet, variants, Member.holds, CharClass.holds, isDotted, point]

theorem takes_verbatim (text : String) : Takes options (verbatim text) (· = text.toList) :=
  takes_chars rfl text.toList

theorem takes_blanks : Takes options blanks AllBlank := by
  refine (takes_run inSet_blank 0).congr fun w => ?_
  simp [AllBlank]

theorem takes_gap : Takes options gap IsGap := by
  refine (takes_run inSet_blank 1).congr fun w => ?_
  simp [IsGap, AllBlank, Nat.one_le_iff_ne_zero]

theorem takes_word : Takes options (.repeated .most 1 none (.set false [.named .word false])) IsUndotted := by
  refine (takes_run inSet_word 1).congr fun w => ?_
  simp [IsUndotted, Nat.one_le_iff_ne_zero]

theorem takes_dotted : Takes options dotted IsDotted := by
  refine (takes_run inSet_dotted 1).congr fun w => ?_
  simp [IsDotted, Nat.one_le_iff_ne_zero]

theorem takes_alias :
    Takes options (sequence [gap, verbatim "as", gap, .repeated .most 1 none (.set false [.named .word false])])
      fun w => ∃ a : Alias, a.Known ∧ w = a.text := by
  refine (takes_seq takes_gap (takes_seq (takes_verbatim "as") (takes_seq takes_gap takes_word))).congr fun w => ?_
  constructor
  · rintro ⟨before, _, rfl, hb, _, _, rfl, rfl, between, name, rfl, ht, hn⟩
    exact ⟨⟨before, between, name⟩, ⟨hb, ht, hn⟩, rfl⟩
  · rintro ⟨a, known, rfl⟩
    exact ⟨a.before, _, rfl, known.before, _, _, rfl, rfl, a.between, a.name, rfl, known.between, known.name⟩

theorem Alias.text_ne_nil (a : Alias) : a.text ≠ [] := by
  simp [Alias.text, asWord]

theorem takes_aliased : Takes options aliased fun w => ∃ e : Entry, e.Known ∧ w = e.text := by
  have proper : ∀ w, (∃ a : Alias, a.Known ∧ w = a.text) → w ≠ [] := by
    rintro w ⟨a, -, rfl⟩
    exact a.text_ne_nil
  refine (takes_seq takes_dotted (takes_optional takes_alias proper)).congr fun w => ?_
  constructor
  · rintro ⟨module, _, rfl, hm, rfl | ⟨a, known, rfl⟩⟩
    · exact ⟨⟨module, none⟩, ⟨hm, nofun⟩, rfl⟩
    · refine ⟨⟨module, some a⟩, ⟨hm, ?_⟩, rfl⟩
      rintro b ⟨⟩
      exact known
  · rintro ⟨⟨module, _ | a⟩, known, rfl⟩
    · exact ⟨module, [], rfl, known.module, .inl rfl⟩
    · exact ⟨module, a.text, rfl, known.module, .inr ⟨a, known.other a rfl, rfl⟩⟩

theorem takes_further :
    Takes options (sequence [blanks, verbatim ",", blanks, aliased])
      fun w => ∃ f : Further, f.Known ∧ w = f.text := by
  refine (takes_seq takes_blanks (takes_seq (takes_verbatim ",") (takes_seq takes_blanks takes_aliased))).congr
    fun w => ?_
  constructor
  · rintro ⟨before, _, rfl, hb, _, _, rfl, rfl, behind, _, rfl, ha, entry, known, rfl⟩
    exact ⟨⟨before, behind, entry⟩, ⟨hb, ha, known⟩, rfl⟩
  · rintro ⟨f, known, rfl⟩
    exact ⟨f.before, _, rfl, known.before, _, _, rfl, rfl, f.behind, _, rfl, known.behind, f.entry, known.entry,
      rfl⟩

/-- A piece for each module further on. -/
theorem pieces_further (w : List Char) :
    Pieces (fun u => ∃ f : Further, f.Known ∧ u = f.text) (fun _ => True) w ↔
      ∃ fs : List Further, (∀ f ∈ fs, f.Known) ∧ w = fs.flatMap Further.text := by
  constructor
  · rintro ⟨ws, -, all, rfl⟩
    induction ws with
    | nil => exact ⟨[], by simp, rfl⟩
    | cons u ws ih =>
      obtain ⟨⟨f, known, rfl⟩, others⟩ := List.forall_mem_cons.mp all
      obtain ⟨fs, known', same⟩ := ih others
      exact ⟨f :: fs, List.forall_mem_cons.mpr ⟨known, known'⟩, by rw [List.flatten_cons, same]; rfl⟩
  · rintro ⟨fs, known, rfl⟩
    refine ⟨fs.map Further.text, trivial, ?_, List.flatMap_def ..⟩
    intro u hu
    obtain ⟨f, hf, rfl⟩ := List.mem_map.mp hu
    exact ⟨f, known f hf, rfl⟩

theorem takes_listing :
    Takes options (.seq aliased (.repeated .most 0 none (sequence [blanks, verbatim ",", blanks, aliased])))
      fun w => ∃ l : Listing, l.Known ∧ w = l.text := by
  have proper : ∀ w, (∃ f : Further, f.Known ∧ w = f.text) → w ≠ [] := by
    rintro w ⟨f, -, rfl⟩
    simp [Further.text]
  refine (takes_seq takes_aliased (takes_star takes_further proper)).congr fun w => ?_
  constructor
  · rintro ⟨_, v, rfl, ⟨e, known, rfl⟩, more⟩
    obtain ⟨fs, known', rfl⟩ := (pieces_further v).mp more
    exact ⟨⟨e, fs⟩, ⟨known, known'⟩, rfl⟩
  · rintro ⟨l, known, rfl⟩
    exact ⟨_, _, rfl, ⟨l.first, known.first, rfl⟩, (pieces_further _).mpr ⟨l.others, known.others, rfl⟩⟩

/-! ## Stretches -/

/-- The place behind some text, which stands last character first, is the start of a line. -/
def AtLineStart (before : List Char) : Prop := before = [] ∨ before.head? = some '\n'

/-- A line ends in front of the rest of a text. -/
def AtLineEnd (rest : List Char) : Prop := rest = [] ∨ rest.head? = some '\n'

/-- A stretch in front of `rest`, and what is captured in it: the module from which names are taken, or the list
of modules. -/
inductive Found (rest : List Char) : List Char → List (Nat × List Char) → Prop where
  | names {indent before module behind : List Char} {c : Char} (indented : AllBlank indent)
    (apart : IsGap before) (dotted : IsDotted module) (apart' : IsGap behind) (blank : Text.isBlank c = true) :
    Found rest (indent ++ (fromWord ++ (before ++ (module ++ (behind ++ (importWord ++ [c])))))) [(1, module)]
  | modules {indent before tail : List Char} {l : Listing} (indented : AllBlank indent) (apart : IsGap before)
    (known : l.Known) (trailing : AllBlank tail) (ends : AtLineEnd rest) :
    Found rest (indent ++ (importWord ++ (before ++ (l.text ++ tail)))) [(2, l.text)]

/-- A stretch holds a keyword. -/
theorem Found.ne_nil {rest passed : List Char} {captures : List (Nat × List Char)} (h : Found rest passed captures) :
    passed ≠ [] := by
  cases h <;> simp [fromWord, importWord]

variable {a b : Node} {s t m : Spot} {P Q : List Char → Prop} {o : Options}

theorem mem_ends_seq : t ∈ (Node.seq a b).ends o s ↔ ∃ m ∈ a.ends o s, t ∈ b.ends o m := by
  rw [Node.ends, List.mem_flatMap]

/-- A group captures what is passed over in it. -/
theorem mem_ends_group (ha : Takes o a P) {i : Nat} :
    t ∈ (Node.group i a).ends o s ↔ ∃ w, P w ∧ s.after = w ++ t.after ∧ t.before = w.reverse ++ s.before ∧
      t.captures = (i, w) :: s.captures.filter (·.1 != i) := by
  have captured {w : List Char} (m : Spot) (passed : s.Passes w m) :
      (m.capture i s).captures = (i, w) :: s.captures.filter (·.1 != i) := by
    have length : s.after.length - m.after.length = w.length := by
      have := passed.length
      omega
    have text : s.after.take (s.after.length - m.after.length) = w := by
      rw [length, passed.after, List.take_left]
    rw [Spot.capture]
    simp only [text, passed.captures]
  rw [Node.ends, List.mem_map]
  constructor
  · rintro ⟨m, mem, rfl⟩
    obtain ⟨w, hw, passed⟩ := (ha s m).mp mem
    exact ⟨w, hw, passed.after, passed.before, captured m passed⟩
  · rintro ⟨w, hw, after, before, captures⟩
    have passed : s.Passes w { t with captures := s.captures } := ⟨after, before, rfl⟩
    refine ⟨_, (ha s _).mpr ⟨w, hw, passed⟩, ?_⟩
    have same := captured _ passed
    rw [← captures] at same
    exact congrArg (Spot.mk t.before t.after) same

/-- What stands behind the blanks of a line that takes names from a module. -/
def namesNode : Node :=
  sequence [verbatim "from", gap, .group 1 dotted, gap, verbatim "import", blank]

/-- What stands behind the blanks of a line with a list of modules. -/
def modulesNode : Node :=
  sequence [verbatim "import", gap,
    .group 2 (.seq aliased (.repeated .most 0 none (sequence [blanks, verbatim ",", blanks, aliased]))),
    blanks, .anchor .lineEnd]

theorem takes_blank : Takes options blank fun w => ∃ c, w = [c] ∧ Text.isBlank c = true := by
  refine (takes_set false [.named .blank false]).congr fun w => ?_
  simp [inSet_blank]

theorem mem_ends_names (none : s.captures = []) :
    t ∈ namesNode.ends options s ↔ ∃ before module behind c, IsGap before ∧ IsDotted module ∧ IsGap behind ∧
      Text.isBlank c = true ∧
      s.after = (fromWord ++ (before ++ (module ++ (behind ++ (importWord ++ [c]))))) ++ t.after ∧
      t.before = (fromWord ++ (before ++ (module ++ (behind ++ (importWord ++ [c]))))).reverse ++ s.before ∧
      t.captures = [(1, module)] := by
  have front := takes_seq (takes_verbatim "from") takes_gap
  have back := takes_seq takes_gap (takes_seq (takes_verbatim "import") takes_blank)
  constructor
  · intro mem
    obtain ⟨m₁, first, mem⟩ := mem_ends_seq.mp mem
    obtain ⟨m₂, second, mem⟩ := mem_ends_seq.mp mem
    obtain ⟨m₃, third, mem⟩ := mem_ends_seq.mp mem
    obtain ⟨_, ⟨_, before, rfl, rfl, hb⟩, passed⟩ := (front s m₂).mp (mem_ends_seq.mpr ⟨m₁, first, second⟩)
    obtain ⟨module, hm, after, upTo, captures⟩ := (mem_ends_group takes_dotted).mp third
    obtain ⟨_, ⟨behind, _, rfl, ha, _, _, rfl, rfl, c, rfl, hc⟩, passed'⟩ := (back m₃ t).mp mem
    refine ⟨before, module, behind, c, hb, hm, ha, hc, ?_, ?_, ?_⟩
    · rw [passed.after, after, passed'.after]
      simp [fromWord, importWord]
    · rw [passed'.before, upTo, passed.before]
      simp [fromWord, importWord]
    · rw [passed'.captures, captures, passed.captures, none]
      rfl
  · rintro ⟨before, module, behind, c, hb, hm, ha, hc, after, upTo, captures⟩
    let m₂ : Spot := ⟨(fromWord ++ before).reverse ++ s.before,
      module ++ (behind ++ (importWord ++ [c]) ++ t.after), []⟩
    let m₃ : Spot := ⟨module.reverse ++ m₂.before, behind ++ (importWord ++ [c]) ++ t.after, [(1, module)]⟩
    have passed : s.Passes (fromWord ++ before) m₂ := ⟨by rw [after]; simp [m₂], rfl, by rw [none]⟩
    have passed' : m₃.Passes (behind ++ (importWord ++ [c])) t :=
      ⟨rfl, by rw [upTo]; simp [m₃, m₂], captures⟩
    have first := (front s m₂).mpr ⟨_, ⟨_, before, rfl, rfl, hb⟩, passed⟩
    have last := (back m₃ t).mpr ⟨_, ⟨behind, _, rfl, ha, _, _, rfl, rfl, c, rfl, hc⟩, passed'⟩
    have third : m₃ ∈ (Node.group 1 dotted).ends options m₂ :=
      (mem_ends_group takes_dotted).mpr ⟨module, hm, rfl, rfl, rfl⟩
    obtain ⟨m₁, first, second⟩ := mem_ends_seq.mp first
    exact mem_ends_seq.mpr ⟨m₁, first, mem_ends_seq.mpr ⟨m₂, second, mem_ends_seq.mpr ⟨m₃, third, last⟩⟩⟩

theorem mem_ends_anchor {a : Anchor} : t ∈ (Node.anchor a).ends o s ↔ t = s ∧ a.holds o s = true := by
  rw [Node.ends]
  split
  next holds => simp [holds]
  next fails => simp [fails]

theorem holds_lineEnd : Anchor.lineEnd.holds options s = true ↔ AtLineEnd s.after := by
  simp [Anchor.holds, AtLineEnd]

theorem holds_lineStart : Anchor.lineStart.holds options s = true ↔ AtLineStart s.before := by
  simp [Anchor.holds, AtLineStart]

theorem mem_ends_modules (none : s.captures = []) :
    t ∈ modulesNode.ends options s ↔ ∃ before l tail, IsGap before ∧ Listing.Known l ∧ AllBlank tail ∧
      AtLineEnd t.after ∧ s.after = (importWord ++ (before ++ (l.text ++ tail))) ++ t.after ∧
      t.before = (importWord ++ (before ++ (l.text ++ tail))).reverse ++ s.before ∧
      t.captures = [(2, l.text)] := by
  have front := takes_seq (takes_verbatim "import") takes_gap
  constructor
  · intro mem
    obtain ⟨m₁, first, mem⟩ := mem_ends_seq.mp mem
    obtain ⟨m₂, second, mem⟩ := mem_ends_seq.mp mem
    obtain ⟨m₃, third, mem⟩ := mem_ends_seq.mp mem
    obtain ⟨m₄, fourth, mem⟩ := mem_ends_seq.mp mem
    obtain ⟨rfl, ended⟩ := mem_ends_anchor.mp mem
    obtain ⟨_, ⟨_, before, rfl, rfl, hb⟩, passed⟩ := (front s m₂).mp (mem_ends_seq.mpr ⟨m₁, first, second⟩)
    obtain ⟨_, ⟨l, known, rfl⟩, after, upTo, captures⟩ := (mem_ends_group takes_listing).mp third
    obtain ⟨tail, ht, passed'⟩ := (takes_blanks m₃ t).mp fourth
    refine ⟨before, l, tail, hb, known, ht, holds_lineEnd.mp ended, ?_, ?_, ?_⟩
    · rw [passed.after, after, passed'.after]
      simp [importWord]
    · rw [passed'.before, upTo, passed.before]
      simp [importWord]
    · rw [passed'.captures, captures, passed.captures, none]
      rfl
  · rintro ⟨before, l, tail, hb, known, ht, ended, after, upTo, captures⟩
    let m₂ : Spot := ⟨(importWord ++ before).reverse ++ s.before, l.text ++ (tail ++ t.after), []⟩
    let m₃ : Spot := ⟨l.text.reverse ++ m₂.before, tail ++ t.after, [(2, l.text)]⟩
    have passed : s.Passes (importWord ++ before) m₂ := ⟨by rw [after]; simp [m₂], rfl, by rw [none]⟩
    have passed' : m₃.Passes tail t := ⟨rfl, by rw [upTo]; simp [m₃, m₂], captures⟩
    have first := (front s m₂).mpr ⟨_, ⟨_, before, rfl, rfl, hb⟩, passed⟩
    have third := (mem_ends_group (i := 2) (s := m₂) (t := m₃) takes_listing).mpr
      ⟨l.text, ⟨l, known, rfl⟩, rfl, rfl, rfl⟩
    have fourth := (takes_blanks m₃ t).mpr ⟨tail, ht, passed'⟩
    have last := mem_ends_anchor.mpr ⟨rfl, holds_lineEnd.mpr ended⟩
    obtain ⟨m₁, first, second⟩ := mem_ends_seq.mp first
    exact mem_ends_seq.mpr ⟨m₁, first, mem_ends_seq.mpr ⟨m₂, second, mem_ends_seq.mpr ⟨m₃, third,
      mem_ends_seq.mpr ⟨t, fourth, last⟩⟩⟩⟩

/-- The pattern ends where a stretch from the start of a line ends. -/
theorem mem_ends_statement {before after : List Char} :
    t ∈ statement.node.ends options ⟨before, after, []⟩ ↔ AtLineStart before ∧ ∃ passed,
      after = passed ++ t.after ∧ t.before = passed.reverse ++ before ∧ Found t.after passed t.captures := by
  have node : statement.node = .seq (.anchor .lineStart) (.seq blanks (.either namesNode modulesNode)) := rfl
  rw [node, mem_ends_seq]
  constructor
  · rintro ⟨m, first, mem⟩
    obtain ⟨rfl, start⟩ := mem_ends_anchor.mp first
    obtain ⟨m, second, mem⟩ := mem_ends_seq.mp mem
    obtain ⟨indent, blank, passed⟩ := (takes_blanks _ m).mp second
    refine ⟨holds_lineStart.mp start, ?_⟩
    have whole : after = indent ++ m.after := passed.after
    rw [Node.ends, List.mem_append] at mem
    rcases mem with mem | mem
    · obtain ⟨gap, module, gap', c, hg, hm, hg', hc, after', upTo, captures⟩ :=
        (mem_ends_names passed.captures).mp mem
      rw [captures]
      refine ⟨_, ?_, ?_, .names blank hg hm hg' hc⟩
      · rw [whole, after', List.append_assoc indent]
      · rw [upTo, passed.before]
        simp
    · obtain ⟨gap, l, tail, hg, known, ht, ended, after', upTo, captures⟩ :=
        (mem_ends_modules passed.captures).mp mem
      rw [captures]
      refine ⟨_, ?_, ?_, .modules blank hg known ht ended⟩
      · rw [whole, after', List.append_assoc indent]
      · rw [upTo, passed.before]
        simp
  · rintro ⟨start, passed, whole, upTo, found⟩
    refine ⟨_, mem_ends_anchor.mpr ⟨rfl, holds_lineStart.mpr start⟩, ?_⟩
    obtain ⟨before', after', captures⟩ := t
    dsimp only at whole upTo found
    cases found with
    | @names indent gap module gap' c blank hg hm hg' hc =>
      have first : Spot.Passes ⟨before, after, []⟩ indent
          ⟨indent.reverse ++ before,
            (fromWord ++ (gap ++ (module ++ (gap' ++ (importWord ++ [c]))))) ++ after', []⟩ :=
        ⟨by rw [whole, List.append_assoc], rfl, rfl⟩
      refine mem_ends_seq.mpr ⟨_, (takes_blanks _ _).mpr ⟨indent, blank, first⟩, ?_⟩
      rw [Node.ends, List.mem_append]
      refine .inl ((mem_ends_names rfl).mpr ⟨gap, module, gap', c, hg, hm, hg', hc, rfl, ?_, rfl⟩)
      rw [upTo, List.reverse_append, List.append_assoc]
    | @modules indent gap tail l blank hg known ht ended =>
      have first : Spot.Passes ⟨before, after, []⟩ indent
          ⟨indent.reverse ++ before, (importWord ++ (gap ++ (l.text ++ tail))) ++ after', []⟩ :=
        ⟨by rw [whole, List.append_assoc], rfl, rfl⟩
      refine mem_ends_seq.mpr ⟨_, (takes_blanks _ _).mpr ⟨indent, blank, first⟩, ?_⟩
      rw [Node.ends, List.mem_append]
      refine .inr ((mem_ends_modules rfl).mpr ⟨gap, l, tail, hg, known, ht, ended, rfl, ?_, rfl⟩)
      rw [upTo, List.reverse_append, List.append_assoc]

/-- What the pattern matches is a stretch from the start of a line. -/
theorem found_of_matchAt? {before after : List Char} {m : Match} (h : statement.matchAt? before after = some m) :
    AtLineStart before ∧ ∃ passed rest, after = passed ++ rest ∧ Found rest passed m.captures ∧
      m.start = before.length ∧ m.stop = before.length + passed.length := by
  obtain ⟨t, run, rfl⟩ := Option.map_eq_some_iff.mp h
  obtain ⟨t', mem, same⟩ := Node.exists_end run
  cases same
  obtain ⟨start, passed, whole, upTo, found⟩ := mem_ends_statement.mp mem
  refine ⟨start, passed, t.after, whole, found, rfl, ?_⟩
  rw [Spot.offset, upTo, List.length_append, List.length_reverse, Nat.add_comm]

/-- Where there is a stretch at the start of a line, the pattern matches. -/
theorem matchAt?_isSome {before passed rest : List Char} {captures : List (Nat × List Char)}
    (start : AtLineStart before) (found : Found rest passed captures) :
    (statement.matchAt? before (passed ++ rest)).isSome = true := by
  rw [Compiled.matchAt?, Option.isSome_map]
  exact Node.run_isSome (m := ⟨passed.reverse ++ before, rest, captures⟩)
    (mem_ends_statement.mpr ⟨start, passed, rfl, rfl, found⟩) rfl

end Scaffold.Check.Import
