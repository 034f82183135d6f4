import Scaffold.Proofs.Json.Reading
import Scaffold.Proofs.Text.Lines

/-!
# Line breaks in JSON

A file is read with every line break made a line feed.  Line breaks stand between tokens, and white
space is white space afterwards.  No text in quotes holds one as it is.  So a mapping is read for the
same members, whatever the kinds of its line breaks are.
-/

namespace Scaffold

namespace Json

open Text

theorem gap_unifyBreaks {g : List Char} (h : Gap g) : Gap (unifyBreaks g) := by
  induction g using unifyBreaks.induct with
  | case1 => exact h
  | case2 s ih =>
    obtain ⟨-, rest⟩ := List.forall_mem_cons.mp (List.forall_mem_cons.mp h).2
    rw [unifyBreaks]
    exact List.forall_mem_cons.mpr ⟨rfl, ih rest⟩
  | case3 d s alone ih =>
    obtain ⟨blank, rest⟩ := List.forall_mem_cons.mp h
    have apart : d = '\r' → s.head? ≠ some '\n' := by
      rintro rfl first
      obtain ⟨_, rfl⟩ := List.head?_eq_some_iff.mp first
      exact alone _ rfl rfl
    rw [unifyBreaks_cons apart]
    refine List.forall_mem_cons.mpr ⟨?_, ih rest⟩
    split
    · rfl
    · exact blank

variable {w : List Char} {s : String}

theorem Spells.no_return {w s : List Char} (h : Spells w s) : '\r' ∉ w := by
  have digit {a b c d : Char} {n : Nat} (h : unit? a b c d = some n) :
      '\r' ≠ a ∧ '\r' ≠ b ∧ '\r' ≠ c ∧ '\r' ≠ d := by
    simp only [unit?, Option.bind_eq_bind, Option.bind_eq_some_iff] at h
    obtain ⟨_, ha, _, hb, _, hc, _, hd, -⟩ := h
    refine ⟨?_, ?_, ?_, ?_⟩ <;> rintro rfl
    · cases ha
    · cases hb
    · cases hc
    · cases hd
  induction h with
  | nil => simp
  | plain printable _ _ _ ih =>
    refine not_or.mpr ⟨?_, ih⟩ ∘ List.mem_cons.mp
    rintro rfl
    exact absurd printable (by decide)
  | @short c x w s found _ ih =>
    have other : '\r' ≠ c := by
      rintro rfl
      cases found
    simp [other, ih]
  | unit found _ _ ih =>
    obtain ⟨ha, hb, hc, hd⟩ := digit found
    simp [ha, hb, hc, hd, ih]
  | pair high low _ _ _ _ _ ih =>
    obtain ⟨ha, hb, hc, hd⟩ := digit high
    obtain ⟨ha', hb', hc', hd'⟩ := digit low
    simp [ha, hb, hc, hd, ha', hb', hc', hd', ih]

theorem QuotedText.no_return (h : QuotedText w s) : '\r' ∉ w := by
  cases h with
  | mk spelt => simp [spelt.no_return]

/-- A text is still one of those it was of when its line breaks have become line feeds, and what is
around it keeps its breaks to itself. -/
def SurvivesBreaks (P : List Char → Prop) (w : List Char) : Prop :=
  ∃ w', P w' ∧ ∀ g r, unifyBreaks (g ++ (w ++ r)) = unifyBreaks g ++ (w' ++ unifyBreaks r)

section Survival

variable {α : Type} {V V' : List Char → α → Prop} {P Q : List Char → Prop}

theorem SurvivesBreaks.mono (imp : ∀ w, P w → Q w) (h : SurvivesBreaks P w) : SurvivesBreaks Q w := by
  obtain ⟨w', holds, around⟩ := h
  exact ⟨w', imp w' holds, around⟩

/-- A text with no carriage returns survives if it does not begin with a line feed. -/
theorem survives_of_clean (h : P w) (clean : '\r' ∉ w) (starts : ∃ c r, w = c :: r ∧ c ≠ '\n') :
    SurvivesBreaks P w := by
  refine ⟨w, h, fun g r => ?_⟩
  obtain ⟨c, w, rfl, feed⟩ := starts
  obtain ⟨other, rest⟩ := not_or.mp (mt List.mem_cons.mpr clean)
  rw [List.cons_append, unifyBreaks_append feed (Ne.symm other), unifyBreaks_append_left rest,
    List.cons_append]

theorem QuotedText.survives (h : QuotedText w s) : SurvivesBreaks (QuotedText · s) w :=
  survives_of_clean h h.no_return (by cases h with | mk _ => exact ⟨'"', _, rfl, by decide⟩)

variable (hV : ∀ w a, V w a → SurvivesBreaks (V' · a) w)
include hV

theorem MemberText.survives {e : String × α} (h : MemberText V w e) :
    SurvivesBreaks (MemberText V' · e) w := by
  cases h with
  | @mk k g g' w name a named gap gap' value =>
    obtain ⟨k', named', aroundName⟩ := named.survives
    obtain ⟨w', value', aroundValue⟩ := hV w a value
    refine ⟨_, .mk named' (gap_unifyBreaks gap) (gap_unifyBreaks gap') value', fun g₀ r => ?_⟩
    simp only [List.append_assoc, List.cons_append]
    rw [aroundName, unifyBreaks_append (by decide) (by decide), aroundValue]

theorem MembersText.survives {es : List (String × α)} (h : MembersText V w es) :
    SurvivesBreaks (MembersText V' · es) w := by
  induction h with
  | @last w g e member gap =>
    obtain ⟨w', member', around⟩ := member.survives hV
    refine ⟨_, .last member' (gap_unifyBreaks gap), fun g₀ r => ?_⟩
    simp only [List.append_assoc, List.singleton_append]
    rw [around, unifyBreaks_append (by decide) (by decide)]
  | @more w g g' w' e es member gap gap' more ih =>
    obtain ⟨u, member', around⟩ := member.survives hV
    obtain ⟨u', more', around'⟩ := ih
    refine ⟨_, .more member' (gap_unifyBreaks gap) (gap_unifyBreaks gap') more', fun g₀ r => ?_⟩
    simp only [List.append_assoc, List.cons_append]
    rw [around, unifyBreaks_append (by decide) (by decide), around']

theorem MappingText.survives {es : List (String × α)} (h : MappingText V w es) :
    SurvivesBreaks (MappingText V' · es) w := by
  cases h with
  | @empty g gap =>
    refine ⟨_, .empty (gap_unifyBreaks gap), fun g₀ r => ?_⟩
    simp only [List.append_assoc, List.cons_append, List.nil_append]
    rw [unifyBreaks_append (by decide) (by decide), unifyBreaks_append (by decide) (by decide)]
  | @filled g w es gap members =>
    obtain ⟨w', members', around⟩ := members.survives hV
    refine ⟨_, .filled (gap_unifyBreaks gap) members', fun g₀ r => ?_⟩
    simp only [List.append_assoc, List.cons_append]
    rw [unifyBreaks_append (by decide) (by decide), around]

end Survival

/-- A text is read for a value, also when its line breaks have become line feeds. -/
def Stands (w : List Char) (v : Value) : Prop := SurvivesBreaks (Reads · v) w

theorem QuotedText.stands (h : QuotedText w s) : Stands w (.str s) :=
  h.survives.mono fun _ => QuotedText.reads

/-- A whole text is read for the mapping that stands in it alone, whatever its line breaks are. -/
theorem read_withLineFeeds {g g' : List Char} {es : Record Value} {text : String}
    (chars : text.toList = g ++ (w ++ g')) (gap : Gap g) (gap' : Gap g')
    (h : MappingText Stands w es) (distinct : es.keys.Nodup) :
    read (withLineFeeds text) = .ok (.dict (Entries.ofRecord es)) := by
  obtain ⟨w', mapping, around⟩ := h.survives fun _ _ survives => survives
  have reads := mapping.reads
  rw [Record.ofList_of_nodup distinct] at reads
  rw [read, withLineFeeds, String.toList_ofList, chars, around,
    reads.readAll (gap_unifyBreaks gap) (gap_unifyBreaks gap')]
  rfl

end Json

end Scaffold
