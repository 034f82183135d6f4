import Scaffold.Pattern.Search

/-!
# The stretch of a match

However a pattern goes back and forth in a text, what it accepts lies ahead: the spot that it hands to
its continuation is reached from the spot where it began by passing over characters of the text.  This
holds of every node, by induction on the node; conditions look around and pass nothing over.  So the
stretch of a match begins before it ends, and it ends within the text.
-/

namespace Scaffold.Pattern

/-! ## Spots further on -/

namespace Spot

/-- From `s` to `t` some characters are passed over, or none. -/
def Reaches (s t : Spot) : Prop :=
  ∃ passed, s.after = passed ++ t.after ∧ t.before = passed.reverse ++ s.before

variable {s t u : Spot}

/-- Captures have no part in this. -/
theorem reaches_of_eq (before : t.before = s.before) (after : t.after = s.after) : s.Reaches t :=
  ⟨[], by simp [after], by simp [before]⟩

theorem reaches_refl (s : Spot) : s.Reaches s := reaches_of_eq rfl rfl

theorem Reaches.trans (h : s.Reaches t) (h' : t.Reaches u) : s.Reaches u := by
  obtain ⟨passed, after, before⟩ := h
  obtain ⟨more, after', before'⟩ := h'
  refine ⟨passed ++ more, ?_, ?_⟩
  · rw [after, after', List.append_assoc]
  · rw [before', before, List.reverse_append, List.append_assoc]

theorem reaches_of_next? {c : Char} (h : s.next? = some (c, t)) : s.Reaches t := by
  obtain ⟨before, after, captures⟩ := s
  cases after with
  | nil => cases h
  | cons d rest =>
    cases h
    exact ⟨[c], rfl, rfl⟩

/-- What is passed over is part of the text behind the first spot. -/
theorem Reaches.offset (h : s.Reaches t) :
    s.offset ≤ t.offset ∧ t.offset ≤ s.offset + s.after.length := by
  obtain ⟨passed, after, before⟩ := h
  simp only [Spot.offset, before, after, List.length_append, List.length_reverse]
  omega

end Spot

theorem reaches_of_passText {o : Options} {text : List Char} {s t : Spot}
    (h : passText o text s = some t) : s.Reaches t := by
  induction text generalizing s with
  | nil =>
    cases h
    exact Spot.reaches_refl _
  | cons c text ih =>
    rw [passText] at h
    split at h
    next d s' next =>
      split at h
      · exact (Spot.reaches_of_next? next).trans (ih h)
      · cases h
    next => cases h

/-! ## Nodes -/

/-- Whatever comes of a run came of its continuation, at a spot further on. -/
def GoesOn (run : Next → Next) : Prop :=
  ∀ (k : Next) s t, run k s = some t → ∃ s', s.Reaches s' ∧ k s' = some t

section Rounds

variable {run : Next → Next} (h : GoesOn run) (low : Nat) (high : Option Nat)

include h

theorem most_goesOn (fuel count : Nat) : GoesOn fun k => most run low high k fuel count := by
  intro k s t same
  dsimp only at same
  induction fuel generalizing count s with
  | zero => exact ⟨s, s.reaches_refl, same⟩
  | succ fuel ih =>
    rw [most] at same
    split at same
    · obtain ⟨s', first, behind⟩ := h _ _ _ same
      obtain ⟨s'', rest, accepted⟩ := ih _ _ behind
      exact ⟨s'', first.trans rest, accepted⟩
    split at same
    · exact ⟨s, s.reaches_refl, same⟩
    -- another round is tried first, and the end of the rounds if it leads nowhere
    rcases Option.or_eq_some_iff.mp same with again | ⟨-, ended⟩
    · obtain ⟨s', first, behind⟩ := h _ _ _ again
      split at behind
      · exact ⟨s', first, behind⟩
      · obtain ⟨s'', rest, accepted⟩ := ih _ _ behind
        exact ⟨s'', first.trans rest, accepted⟩
    · exact ⟨s, s.reaches_refl, ended⟩

theorem fewest_goesOn (fuel count : Nat) : GoesOn fun k => fewest run low high k fuel count := by
  intro k s t same
  dsimp only at same
  induction fuel generalizing count s with
  | zero => exact ⟨s, s.reaches_refl, same⟩
  | succ fuel ih =>
    rw [fewest] at same
    split at same
    · obtain ⟨s', first, behind⟩ := h _ _ _ same
      obtain ⟨s'', rest, accepted⟩ := ih _ _ behind
      exact ⟨s'', first.trans rest, accepted⟩
    rcases Option.or_eq_some_iff.mp same with ended | ⟨-, again⟩
    · exact ⟨s, s.reaches_refl, ended⟩
    split at again
    · cases again
    · obtain ⟨s', first, behind⟩ := h _ _ _ again
      split at behind
      · cases behind
      · obtain ⟨s'', rest, accepted⟩ := ih _ _ behind
        exact ⟨s'', first.trans rest, accepted⟩

end Rounds

/-- A run on its own ends at a spot further on. -/
theorem GoesOn.reaches {run : Next → Next} (h : GoesOn run) {s t : Spot} (same : run some s = some t) :
    s.Reaches t := by
  obtain ⟨s', reached, accepted⟩ := h _ _ _ same
  cases accepted
  exact reached

theorem Node.run_goesOn (n : Node) (o : Options) : GoesOn (n.run o) := by
  induction n generalizing o with
  | empty => exact fun k s t same => ⟨s, s.reaches_refl, same⟩
  | any =>
    intro k s t same
    rw [Node.run] at same
    split at same
    next c s' next =>
      split at same
      · exact ⟨s', Spot.reaches_of_next? next, same⟩
      · cases same
    next => cases same
  | set negated members =>
    intro k s t same
    rw [Node.run] at same
    split at same
    next c s' next =>
      split at same
      · exact ⟨s', Spot.reaches_of_next? next, same⟩
      · cases same
    next => cases same
  | anchor a =>
    intro k s t same
    rw [Node.run] at same
    split at same
    · exact ⟨s, s.reaches_refl, same⟩
    · cases same
  | seq a b iha ihb =>
    intro k s t same
    rw [Node.run] at same
    obtain ⟨s', first, behind⟩ := iha o _ _ _ same
    obtain ⟨s'', rest, accepted⟩ := ihb o _ _ _ behind
    exact ⟨s'', first.trans rest, accepted⟩
  | either a b iha ihb =>
    intro k s t same
    rw [Node.run] at same
    rcases Option.or_eq_some_iff.mp same with left | ⟨-, right⟩
    · exact iha o _ _ _ left
    · exact ihb o _ _ _ right
  | repeated greed low high body ih =>
    intro k s t same
    cases greed with
    | most =>
      rw [Node.run] at same
      exact most_goesOn (ih o) low high _ _ _ _ _ same
    | fewest =>
      rw [Node.run] at same
      exact fewest_goesOn (ih o) low high _ _ _ _ _ same
    | possessive =>
      rw [Node.run] at same
      obtain ⟨s', rounds, accepted⟩ := Option.bind_eq_some_iff.mp same
      exact ⟨s', (most_goesOn (ih o) low high _ _).reaches rounds, accepted⟩
  | group i body ih =>
    intro k s t same
    rw [Node.run] at same
    obtain ⟨s', reached, accepted⟩ := ih o _ _ _ same
    exact ⟨s'.capture i s, reached.trans (Spot.reaches_of_eq rfl rfl), accepted⟩
  | «scoped» change body ih =>
    intro k s t same
    rw [Node.run] at same
    exact ih _ _ _ _ same
  | atomic body ih =>
    intro k s t same
    rw [Node.run] at same
    obtain ⟨s', passed, accepted⟩ := Option.bind_eq_some_iff.mp same
    exact ⟨s', (ih o).reaches passed, accepted⟩
  | reference i =>
    intro k s t same
    rw [Node.run] at same
    split at same
    next text _ =>
      obtain ⟨s', passed, accepted⟩ := Option.bind_eq_some_iff.mp same
      exact ⟨s', reaches_of_passText passed, accepted⟩
    next => cases same
  | ifGroup i yes no ihy ihn =>
    intro k s t same
    rw [Node.run] at same
    split at same
    · exact ihy o _ _ _ same
    · exact ihn o _ _ _ same
  | lookAhead negated body ih =>
    intro k s t same
    rw [Node.run] at same
    split at same
    next s' _ =>
      split at same
      · cases same
      · exact ⟨{ s with captures := s'.captures }, Spot.reaches_of_eq rfl rfl, same⟩
    next =>
      split at same
      · exact ⟨s, s.reaches_refl, same⟩
      · cases same
  | lookBehind negated width body ih =>
    intro k s t same
    rw [Node.run] at same
    split at same
    next s' _ =>
      split at same
      · cases same
      · exact ⟨{ s with captures := s'.captures }, Spot.reaches_of_eq rfl rfl, same⟩
    next =>
      split at same
      · exact ⟨s, s.reaches_refl, same⟩
      · cases same

/-! ## Searches -/

namespace Compiled

variable {p : Compiled} {before after text : List Char} {m : Match}

theorem matchAt?_within (h : p.matchAt? before after = some m) :
    m.start = before.length ∧ m.start ≤ m.stop ∧ m.stop ≤ before.length + after.length := by
  obtain ⟨s, ran, rfl⟩ := Option.map_eq_some_iff.mp h
  exact ⟨rfl, ((p.node.run_goesOn p.options).reaches ran).offset⟩

theorem searchFrom?_within (h : p.searchFrom? before after = some m) :
    m.start ≤ m.stop ∧ m.stop ≤ before.length + after.length := by
  induction after generalizing before with
  | nil => exact (matchAt?_within h).2
  | cons c after ih =>
    rw [searchFrom?] at h
    rcases Option.or_eq_some_iff.mp h with here | ⟨-, further⟩
    · exact (matchAt?_within here).2
    · have within := ih further
      simp only [List.length_cons] at within ⊢
      omega

/-- A match is a stretch of the text that is searched. -/
theorem search?_within (h : p.search? text = some m) : m.start ≤ m.stop ∧ m.stop ≤ text.length := by
  have within := searchFrom?_within h
  rwa [List.length_nil, Nat.zero_add] at within

end Compiled

end Scaffold.Pattern
