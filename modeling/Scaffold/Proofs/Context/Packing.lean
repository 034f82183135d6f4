import Mathlib.Algebra.GroupWithZero.Nat
import Scaffold.Context
import Scaffold.Proofs.Failing

/-!
# Contexts in their budget

A section is added as it is only where it fits into what is left of the budget, so contexts that are packed
by leaving out what does not fit, or by failing, stay within it.

A section that is cut to fit is given the room that is left, less a fixed allowance for its heading and its
fence.  That the allowance covers a tag of at most six characters is the arithmetic of this module: a section
that does not fit is long enough to fill the room it is cut to, so a context with such a section stays within
its budget exactly if the tag of the fence, which is the extension of the label, is that short.
-/

namespace Scaffold

theorem estimateTokens_le_iff {s : String} {n : Nat} : estimateTokens s ≤ n ↔ s.length ≤ 4 * n := by
  unfold estimateTokens
  omega

namespace Context

/-- The size of a context: that of its sections together. -/
def size (k : Context) : Nat := (k.sections.map estimateTokens).sum

/-- A candidate of whose content the first `n` characters are left. -/
def cutTo (n : Nat) (c : Candidate) : Candidate :=
  { c with content := Text.take n c.content ++ cutMark }

/-- The tag behind the fence of a section: the extension of its label. -/
def tagOf (label : String) : String := Text.drop 1 (Path.ofString label).extension

variable {limit : Nat} {policy : Overflow} {k : Context} {c : Candidate} {p p' : Packing}

/-! ## Sections -/

theorem size_append (k : Context) (text : String) (tokens : Nat) (truncated skipped : List String) :
    size ⟨k.sections ++ [text], tokens, truncated, skipped⟩ = k.size + estimateTokens text := by
  simp [size]

theorem length_sectionOf (c : Candidate) :
    (sectionOf c).length =
      14 + c.label.length + (tagOf c.label).length + (Text.trimRight c.content.toList).length := by
  have parts : sectionOf c = "#### " ++ c.label ++ "\n" ++ (Prompt.fence ++ tagOf c.label) ++ "\n" ++
      String.ofList (Text.trimRight c.content.toList) ++ "\n" ++ Prompt.fence := rfl
  have fence : Prompt.fence.length = 3 := by decide
  have heading : "#### ".length = 5 := by decide
  have feed : "\n".length = 1 := by decide
  rw [parts]
  simp only [String.length_append, String.length_ofList, fence, heading, feed]
  omega

/-- The mark of a cut ends in no blank, so nothing is trimmed from a content that was cut. -/
theorem trimRight_cut (s : List Char) :
    Text.trimRight (s ++ cutMark.toList) = s ++ cutMark.toList := by
  have mark : cutMark.toList = cutMark.toList.dropLast ++ [')'] := by decide
  rw [mark, ← List.append_assoc]
  exact Text.dropBack_concat_of_neg (by decide) _

theorem length_cutTo (n : Nat) (c : Candidate) :
    (sectionOf (cutTo n c)).length =
      30 + c.label.length + (tagOf c.label).length + min n c.content.length := by
  have mark : cutMark.toList.length = 16 := by decide
  have label : (cutTo n c).label = c.label := rfl
  have content : (cutTo n c).content = Text.take n c.content ++ cutMark := rfl
  rw [length_sectionOf, label, content]
  rw [String.toList_append, trimRight_cut, List.length_append, mark, Text.take, String.toList_ofList,
    List.length_take, String.length_toList]
  omega

/-! ## What a step can do -/

/-- What is left of a budget, in characters. -/
def roomIn (limit : Nat) (k : Context) : Nat := (limit - k.tokens) * 4

/-- What a cut section is allowed for all but its content. -/
def allowance (c : Candidate) : Nat := cutMark.length + c.label.length + 20

/-- A candidate is packed: nothing is looked at any more, or it is added whole, cut, or left out. -/
inductive Packs (limit : Nat) (policy : Overflow) (c : Candidate) : Packing → Packing → Prop where
  | closed (k : Context) : Packs limit policy c ⟨k, true⟩ ⟨k, true⟩
  | whole (k : Context) (fits : k.tokens + estimateTokens (sectionOf c) ≤ limit) :
    Packs limit policy c ⟨k, false⟩
      ⟨⟨k.sections ++ [sectionOf c], k.tokens + estimateTokens (sectionOf c), k.truncated, k.skipped⟩, false⟩
  | cut (k : Context) (tooLong : limit < k.tokens + estimateTokens (sectionOf c))
    (cuts : policy = .truncate) (room : allowance c < roomIn limit k) :
    Packs limit policy c ⟨k, false⟩
      ⟨⟨k.sections ++ [sectionOf (cutTo (roomIn limit k - allowance c) c)], limit, k.truncated ++ [c.label],
        k.skipped⟩, true⟩
  | leftOut (k : Context) (full : Bool) (tooLong : limit < k.tokens + estimateTokens (sectionOf c)) :
    Packs limit policy c ⟨k, false⟩ ⟨⟨k.sections, k.tokens, k.truncated, k.skipped ++ [c.label]⟩, full⟩

theorem packs_of_pack (h : pack limit policy p c = .ok p') : Packs limit policy c p p' := by
  obtain ⟨k, full⟩ := p
  unfold pack at h
  dsimp only at h
  split at h
  next closed =>
    cases h
    obtain rfl : full = true := closed
    exact .closed k
  next going =>
    obtain rfl : full = false := by simpa using going
    split at h
    next fits =>
      cases h
      exact .whole k fits
    next tooLong =>
      have tooLong := Nat.lt_of_not_le tooLong
      cases policy with
      | error => cases h
      | skip =>
        cases h
        exact .leftOut k false tooLong
      | truncate =>
        cases h
        unfold packCut
        dsimp only
        split
        next room => exact .cut k tooLong rfl room
        next => exact .leftOut k true tooLong

/-- Only the policy to fail refuses a candidate. -/
theorem pack_fails (h : policy ≠ .error) (e : Failure) : pack limit policy p c ≠ .error e := by
  unfold pack
  dsimp only
  split
  · nofun
  · split
    · nofun
    · cases policy with
      | error => exact absurd rfl h
      | skip => nofun
      | truncate => nofun

/-! ## The budget -/

/-- A section that does not fit is cut to one that fits exactly if its tag is short. -/
theorem estimate_cutTo_le_iff (tooLong : limit < k.tokens + estimateTokens (sectionOf c))
    (room : allowance c < roomIn limit k) :
    estimateTokens (sectionOf (cutTo (roomIn limit k - allowance c) c)) ≤ limit - k.tokens ↔
      (tagOf c.label).length ≤ 6 := by
  have mark : cutMark.length = 16 := by decide
  have left : 0 < limit - k.tokens := by
    unfold roomIn at room
    omega
  have long : roomIn limit k < (sectionOf c).length := by
    have more : ¬estimateTokens (sectionOf c) ≤ limit - k.tokens := by omega
    rw [estimateTokens_le_iff] at more
    unfold roomIn
    omega
  -- trimming makes the content no longer, so the whole content fills the room that it is cut to
  have trimmed : (Text.trimRight c.content.toList).length ≤ c.content.toList.length :=
    Text.length_dropBack_le Text.isBlank _
  rw [String.length_toList] at trimmed
  rw [length_sectionOf] at long
  rw [estimateTokens_le_iff, length_cutTo]
  unfold allowance roomIn at *
  omega

/-- What holds of a context while it is packed. -/
structure Packed (limit : Nat) (p : Packing) : Prop where
  counted : p.context.tokens ≤ limit
  going : p.full = false → p.context.size = p.context.tokens ∧ p.context.truncated = []
  within : p.context.size ≤ limit ↔ ∀ label ∈ p.context.truncated, (tagOf label).length ≤ 6

theorem Packed.start (limit : Nat) : Packed limit {} where
  counted := Nat.zero_le _
  going _ := ⟨rfl, rfl⟩
  within := iff_of_true (Nat.zero_le _) nofun

theorem Packs.packed (h : Packs limit policy c p p') (before : Packed limit p) : Packed limit p' := by
  cases h with
  | closed k => exact before
  | whole k fits =>
    obtain ⟨same, none⟩ := before.going rfl
    have size := size_append k (sectionOf c) (k.tokens + estimateTokens (sectionOf c)) k.truncated k.skipped
    rw [show k.size = k.tokens from same] at size
    refine ⟨fits, fun _ => ⟨size, none⟩, iff_of_true (by rw [size]; exact fits) fun label mem => ?_⟩
    rw [show k.truncated = [] from none] at mem
    cases mem
  | cut k tooLong cuts room =>
    obtain ⟨same, none⟩ := before.going rfl
    have counted : k.tokens ≤ limit := before.counted
    have fits := estimate_cutTo_le_iff tooLong room
    refine ⟨Nat.le_refl _, nofun, ?_⟩
    have only : ∀ label ∈ k.truncated ++ [c.label], label = c.label := by
      rw [show k.truncated = [] from none]
      exact fun label mem => List.mem_singleton.mp mem
    rw [size_append, show k.size = k.tokens from same]
    constructor
    · intro le label mem
      rw [only label mem]
      apply fits.mp
      omega
    · intro short
      have le := fits.mpr (short c.label (List.mem_append_right _ List.mem_cons_self))
      omega
  | leftOut k full tooLong => exact ⟨before.counted, fun _ => before.going rfl, before.within⟩

theorem Packs.truncated (h : Packs limit policy c p p') (other : policy ≠ .truncate)
    (before : p.context.truncated = []) : p'.context.truncated = [] := by
  cases h with
  | cut k tooLong cuts room => exact absurd cuts other
  | closed | whole | leftOut => exact before

variable {spec : ContextSpec} {s : Scene}

/-- What each packed candidate preserves holds of the context in the end. -/
theorem gather_preserves {P : Packing → Prop}
    (step : ∀ {c p p'}, Packs spec.maxTokens.toNat spec.overflow c p p' → P p → P p')
    (h : gather spec s = .ok k) (start : P {}) : ∃ full, P ⟨k, full⟩ := by
  obtain ⟨⟨⟨k', full⟩, seen⟩, run, same⟩ := bind_eq_ok h
  cases same
  refine ⟨full, foldlM_induction (P := fun _ acc => P acc.1) start ?_ run⟩
  intro _ source _ acc acc' _ done before
  unfold packSource at done
  split at done
  next =>
    cases done
    exact before
  next =>
    obtain ⟨⟨found, seen'⟩, offered, done⟩ := bind_eq_ok done
    obtain ⟨p, packed, same⟩ := bind_eq_ok done
    cases same
    exact foldlM_induction (P := fun _ p => P p) before (fun _ _ _ _ _ _ done => step (packs_of_pack done)) packed

/-- Only the policy to fail refuses a context for its size. -/
theorem gather_not_refused (h : spec.overflow ≠ .error) (message : String) :
    gather spec s ≠ .error (.budget message) := by
  have other (name : String) : FailsOnly (fun e => ∀ m, e ≠ .budget m) (filledIn s name) := by
    unfold filledIn
    refine FailsOnly.mapError_iff.mpr fun e _ m => ?_
    cases e <;> nofun
  have unrefused : FailsOnly (fun e => ∀ m, e ≠ .budget m) (gather spec s) := by
    refine FailsOnly.bind (FailsOnly.foldlM fun acc source => ?_) fun acc _ => FailsOnly.ok _
    unfold packSource
    split
    · exact FailsOnly.ok _
    refine FailsOnly.bind ?_ fun found _ =>
      FailsOnly.bind (FailsOnly.foldlM fun p c e failed => absurd failed (pack_fails h e)) fun p _ => FailsOnly.ok _
    cases source with
    | config name => exact FailsOnly.ok _
    | output step =>
      refine FailsOnly.bind ?_ fun text _ => FailsOnly.ok _
      unfold outputText?
      split
      · exact FailsOnly.ok _
      · exact FailsOnly.ok _
      · split
        · exact FailsOnly.error_iff.mpr nofun
        · exact FailsOnly.ok _
    | file pattern =>
      refine (other pattern).bind fun text _ => ?_
      dsimp only
      split <;> exact FailsOnly.ok _
    | files pattern =>
      refine (other pattern).bind fun text _ => FailsOnly.bind ?_ fun found _ => FailsOnly.ok _
      refine FailsOnly.mapError_iff.mpr fun e _ m => ?_
      cases e <;> nofun
  intro refused
  exact unrefused _ refused message rfl

/-- A context that is packed by leaving out what does not fit is never refused for its size, and stays within
its budget; so does one that is packed by failing, where it does not fail.  One that is packed by cutting
stays within it exactly if the section that was cut, if there is one, has a tag of at most six characters. -/
theorem gather_within_iff (spec : ContextSpec) (s : Scene) :
    (spec.overflow ≠ .error → ∀ message, gather spec s ≠ .error (.budget message)) ∧
      ∀ k, gather spec s = .ok k →
        (spec.overflow ≠ .truncate → k.size ≤ spec.maxTokens.toNat) ∧
          (k.size ≤ spec.maxTokens.toNat ↔ ∀ label ∈ k.truncated, (tagOf label).length ≤ 6) := by
  refine ⟨gather_not_refused, fun k gathered => ?_⟩
  obtain ⟨full, packed⟩ := gather_preserves (fun step => step.packed) gathered (Packed.start _)
  refine ⟨fun other => ?_, packed.within⟩
  obtain ⟨full', whole⟩ := gather_preserves (P := fun p => p.context.truncated = [])
    (fun step => step.truncated other) gathered rfl
  apply packed.within.mpr
  rw [show k.truncated = [] from whole]
  nofun

end Context

/-! ## A long tag -/

namespace Handbook

open Context

/-- A project with some notes in it. -/
def scene : Scene where
  tree := ⟨[(["project"], .directory),
    (["project", "notes.markdown"], .file (.text "Order the parts before you build the case for them."))]⟩
  project := ⟨"/", ["project"]⟩

/-- The notes, in a context of twenty tokens. -/
def spec : ContextSpec := { files := ["notes.markdown"], maxTokens := 20 }

/-- The notes as far as they are thought to fit, in twenty-one. -/
def cut : Context where
  sections := ["#### notes.markdown\n```markdown\nOrder the parts before you bui\n... (truncated)\n```"]
  tokens := 20
  truncated := ["notes.markdown"]

theorem gathered : gather spec scene = .ok cut := by decide +kernel

theorem beyond : ¬∀ k, gather spec scene = .ok k → k.size ≤ spec.maxTokens.toNat := by
  intro within
  exact absurd (within cut gathered) (by decide)

/-- The tag of the notes is too long for them to be cut into the budget; they can be left out of it. -/
theorem beyond_or_left_out :
    (∀ message, gather spec scene ≠ .error (.budget message)) ∧
      (gather spec scene = .ok cut ∧ ¬cut.size ≤ 20) ∧
      ∃ k, gather { spec with overflow := .skip } scene = .ok k ∧ k.size ≤ 20 := by
  refine ⟨(gather_within_iff spec scene).1 (by decide), ⟨gathered, fun within => ?_⟩, ?_⟩
  · have short := ((gather_within_iff spec scene).2 cut gathered).2.mp within "notes.markdown" (by decide)
    exact absurd short (by decide)
  · have skipped : gather { spec with overflow := .skip } scene = .ok { skipped := ["notes.markdown"] } := by
      decide +kernel
    exact ⟨_, skipped, ((gather_within_iff _ scene).2 _ skipped).1 (by decide)⟩

end Handbook

end Scaffold
