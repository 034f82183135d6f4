import Scaffold.Proofs.Failing
import Scaffold.Yaml.Document

/-!
# Where the reading of a document fails

What reads characters, tokens and nodes refuses a document for its form.  Otherwise it fails in one place
only: an escape by a code that no character has.
-/

namespace Scaffold

namespace Yaml

/-- A fault of the form of a document. -/
def Fault.IsOfForm : Fault → Prop
  | .malformed _ => True
  | _ => False

/-- A fault of an escape, whose code is that of no character. -/
def Fault.IsOfCode (f : Fault) : Prop :=
  f = .tooLarge "Python int too large to convert to C int" ∨ f = .badValue "chr() arg not in range(0x110000)"

/-- A fault of reading a document. -/
def Fault.IsOfReading (f : Fault) : Prop := f.IsOfForm ∨ f.IsOfCode

/-- From a state with an invariant a reader fails in some ways only, and keeps the invariant. -/
class Obeys {σ α : Type} (inv : σ → Prop) (p : Fault → Prop) (r : StateT σ (Except Fault) α) : Prop where
  from_state : ∀ s, inv s → FailsOnly p (r.run s) ∧ ∀ a t, r.run s = .ok (a, t) → inv t

namespace Obeys

variable {σ α β : Type} {inv : σ → Prop} {p : Fault → Prop} {x y : StateT σ (Except Fault) α}

instance pure (a : α) : Obeys inv p (pure a) where
  from_state _ h := ⟨.ok _, fun _ _ same => by cases same; exact h⟩

theorem throw {f : Fault} (h : p f) : Obeys inv p (throw f : StateT σ (Except Fault) α) where
  from_state _ _ := ⟨FailsOnly.error_iff.mpr h, fun _ _ same => nomatch same⟩

instance get : Obeys inv p (get : StateT σ (Except Fault) σ) where
  from_state _ h := ⟨.ok _, fun _ _ same => by cases same; exact h⟩

theorem modify {f : σ → σ} (h : ∀ s, inv s → inv (f s)) :
    Obeys inv p (modify f : StateT σ (Except Fault) PUnit) where
  from_state s there := ⟨.ok _, fun _ _ same => by cases same; exact h s there⟩

theorem bind {f : α → StateT σ (Except Fault) β} (hx : Obeys inv p x) (hf : ∀ a, Obeys inv p (f a)) :
    Obeys inv p (x >>= f) where
  from_state s h := by
    obtain ⟨fails, keeps⟩ := hx.from_state s h
    rw [StateT.run_bind]
    cases ran : x.run s with
    | error e =>
      rw [ran] at fails
      exact ⟨FailsOnly.error_iff.mpr (FailsOnly.error_iff.mp fails), fun _ _ same => nomatch same⟩
    | ok r => exact (hf r.1).from_state r.2 (keeps r.1 r.2 ran)

instance {f : α → StateT σ (Except Fault) β} [hx : Obeys inv p x] [hf : ∀ a, Obeys inv p (f a)] :
    Obeys inv p (x >>= f) := hx.bind hf

theorem branch {c : Prop} [Decidable c] (hx : Obeys inv p x) (hy : Obeys inv p y) :
    Obeys inv p (if c then x else y) := by
  split
  · exact hx
  · exact hy

instance {c : Prop} [Decidable c] [hx : Obeys inv p x] [hy : Obeys inv p y] :
    Obeys inv p (if c then x else y) := branch hx hy

end Obeys

/-! ## Characters -/

/-- A reader that fails only as reading may. -/
abbrev Sane {σ α : Type} (r : StateT σ (Except Fault) α) : Prop := Obeys (fun _ => True) Fault.IsOfReading r

instance {α : Type} (what : String) : Sane (refuse what : Reads α) := .throw (.inl trivial)

instance (n : Nat) : Sane (advance n) := .modify fun _ => id

/-- Readers are put together of others by binding and by cases. -/
instance : Sane peek := Obeys.get.bind fun _ => .pure _

instance (q : Char → Bool) : Sane (takeWhile q) :=
  Obeys.get.bind fun _ => .bind inferInstance fun _ => .pure _

instance : Sane lineBreak := by
  simp only [lineBreak]
  repeat' first | infer_instance | split | refine .bind ?_ fun _ => ?_

instance : Sane restOfLine := by
  simp only [restOfLine]
  repeat' first | infer_instance | split | refine .bind ?_ fun _ => ?_

/-! ## Scalars -/

instance (fuel : Nat) : Sane (plainBreaks fuel) := by
  induction fuel with
  | zero => exact .pure _
  | succ fuel ih =>
    simp only [plainBreaks]
    repeat' first | infer_instance | split | refine .bind ?_ fun _ => ?_

instance : Sane plainGap := by
  simp only [plainGap]
  repeat' first | infer_instance | split | refine .bind ?_ fun _ => ?_

instance (inFlow : Bool) (indent : Int) (fuel : Nat) (acc gap : List Char) (broken : Bool) :
    Sane (plainRuns inFlow indent fuel acc gap broken) := by
  induction fuel generalizing acc gap broken with
  | zero => exact .pure _
  | succ fuel ih =>
    simp only [plainRuns]
    infer_instance

instance (inFlow : Bool) (indent : Int) : Sane (plain inFlow indent) := by
  simp only [plain]
  infer_instance

instance (fuel : Nat) : Sane (quotedBreaks fuel) := by
  induction fuel with
  | zero => exact .pure _
  | succ fuel ih =>
    simp only [quotedBreaks]
    repeat' first | infer_instance | split | refine .bind ?_ fun _ => ?_

instance : Sane quotedGap := by
  simp only [quotedGap]
  repeat' first | infer_instance | split | refine .bind ?_ fun _ => ?_

/-- Only here a document is refused for something else than its form. -/
instance (n : Nat) : Sane (codeChar n) := by
  have large {α : Type} : Sane (throw (.tooLarge "Python int too large to convert to C int") : Reads α) :=
    .throw (.inr (.inl rfl))
  have outside {α : Type} : Sane (throw (.badValue "chr() arg not in range(0x110000)") : Reads α) :=
    .throw (.inr (.inr rfl))
  simp only [codeChar]
  repeat' first | infer_instance | split | refine .bind ?_ fun _ => ?_

instance : Sane escape := by
  simp only [escape]
  repeat' first | infer_instance | split | refine .bind ?_ fun _ => ?_

instance (quote : Char) (fuel : Nat) (acc : List Char) : Sane (quotedText quote fuel acc) := by
  induction fuel generalizing acc with
  | zero => exact .pure _
  | succ fuel ih =>
    simp only [quotedText]
    repeat' first | infer_instance | split | refine .bind ?_ fun _ => ?_

instance (quote : Char) : Sane (quotedScalar quote) := by
  simp only [quotedScalar]
  infer_instance

instance : Sane chompingSign := by
  simp only [chompingSign]
  repeat' first | infer_instance | split | refine .bind ?_ fun _ => ?_

instance : Sane indentDigit := by
  simp only [indentDigit]
  repeat' first | infer_instance | split | refine .bind ?_ fun _ => ?_

instance : Sane blockSigns := by
  simp only [blockSigns]
  infer_instance

instance (fuel widest : Nat) : Sane (blockLead fuel widest) := by
  induction fuel generalizing widest with
  | zero => exact .pure _
  | succ fuel ih =>
    simp only [blockLead]
    repeat' first | infer_instance | split | refine .bind ?_ fun _ => ?_

instance (indent : Nat) : Sane (blockIndent indent) := by
  simp only [blockIndent]
  infer_instance

instance (indent fuel : Nat) : Sane (blockBreaks indent fuel) := by
  induction fuel with
  | zero => exact .pure _
  | succ fuel ih =>
    simp only [blockBreaks]
    infer_instance

instance (folded : Bool) (indent fuel : Nat) (acc breaks : List Char) :
    Sane (blockLines folded indent fuel acc breaks) := by
  induction fuel generalizing acc breaks with
  | zero => exact .pure _
  | succ fuel ih =>
    simp only [blockLines]
    infer_instance

instance (folded : Bool) (outer : Int) : Sane (blockScalar folded outer) := by
  simp only [blockScalar]
  repeat' first | infer_instance | split | refine .bind ?_ fun _ => ?_

/-! ## Tokens -/

namespace Scan

instance {α : Type} (what : String) : Sane (refuse what : Scans α) := .throw (.inl trivial)

instance {α : Type} (r : Reads α) [hr : Sane r] : Sane (reads r) where
  from_state s _ := by
    refine ⟨fun f failed => ?_, fun _ _ _ => trivial⟩
    obtain ⟨fails, -⟩ := hr.from_state s.cursor trivial
    have whole : (reads r).run s = match r.run s.cursor with
        | .ok (a, c) => .ok (a, { s with cursor := c })
        | .error e => .error e := by
      unfold reads
      rw [StateT.run_bind]
      show ((match r.run s.cursor with | .ok (a, c) => _ | .error e => _ : Scans α).run s) = _
      rcases r.run s.cursor with e | ⟨a, c⟩ <;> rfl
    rw [whole] at failed
    cases ran : r.run s.cursor with
    | error e =>
      rw [ran] at failed
      cases failed
      exact fails f ran
    | ok x =>
      rw [ran] at failed
      cases failed

instance (f : Scan → Scan) : Sane (modify f : Scans PUnit) := .modify fun _ => id

instance (s : Scan) : Sane (set s : Scans PUnit) := .modify fun _ => id

instance (t : Token) : Sane (push t) := by
  simp only [push]
  infer_instance

instance (width : Nat) (t : Token) : Sane (mark width t) := by
  simp only [mark]
  infer_instance

instance (b : Bool) : Sane (allowKey b) := by
  simp only [allowKey]
  infer_instance

instance : Sane dropStale := by
  simp only [dropStale]
  infer_instance

instance : Sane dropKey := by
  simp only [dropKey]
  infer_instance

instance : Sane keepKey := by
  simp only [keepKey]
  infer_instance

instance (column : Int) : Sane (unwind column) := by
  simp only [unwind]
  infer_instance

instance (column : Nat) : Sane (indentTo column) := by
  simp only [indentTo]
  infer_instance

instance (t : Token) (complaint : String) : Sane (openBlock t complaint) := by
  simp only [openBlock]
  infer_instance

instance : Sane anchorName := by
  simp only [anchorName]
  infer_instance

instance (fuel : Nat) : Sane (percentOctets fuel) := by
  induction fuel with
  | zero => exact .pure _
  | succ fuel ih =>
    simp only [percentOctets]
    repeat' first | infer_instance | split | refine .bind ?_ fun _ => ?_

instance (fuel : Nat) : Sane (tagText fuel) := by
  induction fuel with
  | zero => exact .pure _
  | succ fuel ih =>
    simp only [tagText]
    repeat' first | infer_instance | split | refine .bind ?_ fun _ => ?_

instance : Sane tagSuffix := by
  simp only [tagSuffix]
  infer_instance

instance : Sane tagHandle := by
  simp only [tagHandle]
  repeat' first | infer_instance | split | refine .bind ?_ fun _ => ?_

instance : Sane readTag := by
  simp only [readTag]
  repeat' first | infer_instance | split | refine .bind ?_ fun _ => ?_

instance : Sane versionNumber := by
  simp only [versionNumber]
  infer_instance

instance : Sane readDirective := by
  simp only [readDirective]
  repeat' first | infer_instance | split | refine .bind ?_ fun _ => ?_

instance (fuel : Nat) : Sane (toNextToken fuel) := by
  induction fuel with
  | zero => exact .pure _
  | succ fuel ih =>
    simp only [toNextToken]
    infer_instance

instance (t : Token) : Sane (documentLine t) := by
  simp only [documentLine]
  infer_instance

instance (t : Token) : Sane (openFlow t) := by
  simp only [openFlow]
  infer_instance

instance (t : Token) : Sane (closeFlow t) := by
  simp only [closeFlow]
  infer_instance

instance : Sane keySign := by
  simp only [keySign]
  infer_instance

instance : Sane valueSign := by
  simp only [valueSign]
  repeat' first | infer_instance | split | refine .bind ?_ fun _ => ?_

instance (r : Reads Token) [Sane r] : Sane (node r) := by
  simp only [node]
  infer_instance

instance (folded : Bool) : Sane (block folded) := by
  simp only [block]
  infer_instance

instance : Sane plainScalar := by
  simp only [plainScalar]
  infer_instance

instance : Sane step := by
  simp only [step]
  iterate 6 refine .bind inferInstance fun _ => ?_
  split
  · infer_instance
  · repeat' first | infer_instance | refine .branch ?_ ?_

end Scan

/-- The fault behind tokens is one of reading. -/
theorem all_fault (fuel : Nat) (s : Scan) {f : Fault} (h : (Scan.all fuel s).fault = some f) :
    f.IsOfReading := by
  induction fuel generalizing s with
  | zero =>
    cases h
    exact .inl trivial
  | succ fuel ih =>
    rw [Scan.all] at h
    obtain ⟨fails, -⟩ := (inferInstance : Sane Scan.step).from_state s trivial
    split at h
    next s' _ => exact ih s' h
    next => cases h
    next e failed =>
      cases h
      exact fails f failed

theorem tokens_fault {s : List Char} {f : Fault} (h : (tokens s).fault = some f) : f.IsOfReading := by
  unfold tokens at h
  split at h
  · cases h
    exact .inl trivial
  · exact all_fault _ _ h

/-! ## Nodes -/

namespace Node

variable {g : Option Fault}

/-- A reader of nodes that fails for the form of the document or at the fault behind the tokens. -/
abbrev Loyal {α : Type} (g : Option Fault) (r : Builds α) : Prop :=
  Obeys (fun s : Source => s.fault = g) (fun f => f.IsOfForm ∨ g = some f) r

instance {α : Type} (what : String) : Loyal g (refuse what : Builds α) := .throw (.inl trivial)

instance : Loyal g token where
  from_state s h := by
    subst h
    have here : token.run s = match s.rest, s.fault with
        | t :: _, _ => .ok (t, s)
        | [], some f => .error f
        | [], none => .ok (.streamEnd, s) := by
      unfold token
      rw [StateT.run_bind]
      show ((match s.rest, s.fault with | t :: _, _ => _ | [], some f => _ | [], none => _ : Builds Token).run s) = _
      split <;> rfl
    rw [here]
    split
    next => exact ⟨.ok _, fun _ _ same => by cases same; rfl⟩
    next f _ there => exact ⟨FailsOnly.error_iff.mpr (.inr there), fun _ _ same => nomatch same⟩
    next => exact ⟨.ok _, fun _ _ same => by cases same; rfl⟩

instance : Loyal g skip := .modify fun _ h => h

instance (ts : List Token) : Loyal g (sees ts) := by
  simp only [sees]
  infer_instance

instance (t : Token) : Loyal g (accept t) := by
  simp only [accept]
  infer_instance

instance : Loyal g anchor? := by
  simp only [anchor?]
  repeat' first | infer_instance | split | refine .bind ?_ fun _ => ?_

instance : Loyal g tag? := by
  simp only [tag?]
  repeat' first | infer_instance | split | refine .bind ?_ fun _ => ?_

instance : Loyal g properties := by
  simp only [properties]
  repeat' first | infer_instance | split | refine .bind ?_ fun _ => ?_

instance (name : Option String) : Loyal g (openAnchor name) := by
  have opened (name : String) : Loyal g (modify fun s => { s with anchors := (name, none) :: s.anchors }) :=
    .modify fun _ h => h
  cases name <;> simp only [openAnchor] <;> infer_instance

instance (name : Option String) (n : Node) : Loyal g (closeAnchor name n) := by
  have closed (a : String) : Loyal g (modify fun s =>
      { s with anchors := s.anchors.map fun x => if x.1 == a then (a, some n) else x }) := .modify fun _ h => h
  cases name <;> simp only [closeAnchor] <;> infer_instance

/-- The readers of nodes of a depth at most. -/
structure LoyalTo (g : Option Fault) (fuel : Nat) : Prop where
  read : ∀ inBlock bare, Loyal g (read fuel inBlock bare)
  readBefore : ∀ ends inBlock bare, Loyal g (readBefore fuel ends inBlock bare)
  blockItems : Loyal g (blockItems fuel)
  bareItems : Loyal g (bareItems fuel)
  blockEntries : Loyal g (blockEntries fuel)
  flowItems : ∀ first, Loyal g (flowItems fuel first)
  flowEntries : ∀ first, Loyal g (flowEntries fuel first)

theorem loyalTo (g : Option Fault) (fuel : Nat) : LoyalTo g fuel := by
  induction fuel with
  | zero =>
    constructor
    all_goals
      intros
      simp only [read, readBefore, blockItems, bareItems, blockEntries, flowItems, flowEntries]
      infer_instance
  | succ fuel ih =>
    obtain ⟨_, _, _, _, _, _, _⟩ := ih
    constructor
    case read =>
      intro inBlock bare
      simp only [read]
      refine .bind inferInstance fun t => ?_
      split
      · repeat' first | infer_instance | split | refine .bind ?_ fun _ => ?_
      · refine .bind inferInstance fun named => .bind inferInstance fun t => ?_
        split
        next r content =>
          have : Loyal g r := by
            repeat' split at content
            all_goals
              cases content
              try infer_instance
          infer_instance
        next => infer_instance
    all_goals
      intros
      simp only [readBefore, blockItems, bareItems, blockEntries, flowItems, flowEntries]
      repeat' first | infer_instance | split | refine .bind ?_ fun _ => ?_

instance (fuel : Nat) (inBlock bare : Bool) : Loyal g (read fuel inBlock bare) := (loyalTo g fuel).read _ _

instance (fuel : Nat) (versioned : Bool) (handles : List (String × String)) :
    Loyal g (directives fuel versioned handles) := by
  induction fuel generalizing versioned handles with
  | zero => exact .pure _
  | succ fuel ih =>
    simp only [directives]
    repeat' first | infer_instance | split | refine .bind ?_ fun _ => ?_

instance (fuel : Nat) : Loyal g (skipEnds fuel) := by
  induction fuel with
  | zero => exact .pure _
  | succ fuel ih =>
    simp only [skipEnds]
    infer_instance

instance (fuel : Nat) : Loyal g (content fuel) := by
  simp only [content]
  repeat' first | infer_instance | split | refine .bind ?_ fun _ => ?_

instance : Loyal g document := by
  have handled (handles : List (String × String)) : Loyal g (modify fun s => { s with handles }) :=
    .modify fun _ h => h
  simp only [document]
  repeat' first | infer_instance | split | refine .bind ?_ fun _ => ?_

/-- What is wrong with the nodes of tokens is their form, or what is wrong behind the tokens. -/
theorem ofTokens_fails (ts : Tokens) : FailsOnly (fun f => f.IsOfForm ∨ ts.fault = some f) (ofTokens ts) := by
  obtain ⟨fails, -⟩ := (inferInstance : Loyal ts.fault document).from_state { rest := ts.read, fault := ts.fault } rfl
  unfold ofTokens
  cases ran : document.run { rest := ts.read, fault := ts.fault } with
  | error f => exact FailsOnly.error_iff.mpr (fails f ran)
  | ok x => exact .ok _

end Node

end Yaml

end Scaffold
