import Scaffold.Proofs.Session.Questions
import Scaffold.Proofs.Tool.Effects

/-!
# Consent to replacing a file

A step that adds a file asks for consent where the file is there with another text, and neither the step
nor the options say what to do then.  It asks once at most.
-/

namespace Scaffold

open Run Session

namespace Session

/-- `t` is the same session as `s`. -/
def Same (s t : Session) : Prop := t = s

instance samePreorder : IsPreorder Session Same where
  refl _ := rfl
  trans _ _ _ h h' := Eq.trans h' h

theorem sameAll : Compositional (Keeps Same) := keepsAll Same

/-- From `s` to `t` consent was asked for a number of times, and no other mark came in. -/
def AskedConsent (n : Nat) (s t : Session) : Prop :=
  ∃ ms, Marked ms s t ∧ (∀ e ∈ ms, e.isConsent = true) ∧ ms.length = n

variable {s t u : Session} {n : Nat}

theorem Unmarked.askedConsent (h : Unmarked s t) : AskedConsent 0 s t :=
  ⟨[], h.marked, fun _ mem => absurd mem List.not_mem_nil, rfl⟩

theorem AskedConsent.trans (h : AskedConsent n s t) (h' : Unmarked t u) : AskedConsent n s u := by
  obtain ⟨ms, marked, consents, length⟩ := h
  have all := marked.trans h'.marked
  rw [List.append_nil] at all
  exact ⟨ms, all, consents, length⟩

end Session

namespace Run

variable {α β : Type} {x : Run α} {f : α → Run β} {s : Session}

/-- What follows on a run that leaves its session as it is begins in the same session. -/
theorem on_bind_same (h : x.Keeps Same) :
    (x >>= f).on s = match (x.on s).1 with
      | .ok a => (f a).on s
      | .error e => (.error e, s) := by
  have same : (x.on s).2 = s := h s
  rw [on_bind]
  rcases ran : x.on s with ⟨e | a, t⟩ <;> rw [ran] at same <;> cases same <;> rfl

end Run

namespace AddStep

/-- Whether the file that a step adds is there with another text, and the step's own condition does not
keep it from being added. -/
def replaces (a : AddStep) (step : Step) (c : StepContext) (s : Session) : Bool :=
  match ((c.resolve a.target).on s).1, ((a.isKept c).on s).1,
    ((step.loadBody a.body a.source c).on s).1 with
  | .ok target, .ok false, .ok body =>
    s.tree.present target &&
      match ((Run.readText target).on s).1 with
      | .ok current => current != body
      | .error _ => false
  | _, _, _ => false

/-- Whether a step that adds a file asks for consent to replace it. -/
def asksConsent (a : AddStep) (step : Step) (c : StepContext) (s : Session) : Bool :=
  !(a.force || c.options.force) && !a.unlessExists && !c.options.yes && c.options.interactive &&
    c.prompter.isSome && a.replaces step c s

variable {c : StepContext} {w : Option Prompter}

theorem put_unmarked (step : Step) (target : Path) (present force : Bool) (body : String) :
    (put step c target present force body).Keeps Unmarked :=
  put_holds unmarkedAll (fun _ p text s => logs_of_journal_eq (by rw [on_writeText])) step target present
    force body

variable (hc : c.prompter = w.map Prompter.announcing) (silent : ∀ p, w = some p → p.Silent)

include hc silent in
theorem mayOverwrite_asks (force : Bool) (shown : String) (s : Session) :
    AskedConsent (!force && !c.options.yes && c.options.interactive && c.prompter.isSome).toNat s
      ((mayOverwrite c force shown).on s).2 := by
  unfold mayOverwrite
  cases settled : force || c.options.yes with
  | true =>
    have none : (!force && !c.options.yes) = false := by
      rw [← Bool.not_or, settled]
      rfl
    rw [none]
    exact (refl_of Unmarked s).askedConsent
  | false =>
    have unsettled : (!force && !c.options.yes) = true := by
      rw [← Bool.not_or, settled]
      rfl
    rw [unsettled, if_neg (by simp)]
    cases interactive : c.options.interactive with
    | false => exact (refl_of Unmarked s).askedConsent
    | true =>
      cases w with
      | none =>
        rw [hc]
        exact (refl_of Unmarked s).askedConsent
      | some p =>
        rw [hc]
        exact ⟨_, (silent p rfl).confirm_marked _ s, by simp [Event.isConsent], rfl⟩

include hc silent in
theorem replace_asks (step : Step) (target : Path) (force : Bool) (body : String) (s : Session) :
    AskedConsent ((match ((Run.readText target).on s).1 with
        | .ok current => current != body
        | .error _ => false) &&
      (!force && !c.options.yes && c.options.interactive && c.prompter.isSome)).toNat s
      ((replace step c target force body).on s).2 := by
  unfold replace
  dsimp only
  rw [on_bind_same (sameAll.readText target)]
  rcases ((Run.readText target).on s).1 with f | current
  · exact (refl_of Unmarked s).askedConsent
  · dsimp only
    split
    next same =>
      rw [same, bne_self_eq_false]
      exact (refl_of Unmarked s).askedConsent
    next other =>
      rw [bne_iff_ne.mpr other, Bool.true_and]
      have asked := mayOverwrite_asks hc silent force (c.shown target) s
      rcases ran : (mayOverwrite c force (c.shown target)).on s with ⟨f | allowed, t⟩ <;>
        rw [ran] at asked
      · rw [on_bind_error ran]
        exact asked
      · rw [on_bind_ok ran]
        split
        · exact asked
        · exact asked.trans (put_unmarked step target true force body t)

include hc silent in
/-- A step that adds a file asks for consent once, or not at all. -/
theorem execute_asks (a : AddStep) (step : Step) (s : Session) :
    AskedConsent (a.asksConsent step c s).toNat s ((a.execute step c).on s).2 := by
  have still : AskedConsent 0 s s := (refl_of Unmarked s).askedConsent
  unfold AddStep.execute asksConsent replaces
  rw [on_bind_same (c.resolve_holds sameAll _)]
  rcases ((c.resolve a.target).on s).1 with f | target
  · simpa using still
  dsimp only
  rw [on_bind_same (a.isKept_holds sameAll)]
  rcases ((a.isKept c).on s).1 with f | kept
  · simpa using still
  cases kept with
  | true => simpa using still
  | false =>
    dsimp only
    rw [if_neg (by decide), on_bind_ok (on_get s)]
    by_cases stays : (s.tree.present target && a.unlessExists && !(a.force || c.options.force)) = true
    · -- the file is there, and that is enough
      rw [if_pos stays]
      simp only [Bool.and_eq_true, Bool.not_eq_true'] at stays
      simpa [stays.1.2] using still
    · rw [if_neg stays, on_bind_same (step.loadBody_holds sameAll _ _ c)]
      rcases ((step.loadBody a.body a.source c).on s).1 with f | body
      · simpa using still
      · dsimp only
        cases present : s.tree.present target with
        | false => simpa using (put_unmarked step target false _ body s).askedConsent
        | true =>
          have asked := replace_asks hc silent step target (a.force || c.options.force) body s
          have told (x : Bool) : (!(a.force || c.options.force) && !a.unlessExists && !c.options.yes &&
              c.options.interactive && c.prompter.isSome && (true && x)) =
              (x && (!(a.force || c.options.force) && !c.options.yes && c.options.interactive &&
                c.prompter.isSome)) := by
            rw [present] at stays
            cases force : a.force || c.options.force <;> cases exists_ : a.unlessExists <;>
              simp_all [Bool.and_comm]
          rw [told]
          exact asked

end AddStep

end Scaffold
