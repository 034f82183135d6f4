import Mathlib.Order.Defs.Unbundled
import Scaffold.Session

/-!
# What runs do to a session

A run takes a session to an outcome and another session.  The equations below compute it through the
operations runs are made of.

Some properties pass through every way of putting runs together, so that about a tool only its own
effects remain to be looked at.  Two of them carry all that is proved about tools here.  A run *keeps*
a relation between sessions when the session before it and the one after it always stand in that
relation, whatever comes of the run.  A run *agrees* when from sessions that look alike it comes to the
same outcome and to sessions that look alike again.
-/

namespace Scaffold

namespace Session

/-- The session with nothing in its collector. -/
def cleared (s : Session) : Session := { s with collector := {} }

@[simp] theorem cleared_tree (s : Session) : s.cleared.tree = s.tree := rfl

@[simp] theorem cleared_collector (s : Session) : s.cleared.collector = {} := rfl

@[simp] theorem cleared_journal (s : Session) : s.cleared.journal = s.journal := rfl

@[simp] theorem cleared_scope (s : Session) : s.cleared.scope = s.scope := rfl

end Session

namespace Run

variable {α β : Type}

/-! ## Equations -/

@[simp]
theorem on_pure (a : α) (s : Session) : (pure a : Run α).on s = (.ok a, s) := rfl

@[simp]
theorem on_throw (e : Failure) (s : Session) : (throw e : Run α).on s = (.error e, s) := rfl

theorem on_bind (x : Run α) (f : α → Run β) (s : Session) :
    (x >>= f).on s = match x.on s with
      | (.ok a, s') => (f a).on s'
      | (.error e, s') => (.error e, s') := by
  simp only [Run.on, ExceptT.run, bind, ExceptT.bind, ExceptT.mk, StateT.bind, ExceptT.bindCont]
  rcases x s with ⟨_ | _, _⟩ <;> rfl

theorem on_bind_ok {x : Run α} {s s' : Session} {a : α} (h : x.on s = (.ok a, s')) (f : α → Run β) :
    (x >>= f).on s = (f a).on s' := by
  rw [on_bind, h]

theorem on_bind_error {x : Run α} {s s' : Session} {e : Failure} (h : x.on s = (.error e, s'))
    (f : α → Run β) : (x >>= f).on s = (.error e, s') := by
  rw [on_bind, h]

@[simp]
theorem on_get (s : Session) : (get : Run Session).on s = (.ok s, s) := rfl

@[simp]
theorem on_set (t s : Session) : (set t : Run PUnit).on s = (.ok ⟨⟩, t) := rfl

@[simp]
theorem on_modify (f : Session → Session) (s : Session) :
    (modify f : Run PUnit).on s = (.ok ⟨⟩, f s) := rfl

@[simp]
theorem on_note (e : Event) (s : Session) : (note e).on s = (.ok ⟨⟩, s.note e) := rfl

@[simp]
theorem on_collect (f : Collector → Collector) (s : Session) :
    (collect f).on s = (.ok ⟨⟩, { s with collector := f s.collector }) := rfl

@[simp]
theorem on_clear (s : Session) : (collect Collector.clear).on s = (.ok ⟨⟩, s.cleared) := rfl

@[simp]
theorem on_setVariable (name : String) (v : Value) (s : Session) :
    (setVariable name v).on s = (.ok ⟨⟩, { s with scope := s.scope.set name v }) := rfl

@[simp]
theorem on_emit (message : String) (s : Session) :
    (emit message).on s = (.ok ⟨⟩, s.note (.printed .steps (message ++ "\n"))) := rfl

@[simp]
theorem on_attempt (r : Run α) (s : Session) : r.attempt.on s = (.ok (r.on s).1, (r.on s).2) := rfl

@[simp]
theorem on_ofExcept (r : Except Failure α) (s : Session) : (ofExcept r).on s = (r, s) := by
  cases r <;> rfl

theorem on_writeText (p : Path) (text : String) {failing : Option Tree.Stage} (s : Session) :
    (writeText p text failing).on s =
      ((s.tree.replace p text failing).1.mapError .file,
        { s with tree := (s.tree.replace p text failing).2 }) := by
  refine (on_bind_ok (on_get s) _).trans ?_
  refine (on_bind_ok (on_set { s with tree := (s.tree.replace p text failing).2 } s) _).trans ?_
  exact on_ofExcept _ _

/-- Where a run of two parts succeeds, so do both parts. -/
theorem on_bind_eq_ok {x : Run α} {f : α → Run β} {s t : Session} {b : β}
    (h : (x >>= f).on s = (.ok b, t)) : ∃ a s', x.on s = (.ok a, s') ∧ (f a).on s' = (.ok b, t) := by
  rw [on_bind] at h
  rcases hx : x.on s with ⟨_ | a, s'⟩
  · rw [hx] at h
    cases h
  · rw [hx] at h
    exact ⟨a, s', rfl, h⟩

/-! ## Compositional properties -/

end Run

/-- Two sessions that steps cannot tell apart: they have the same files, the same inquiries and the
same variables. -/
structure Session.Alike (s t : Session) : Prop where
  tree : s.tree = t.tree
  collector : s.collector = t.collector
  scope : s.scope = t.scope

namespace Run

open Session

/-- A property of runs that passes through every way of putting them together.  What a run sees of its
session is what alike sessions share. -/
structure Compositional (P : ∀ {α : Type}, Run α → Prop) : Prop where
  pure : ∀ {α : Type} (a : α), P (pure a : Run α)
  throw : ∀ {α : Type} (e : Failure), P (throw e : Run α)
  bind : ∀ {α β : Type} {x : Run α} {f : α → Run β}, P x → (∀ a, P (f a)) → P (x >>= f)
  attempt : ∀ {α : Type} {x : Run α}, P x → P x.attempt
  look : ∀ {α : Type} {f : Session → Run α}, (∀ s t, Alike s t → f s = f t) → (∀ s, P (f s)) →
    P (get >>= f)

namespace Compositional

variable {P : ∀ {α : Type}, Run α → Prop} (h : Compositional @P) {α β : Type}

include h

theorem ofExcept (r : Except Failure α) : P (ofExcept r) := by
  cases r with
  | ok a => exact h.pure a
  | error e => exact h.throw e

theorem readText (p : Path) : P (readText p) := by
  refine h.look (fun s t alike => by rw [alike.tree]) fun s => ?_
  exact h.bind (h.ofExcept _) fun _ => h.ofExcept _

theorem mapM {f : α → Run β} (xs : List α) (hf : ∀ a, P (f a)) : P (xs.mapM f) := by
  induction xs with
  | nil => exact h.pure _
  | cons a xs ih =>
    rw [List.mapM_cons]
    exact h.bind (hf a) fun b => h.bind ih fun bs => h.pure _

theorem mapM? {f : α → Run β} (x : Option α) (hf : ∀ a, P (f a)) : P (x.mapM f) := by
  cases x with
  | none => exact h.pure _
  | some a => exact h.bind (hf a) fun b => h.pure _

theorem foldlM {f : β → α → Run β} (xs : List α) (b : β) (hf : ∀ b a, P (f b a)) :
    P (xs.foldlM f b) := by
  induction xs generalizing b with
  | nil => exact h.pure b
  | cons a xs ih =>
    rw [List.foldlM_cons]
    exact h.bind (hf b a) fun b' => ih b'

end Compositional

/-! ## Relations that runs keep -/

/-- The session before a run and the session after it are related, whatever comes of the run. -/
def Keeps (R : Session → Session → Prop) {α : Type} (r : Run α) : Prop := ∀ s, R s (r.on s).2

theorem Keeps.mono {R S : Session → Session → Prop} {r : Run α} (h : r.Keeps R)
    (hRS : ∀ s t, R s t → S s t) : r.Keeps S :=
  fun s => hRS _ _ (h s)

theorem keeps_modify {R : Session → Session → Prop} {f : Session → Session} (h : ∀ s, R s (f s)) :
    (modify f : Run PUnit).Keeps R := h

theorem keeps_look {R : Session → Session → Prop} {α : Type} {f : Session → Run α}
    (h : ∀ s, (f s).Keeps R) : ((get : Run Session) >>= f).Keeps R := fun s => h s s

/-- Runs keep a preorder part by part. -/
theorem keepsAll (R : Session → Session → Prop) [IsPreorder Session R] :
    Compositional (Keeps R) where
  pure a s := refl_of R s
  throw e s := refl_of R s
  bind := by
    intro α β x f hx hf s
    have first := hx s
    rw [on_bind]
    rcases h : x.on s with ⟨_ | a, s'⟩ <;> rw [h] at first
    · exact first
    · exact trans_of R first (hf a s')
  attempt hx := hx
  look _ hf := keeps_look hf

/-! ## Runs that agree -/

/-- From sessions that look alike a run comes to the same outcome and to alike sessions. -/
def Agrees {α : Type} (r : Run α) : Prop :=
  ∀ s t, Alike s t → (r.on s).1 = (r.on t).1 ∧ Alike (r.on s).2 (r.on t).2

theorem agrees_modify {f : Session → Session} (h : ∀ s t, Alike s t → Alike (f s) (f t)) :
    (modify f : Run PUnit).Agrees := fun s t hst => ⟨rfl, h s t hst⟩

theorem agrees_note (e : Event) : (note e).Agrees :=
  agrees_modify fun _ _ alike => ⟨alike.tree, alike.collector, alike.scope⟩

theorem agrees_writeText (p : Path) (text : String) : (writeText p text).Agrees := by
  intro s t alike
  rw [on_writeText, on_writeText, alike.tree]
  exact ⟨rfl, rfl, alike.collector, alike.scope⟩

theorem agreesAll : Compositional Agrees where
  pure _ _ _ hst := ⟨rfl, hst⟩
  throw _ _ _ hst := ⟨rfl, hst⟩
  bind := by
    intro α β x f hx hf s t hst
    obtain ⟨outcome, after⟩ := hx s t hst
    rw [on_bind, on_bind]
    -- the first parts both fail or both succeed, and then with the same value
    rcases hs : x.on s with ⟨_ | a, s'⟩ <;> rcases ht : x.on t with ⟨_ | b, t'⟩ <;>
      rw [hs, ht] at outcome after <;> cases outcome
    · exact ⟨rfl, after⟩
    · exact hf a s' t' after
  attempt hx s t hst := ⟨congrArg Except.ok (hx s t hst).1, (hx s t hst).2⟩
  look := by
    intro α f same hf s t hst
    rw [on_bind, on_bind]
    simp only [on_get, same s t hst]
    exact hf t s t hst

end Run

/-!
## Runs leg by leg

A run tells which session it ends in, and nothing of the sessions on its way.  A traced run tells these
as well: it comes with its legs, each from the session in which a part of the run began to the one in
which that part ended, and with what that part was for.  The legs are linked, so they lead from the
session that the run began in to the one that it ends in.

Traced runs are put together as runs are.  What is traced of a program is therefore the program itself
with its parts labelled; that it is still the same program is a matter of unfolding.
-/

open Run

/-- What a part of a run is for. -/
inductive Phase where
  /-- Prompts are collected. -/
  | collecting
  /-- The transport is asked for answers. -/
  | asking
  /-- The collector is cleared. -/
  | clearing
  /-- Anything else. -/
  | apart
  deriving DecidableEq, Repr

/-- A part of a run, from session to session. -/
structure Leg where
  phase : Phase
  before : Session
  after : Session

/-- Legs that lead from one session to another: each begins where the one before it ended. -/
def Linked : Session → List Leg → Session → Prop
  | s, [], t => s = t
  | s, l :: ls, t => l.before = s ∧ Linked l.after ls t

theorem Linked.append {s t u : Session} {ls ls' : List Leg} (h : Linked s ls t)
    (h' : Linked t ls' u) : Linked s (ls ++ ls') u := by
  induction ls generalizing s with
  | nil =>
    obtain rfl : s = t := h
    exact h'
  | cons l ls ih => exact ⟨h.1, ih h.2⟩

/-- A run with its legs. -/
structure Traced (α : Type) where
  run : Run α
  legs : Session → List Leg
  linked : ∀ s, Linked s (legs s) (run.on s).2

namespace Traced

variable {α β : Type}

instance : Monad Traced where
  pure a := { run := pure a, legs := fun _ => [], linked := fun _ => rfl }
  bind x f :=
    { run := x.run >>= fun a => (f a).run
      legs := fun s => x.legs s ++ match x.run.on s with
        | (.ok a, t) => (f a).legs t
        | (.error _, _) => []
      linked := by
        intro s
        have first := x.linked s
        rw [on_bind]
        rcases ran : x.run.on s with ⟨e | a, t⟩ <;> rw [ran] at first
        · exact first.append rfl
        · exact first.append ((f a).linked t) }

/-- A run that is a single leg. -/
def leg (p : Phase) (x : Run α) : Traced α where
  run := x
  legs s := [⟨p, s, (x.on s).2⟩]
  linked _ := ⟨rfl, rfl⟩

/-- A run that only looks at its session is no leg. -/
def look (x : Run α) (still : ∀ s, (x.on s).2 = s) : Traced α where
  run := x
  legs _ := []
  linked s := (still s).symm

/-- The session at this point. -/
def session : Traced Session := look get fun _ => rfl

/-- The outcome of a pure operation. -/
def ofExcept (r : Except Failure α) : Traced α := look (Run.ofExcept r) fun s => by rw [on_ofExcept]

/-- The outcome of a traced run as a value. -/
def attempt (x : Traced α) : Traced (Except Failure α) where
  run := x.run.attempt
  legs := x.legs
  linked := x.linked

/-- The collector is cleared. -/
def clear : Traced Unit := leg .clearing (collect Collector.clear)

section Run

variable (x : Traced α) (f : α → Traced β)

@[simp] theorem run_bind : (x >>= f).run = x.run >>= fun a => (f a).run := rfl

theorem run_ite (c : Prop) [Decidable c] (x y : Traced α) :
    (if c then x else y).run = if c then x.run else y.run := by
  split <;> rfl

@[simp] theorem run_session : session.run = get := rfl

@[simp] theorem run_attempt : x.attempt.run = x.run.attempt := rfl

end Run

/-! ## Legs of runs in two parts -/

section Legs

variable {x : Traced α} {f : α → Traced β} {s t : Session} {a : α} {e : Failure}

theorem legs_bind_ok (h : x.run.on s = (.ok a, t)) (f : α → Traced β) :
    (x >>= f).legs s = x.legs s ++ (f a).legs t := by
  show x.legs s ++ _ = _
  rw [h]

theorem legs_bind_error (h : x.run.on s = (.error e, t)) (f : α → Traced β) :
    (x >>= f).legs s = x.legs s := by
  show x.legs s ++ _ = _
  rw [h, List.append_nil]

/-- A leg of a run in two parts belongs to one of them. -/
theorem mem_legs_bind {l : Leg} (h : l ∈ (x >>= f).legs s) :
    l ∈ x.legs s ∨ ∃ a t, x.run.on s = (.ok a, t) ∧ l ∈ (f a).legs t := by
  rcases ran : x.run.on s with ⟨e | a, t⟩
  · rw [legs_bind_error ran] at h
    exact .inl h
  · rw [legs_bind_ok ran] at h
    exact (List.mem_append.mp h).imp_right fun behind => ⟨a, t, rfl, behind⟩

/-- What looks at the session first has the legs of what comes behind. -/
theorem legs_session_bind (f : Session → Traced β) (s : Session) :
    (session >>= f).legs s = (f s).legs s := rfl

end Legs

end Traced

end Scaffold
