import Scaffold.Proofs.Session.Journal

/-!
# Questions in the journal

Someone who announces questions has each of them noted when it is put.  Questions and beginnings, of an
execution or of a step, are the marks of a journal; nothing else counts when it is told who was asked
for what, and how often.

The variables of a run are resolved before its execution for good begins.  Until then nothing else asks
for a value, so the questions for a variable are counted up to there.  Consent is asked for by steps: a
question for it is put on behalf of the step that began last.
-/

namespace Scaffold

open Run Session

/-! ## Marks -/

namespace Event

/-- A variable is asked for. -/
def isAsk : Event → Bool
  | .asked .. => true
  | _ => false

/-- Consent is asked for. -/
def isConsent : Event → Bool
  | .confirmed _ => true
  | _ => false

/-- An execution or a step begins. -/
def isBeginning : Event → Bool
  | .executed .. | .began .. => true
  | _ => false

/-- A question or a beginning. -/
def isMark (e : Event) : Bool := e.isAsk || e.isConsent || e.isBeginning

/-- A certain variable is asked for. -/
def asksFor (name : String) : Event → Bool
  | .asked n _ _ => n == name
  | _ => false

/-- How often a variable is asked for before an execution for good begins. -/
def timesAsked (name : String) (es : List Event) : Nat :=
  (es.takeWhile fun e => !e.isRealExecution).countP (asksFor name)

/-- How often consent is asked for on behalf of a step; `running` is the step that began last. -/
def timesConfirmed (name : String) (running : Option String) : List Event → Nat
  | [] => 0
  | .began step _ :: es => timesConfirmed name (some step) es
  | .confirmed _ :: es => (if running = some name then 1 else 0) + timesConfirmed name running es
  | _ :: es => timesConfirmed name running es

variable {name step : String} {running : Option String} {es es' : List Event} {e : Event}

/-- Only marks are counted. -/
theorem timesAsked_filter : timesAsked name (es.filter isMark) = timesAsked name es := by
  induction es with
  | nil => rfl
  | cons e es ih =>
    unfold timesAsked at ih ⊢
    cases e with
    | executed r collecting =>
      cases collecting
      · simp [isMark, isBeginning, isRealExecution]
      · simpa [isMark, isBeginning, isRealExecution, asksFor] using ih
    | asked n _ _ => simpa [isMark, isAsk, isRealExecution, List.countP_cons] using ih
    | _ => simpa [isMark, isAsk, isConsent, isBeginning, isRealExecution, asksFor] using ih

theorem timesConfirmed_filter :
    timesConfirmed name running (es.filter isMark) = timesConfirmed name running es := by
  induction es generalizing running with
  | nil => rfl
  | cons e es ih =>
    cases e <;> simp [isMark, isAsk, isConsent, isBeginning, timesConfirmed, ih]

/-- Before an execution for good begins all questions count. -/
theorem timesAsked_append (h : ∀ e ∈ es, e.isRealExecution = false) :
    timesAsked name (es ++ es') = es.countP (asksFor name) + timesAsked name es' := by
  unfold timesAsked
  rw [List.takeWhile_append_of_pos (by simpa using h), List.countP_append]

/-- So they do where no execution for good begins at all. -/
theorem timesAsked_early (h : ∀ e ∈ es, e.isRealExecution = false) :
    timesAsked name es = es.countP (asksFor name) := by
  have all : timesAsked name (es ++ []) = es.countP (asksFor name) + timesAsked name [] :=
    timesAsked_append h
  rwa [List.append_nil] at all

theorem timesAsked_real (r : String) : timesAsked name (.executed r false :: es) = 0 := rfl

/-- Where no variable is asked for, no certain one is. -/
theorem timesAsked_unasked (h : ∀ e ∈ es, e.isAsk = false) : timesAsked name es = 0 := by
  refine List.countP_eq_zero.mpr fun e mem asks => ?_
  have unasked := h e ((List.takeWhile_prefix _).mem mem)
  cases e <;> simp_all [isAsk, asksFor]

/-- Within a step all questions for consent are put on its behalf. -/
theorem timesConfirmed_append (h : ∀ e ∈ es, e.isBeginning = false) :
    timesConfirmed name running (es ++ es') =
      (if running = some name then es.countP isConsent else 0) +
        timesConfirmed name running es' := by
  induction es with
  | nil => simp
  | cons e es ih =>
    obtain ⟨here, rest⟩ := List.forall_mem_cons.mp h
    cases e with
    | began | executed => cases here
    | confirmed m =>
      rw [List.cons_append, timesConfirmed, ih rest, List.countP_cons]
      split
      · simp only [isConsent, if_true]
        omega
      · rw [Nat.zero_add]
    | _ => simpa [timesConfirmed, isConsent] using ih rest

/-- Whatever runs before it, a stretch asks for consent a number of times on behalf of a step. -/
def Confirms (name : String) (n : Nat) (es : List Event) : Prop :=
  ∀ running, ∃ running', ∀ more,
    timesConfirmed name running (es ++ more) = n + timesConfirmed name running' more

variable {n n' : Nat}

theorem Confirms.append (h : Confirms name n es) (h' : Confirms name n' es') :
    Confirms name (n + n') (es ++ es') := by
  intro running
  obtain ⟨middle, first⟩ := h running
  obtain ⟨last, second⟩ := h' middle
  refine ⟨last, fun more => ?_⟩
  rw [List.append_assoc, first, second, Nat.add_assoc]

theorem Confirms.times (h : Confirms name n es) : timesConfirmed name running es = n := by
  obtain ⟨_, counted⟩ := h running
  simpa [timesConfirmed] using counted []

theorem confirms_nil : Confirms name 0 [] := fun running => ⟨running, fun _ => (Nat.zero_add _).symm⟩

/-- The beginning of an execution asks for nothing. -/
theorem confirms_executed (r : String) (collecting : Bool) :
    Confirms name 0 [.executed r collecting] := fun running => ⟨running, fun _ => by
  rw [Nat.zero_add]
  rfl⟩

/-- Questions for variables are none for consent. -/
theorem confirms_asks (h : ∀ e ∈ es, e.isAsk = true) : Confirms name 0 es := by
  have consents : es.countP isConsent = 0 := List.countP_eq_zero.mpr fun e mem => by
    have ask := h e mem
    cases e <;> simp_all [isAsk, isConsent]
  refine fun running => ⟨running, fun more => ?_⟩
  rw [timesConfirmed_append fun e mem => ?_, consents, ite_self]
  have ask := h e mem
  cases e <;> simp_all [isAsk, isBeginning]

/-- A step asks for consent as often as it is asked for while it runs. -/
theorem confirms_began {visible : Record Value} (h : ∀ e ∈ es, e.isBeginning = false) :
    Confirms name (if step = name then es.countP isConsent else 0) (.began step visible :: es) := by
  refine fun running => ⟨some step, fun more => ?_⟩
  rw [List.cons_append, timesConfirmed, timesConfirmed_append h]
  simp only [Option.some.injEq]

end Event

namespace Session

/-- From `s` to `t` certain marks came into the journal. -/
def Marked (ms : List Event) (s t : Session) : Prop :=
  ∃ es, t.journal = s.journal ++ es ∧ es.filter Event.isMark = ms

variable {s t u : Session} {ms ms' : List Event} {e : Event}

theorem Marked.trans (h : Marked ms s t) (h' : Marked ms' t u) : Marked (ms ++ ms') s u := by
  obtain ⟨es, journal, marks⟩ := h
  obtain ⟨es', journal', marks'⟩ := h'
  refine ⟨es ++ es', by rw [journal', journal, List.append_assoc], ?_⟩
  rw [List.filter_append, marks, marks']

theorem Marked.unique (h : Marked ms s t) (h' : Marked ms' s t) : ms = ms' := by
  obtain ⟨es, journal, rfl⟩ := h
  obtain ⟨es', journal', rfl⟩ := h'
  rw [List.append_cancel_left (journal.symm.trans journal')]

theorem marked_note (h : e.isMark = true) : Marked [e] s (s.note e) :=
  ⟨[e], rfl, by simp [h]⟩

/-- From `s` to `t` no mark came into the journal. -/
abbrev Unmarked (s t : Session) : Prop := Logs (fun e => !e.isMark) s t

theorem Unmarked.marked (h : Unmarked s t) : Marked [] s t := by
  obtain ⟨es, journal, others⟩ := h
  exact ⟨es, journal, List.filter_eq_nil_iff.mpr fun e mem => by simpa using others e mem⟩

theorem unmarkedAll : Compositional (Keeps Unmarked) := keepsAll _

/-- From `s` to `t` no mark came into the journal, and it is still collected or not. -/
structure Unnoticed (s t : Session) : Prop where
  mode : t.collector.collecting = s.collector.collecting
  journal : Unmarked s t

/-- The marks of a journal that grew by events of one kind are of that kind. -/
theorem Marked.of_logs {p : Event → Bool} (h : Logs p s t) :
    ∃ ms, Marked ms s t ∧ ∀ e ∈ ms, p e = true ∧ e.isMark = true := by
  obtain ⟨es, journal, all⟩ := h
  refine ⟨_, ⟨es, journal, rfl⟩, fun e mem => ?_⟩
  obtain ⟨there, mark⟩ := List.mem_filter.mp mem
  exact ⟨all e there, mark⟩

end Session

/-! ## Announcing questions -/

namespace Prompter

/-- Someone whose questions are noted when they are put. -/
def announcing (w : Prompter) : Prompter where
  ask name d := do
    note (.asked name d.description d.suggestion)
    w.ask name d
  confirm message := do
    note (.confirmed message)
    w.confirm message

/-- Someone who leaves no marks, since whoever announces questions does so for them, and who does not
begin or end the collecting of prompts. -/
structure Silent (w : Prompter) : Prop where
  ask : ∀ name d, (w.ask name d).Keeps Unnoticed
  confirm : ∀ message, (w.confirm message).Keeps Unnoticed

variable {w : Prompter}

theorem Silent.ask_marked (h : w.Silent) (name : String) (d : Variable) (s : Session) :
    Marked [.asked name d.description d.suggestion] s ((w.announcing.ask name d).on s).2 := by
  unfold announcing
  rw [on_bind_ok (on_note _ s)]
  exact (marked_note rfl).trans (h.ask name d _).journal.marked

theorem Silent.confirm_marked (h : w.Silent) (message : String) (s : Session) :
    Marked [.confirmed message] s ((w.announcing.confirm message).on s).2 := by
  unfold announcing
  rw [on_bind_ok (on_note _ s)]
  exact (marked_note rfl).trans (h.confirm message _).journal.marked

end Prompter

end Scaffold
