import Scaffold.Cli.Terminal
import Scaffold.Proofs.Session.Runs

/-!
# What the journal records

A session's journal only grows, and what came in says what was done.  Events are sorted here by what
they mean for a project: beginnings of executions, a conversation with a person, and what a step may
do while answers are still awaited.

A person who answers questions changes nothing but the record of the conversation.  That is all the
theory asks of a prompter, and the terminal is one.
-/

namespace Scaffold

/-! ## Kinds of events -/

namespace Event

/-- The beginning of an execution. -/
def isExecution : Event → Bool
  | .executed .. => true
  | _ => false

/-- The beginning of an execution for good, outside collecting. -/
def isRealExecution : Event → Bool
  | .executed _ collecting => !collecting
  | _ => false

/-- A part of a conversation with a person. -/
def isTalk : Event → Bool
  | .asked .. | .confirmed _ | .answered _ | .printed .questions _ => true
  | _ => false

/-- What may happen while answers are awaited: an execution that collects begins, a step begins, a
person is talked to.  No command, no action, no output and no call of a model is among it. -/
def isHarmless : Event → Bool
  | .executed _ collecting => collecting
  | .began .. => true
  | e => e.isTalk

theorem isHarmless_of_isTalk {e : Event} (h : e.isTalk = true) : e.isHarmless = true := by
  cases e <;> simp_all [isTalk, isHarmless]

theorem not_isExecution_of_isTalk {e : Event} (h : e.isTalk = true) : (!e.isExecution) = true := by
  cases e <;> simp_all [isTalk, isExecution]

theorem not_isRealExecution_of_isHarmless {e : Event} (h : e.isHarmless = true) :
    e.isRealExecution = false := by
  cases e <;> simp_all [isTalk, isHarmless, isRealExecution]

theorem not_isRealExecution_of_not_isExecution {e : Event} (h : (!e.isExecution) = true) :
    e.isRealExecution = false := by
  cases e <;> simp_all [isExecution, isRealExecution]

end Event

namespace Session

/-! ## Growth of the journal -/

/-- From `s` to `t` only events of one kind came into the journal. -/
def Logs (p : Event → Bool) (s t : Session) : Prop :=
  ∃ es, t.journal = s.journal ++ es ∧ ∀ e ∈ es, p e = true

variable {p q : Event → Bool} {s t u : Session}

theorem logs_of_journal_eq (h : t.journal = s.journal) : Logs p s t :=
  ⟨[], by simp [h], by simp⟩

theorem logs_note {e : Event} (h : p e = true) : Logs p s (s.note e) :=
  ⟨[e], rfl, by simpa using h⟩

theorem Logs.trans (h : Logs p s t) (h' : Logs p t u) : Logs p s u := by
  obtain ⟨es, hes, hp⟩ := h
  obtain ⟨es', hes', hp'⟩ := h'
  refine ⟨es ++ es', by rw [hes', hes, List.append_assoc], ?_⟩
  intro e he
  rcases List.mem_append.mp he with he | he
  · exact hp e he
  · exact hp' e he

theorem Logs.mono (h : Logs p s t) (hpq : ∀ e, p e = true → q e = true) : Logs q s t := by
  obtain ⟨es, hes, hp⟩ := h
  exact ⟨es, hes, fun e he => hpq e (hp e he)⟩

theorem Logs.countP_eq_zero {es : List Event} (h : Logs (fun e => !p e) s t)
    (journal : t.journal = s.journal ++ es) : es.countP p = 0 := by
  obtain ⟨es', journal', others⟩ := h
  obtain rfl : es = es' := List.append_cancel_left (journal.symm.trans journal')
  exact List.countP_eq_zero.mpr fun e he => by simpa using others e he

instance logsPreorder (p : Event → Bool) : IsPreorder Session (Logs p) where
  refl _ := logs_of_journal_eq rfl
  trans _ _ _ := Logs.trans

/-! ## Conversations -/

/-- From `s` to `t` there was a conversation with a person and nothing else. -/
structure Conversed (s t : Session) : Prop where
  tree : t.tree = s.tree
  collector : t.collector = s.collector
  scope : t.scope = s.scope
  journal : Logs Event.isTalk s t

instance conversedPreorder : IsPreorder Session Conversed where
  refl _ := ⟨rfl, rfl, rfl, logs_of_journal_eq rfl⟩
  trans _ _ _ h h' :=
    ⟨h'.tree.trans h.tree, h'.collector.trans h.collector, h'.scope.trans h.scope,
      h.journal.trans h'.journal⟩

theorem conversedAll : Run.Compositional (Run.Keeps Conversed) := Run.keepsAll Conversed

theorem conversed_note {e : Event} (h : e.isTalk = true) : Conversed s (s.note e) :=
  ⟨rfl, rfl, rfl, logs_note h⟩

/-! ## Effects held back -/

/-- From `s` to `t` nothing was done that a later execution could not do for the first time: the files
are the same, it is still collected or not, and the journal tells of nothing but harmless events. -/
structure HeldBack (s t : Session) : Prop where
  tree : t.tree = s.tree
  collecting : t.collector.collecting = s.collector.collecting
  journal : Logs Event.isHarmless s t

instance heldBackPreorder : IsPreorder Session HeldBack where
  refl _ := ⟨rfl, rfl, logs_of_journal_eq rfl⟩
  trans _ _ _ h h' :=
    ⟨h'.tree.trans h.tree, h'.collecting.trans h.collecting, h.journal.trans h'.journal⟩

theorem Conversed.heldBack (h : Conversed s t) : HeldBack s t where
  tree := h.tree
  collecting := by rw [h.collector]
  journal := h.journal.mono fun _ => Event.isHarmless_of_isTalk

end Session

/-! ## Persons -/

open Session

/-- A person whose answers change nothing but the record of the conversation. -/
structure Prompter.Quiet (w : Prompter) : Prop where
  ask : ∀ name d, (w.ask name d).Keeps Conversed
  confirm : ∀ message, (w.confirm message).Keeps Conversed

namespace Terminal

theorem answer_conversed (question : String) : (answer question).Keeps Conversed := by
  have note_conversed (e : Event) (h : e.isTalk = true) : (Run.note e).Keeps Conversed :=
    Run.keeps_modify fun _ => conversed_note h
  refine conversedAll.bind (note_conversed _ rfl) fun _ => ?_
  intro s
  rw [Run.on_bind]
  simp only [Run.on_get]
  split
  · refine conversedAll.bind (note_conversed _ rfl) (fun _ => ?_) s
    exact conversedAll.throw _
  · refine ⟨rfl, rfl, rfl, ?_⟩
    exact ⟨[_], rfl, by simp [Event.isTalk]⟩

theorem complain_conversed (message : String) : (complain message).Keeps Conversed :=
  Run.keeps_modify fun _ => conversed_note rfl

theorem confirm_conversed (label : String) (usual : Bool) : (confirm label usual).Keeps Conversed := by
  -- the question is put again after every answer that is none
  have from_conversed (question : String) (fuel : Nat) :
      (confirmFrom question usual fuel).Keeps Conversed := by
    induction fuel with
    | zero => exact conversedAll.throw _
    | succ fuel ih =>
      refine conversedAll.bind (answer_conversed question) fun line => ?_
      split
      · exact conversedAll.pure _
      · exact conversedAll.bind (complain_conversed _) fun _ => ih
  exact Run.keeps_look fun s => from_conversed _ _

theorem prompt_conversed (label : String) (default : Value) : (prompt label default).Keeps Conversed := by
  have from_conversed (question : String) (fuel : Nat) :
      (promptFrom question default fuel).Keeps Conversed := by
    induction fuel with
    | zero => exact conversedAll.throw _
    | succ fuel ih =>
      refine conversedAll.bind (answer_conversed question) fun line => ?_
      split
      · exact ih
      · exact conversedAll.pure _
      · split
        · exact conversedAll.pure _
        · exact conversedAll.bind (complain_conversed _) fun _ => ih
  exact Run.keeps_look fun s => from_conversed _ _

/-- Someone at a terminal changes nothing but the record of the conversation. -/
theorem prompter_quiet : prompter.Quiet where
  ask name d := by
    simp only [prompter]
    split
    · exact conversedAll.bind (confirm_conversed _ _) fun _ => conversedAll.pure _
    · exact prompt_conversed _ _
    · exact prompt_conversed _ _
  confirm message := confirm_conversed message false

end Terminal

end Scaffold
