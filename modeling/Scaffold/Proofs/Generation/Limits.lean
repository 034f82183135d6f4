import Mathlib.Data.List.Basic
import Scaffold.Generation
import Scaffold.Proofs.Session.Runs

/-!
# Limits on the calls of a model

A call of a model is held to limits before it is made.  Where they admit it, it reaches the model; where
they do not, it is refused and the session stays exactly as it is, its accounts included.  This is so for
every call that is put on behalf of a step or of a batch, for the first attempt at a text as for those
behind it.

The limits that count are those of the session, but a limit that a step has of its own stands in their
place.  So the limits of the session are kept exactly by the steps whose own limits are reached no later:
a step with a looser limit calls the model although the session has used up what it may.
-/

namespace Scaffold

open Run Session

/-! ## Limits -/

/-- A call of an estimated size breaks no limit: with it the tokens stay within theirs, and what was
spent has not reached that for the costs. -/
structure Limits.Admits (m : Limits) (l : Ledger) (estimate : Nat) : Prop where
  tokens : ∀ n, m.maxTokens = some n → l.tokens + estimate ≤ n
  cost : ∀ c, m.maxCost = some c → c.le (.float l.cost) = false

/-- The limits of a step are reached no later than those of the session, where both have them. -/
structure Allowance.Within (b : Allowance) (m : Limits) : Prop where
  tokens : ∀ n k, m.maxTokens = some n → b.maxTokens = some k → k ≤ n
  cost : ∀ c d, m.maxCost = some c → b.maxCost = some d →
    ∀ spent, c.le (.float spent) = true → (Number.float d).le (.float spent) = true

section Limits

variable {m : Limits} {b : Allowance} {l : Ledger} {estimate : Nat}

theorem Ledger.refusal?_eq_none_iff : l.refusal? m estimate = none ↔ m.Admits l estimate := by
  unfold refusal?
  constructor
  · intro none
    split at none
    · cases none
    next tokens =>
      refine ⟨fun n hn => ?_, fun c hc => ?_⟩
      · have kept := Option.filter_eq_none_iff.mp tokens n hn
        simpa using kept
      · have kept := Option.filter_eq_none_iff.mp (Option.map_eq_none_iff.mp none) c hc
        simpa using kept
  · intro admits
    have tokens : (m.maxTokens.filter fun n => n < l.tokens + estimate) = none :=
      Option.filter_eq_none_iff.mpr fun n hn => by simpa using admits.tokens n hn
    rw [tokens]
    exact Option.map_eq_none_iff.mpr
      (Option.filter_eq_none_iff.mpr fun c hc => by simpa using admits.cost c hc)

/-- What the limits of a step admit those of the session admit, if they are reached no later. -/
theorem Allowance.Within.admits (h : b.Within m)
    (admits : (Generator.limitsWithin m b).Admits l estimate) : m.Admits l estimate := by
  refine ⟨fun n hn => ?_, fun c hc => ?_⟩
  · cases own : b.maxTokens with
    | none => exact admits.tokens n (by simp [Generator.limitsWithin, own, hn])
    | some k =>
      have within : l.tokens + estimate ≤ k :=
        admits.tokens k (by simp [Generator.limitsWithin, own])
      exact Int.le_trans within (h.tokens n k hn own)
  · cases own : b.maxCost with
    | none => exact admits.cost c (by simp [Generator.limitsWithin, own, hc])
    | some d =>
      have below : (Number.float d).le (.float l.cost) = false :=
        admits.cost (.float d) (by simp [Generator.limitsWithin, own])
      rw [Bool.eq_false_iff]
      intro reached
      rw [h.cost c d hc own l.cost reached] at below
      cases below

/-- If all that the limits of a step admit is admitted by those of the session, they are reached no
later.  A spend that is no number is below every limit, and so the tokens alone can decide. -/
theorem Allowance.within_of_admits
    (h : ∀ l : Ledger, (Generator.limitsWithin m b).Admits l 0 → m.Admits l 0) : b.Within m := by
  refine ⟨fun n k hn own => ?_, fun c d hc own spent reached => ?_⟩
  · have admits : (Generator.limitsWithin m b).Admits { tokens := k, cost := .nan } 0 := by
      refine ⟨fun n' hn' => ?_, fun c _ => ?_⟩
      · obtain rfl : k = n' := by simpa [Generator.limitsWithin, own] using hn'
        simp
      · rcases c with n | x
        · rfl
        · cases x <;> rfl
    simpa using (h _ admits).tokens n hn
  · by_contra late
    rw [Bool.not_eq_true] at late
    have admits : (Generator.limitsWithin m b).Admits
        { tokens := (Generator.limitsWithin m b).maxTokens.getD 0, cost := spent } 0 := by
      refine ⟨fun n hn => by simp [hn], fun c' hc' => ?_⟩
      obtain rfl : Number.float d = c' := by simpa [Generator.limitsWithin, own] using hc'
      exact late
    have below : c.le (.float spent) = false := (h _ admits).cost c hc
    rw [reached] at below
    cases below

end Limits

/-! ## Calls that were to be made -/

/-- A call that was to be put to a model, as it went. -/
structure Consultation where
  call : ModelCall
  budget : Allowance
  before : Session
  outcome : Except Failure Completion
  after : Session

namespace Consultation

variable (k : Consultation)

/-- The size that is reckoned with. -/
def estimate : Nat := estimateTokens (k.call.system ++ k.call.prompt)

/-- The call reached the model. -/
def Reached : Prop := k.after.calls = k.before.calls ++ [k.call]

instance : Decidable k.Reached := inferInstanceAs (Decidable (_ = _))

/-- The call reached nobody, and all is as it was. -/
structure Refused : Prop where
  still : k.after = k.before
  failed : ∃ message, k.outcome = .error (.budget message)

/-- The way from the session before to the session after. -/
def leg : Leg := ⟨.apart, k.before, k.after⟩

/-- The call reached the model where the limits that bind its step admit it, and was refused where they
do not. -/
def Lawful (g : Generator) : Prop :=
  let m := Generator.limitsWithin g.limits k.budget
  (m.Admits k.before.ledger k.estimate → k.Reached) ∧
    (¬m.Admits k.before.ledger k.estimate → k.Refused)

variable {k} {g : Generator}

theorem Refused.not_reached (h : k.Refused) : ¬k.Reached := by
  intro reached
  rw [Reached, h.still] at reached
  simpa using congrArg List.length reached

theorem Lawful.admits (h : k.Lawful g) (reached : k.Reached) :
    (Generator.limitsWithin g.limits k.budget).Admits k.before.ledger k.estimate := by
  by_contra breaks
  exact (h.2 breaks).not_reached reached

end Consultation

/-- What the checks of a request find in a reply. -/
def Demand.judge (d : Demand) (reply : Completion) : Except Failure Check.Report :=
  d.guardrails.check (Check.unfence reply.text)

namespace Generator

variable (g : Generator)

/-- One call. -/
def consult (prompt system : String) (temperature : Option Number) (maxTokens : Option Int)
    (budget : Allowance) (s : Session) : Consultation :=
  let o := (g.complete prompt system temperature maxTokens budget).on s
  { call :=
      { system, prompt, temperature := temperature.getD g.temperature
        maxTokens := counted maxTokens g.maxTokens }
    budget, before := s, outcome := o.1, after := o.2 }

theorem calls_note (s : Session) (c : ModelCall) : (s.note (.called c)).calls = s.calls ++ [c] := by
  simp [Session.calls, Session.note]

section Consult

variable {g} {prompt system : String} {temperature : Option Number} {maxTokens : Option Int}
  {budget : Allowance} {s : Session}

/-- A call that the limits admit is made: its outcome is what the model replies. -/
theorem on_complete_admitted
    (h : (limitsWithin g.limits budget).Admits s.ledger (estimateTokens (system ++ prompt))) :
    let k := g.consult prompt system temperature maxTokens budget s
    k.outcome = g.client s.calls.length k.call ∧ k.after.calls = s.calls ++ [k.call] := by
  have admitted := Ledger.refusal?_eq_none_iff.mpr h
  dsimp only [consult]
  unfold complete
  rw [on_bind_ok (on_get s)]
  unfold Ledger.check
  dsimp only
  rw [admitted]
  dsimp only
  rw [on_bind_ok (on_set _ s), on_bind, on_ofExcept]
  -- it is noted before it is made, and the accounts behind it do not touch the note
  cases g.client s.calls.length _ with
  | ok reply => exact ⟨rfl, calls_note _ _⟩
  | error e => exact ⟨rfl, calls_note _ _⟩

/-- A call that the limits do not admit comes to nothing. -/
theorem on_complete_refused (temperature : Option Number) (maxTokens : Option Int)
    (h : ¬(limitsWithin g.limits budget).Admits s.ledger (estimateTokens (system ++ prompt))) :
    ∃ message, (g.complete prompt system temperature maxTokens budget).on s =
      (.error (.budget message), s) := by
  obtain ⟨r, refused⟩ := Option.ne_none_iff_exists'.mp (mt Ledger.refusal?_eq_none_iff.mp h)
  refine ⟨r.message, ?_⟩
  unfold complete
  rw [on_bind_ok (on_get s)]
  unfold Ledger.check
  dsimp only
  rw [refused]
  rfl

end Consult

theorem consult_lawful (prompt system : String) (temperature : Option Number) (maxTokens : Option Int)
    (budget : Allowance) (s : Session) :
    (g.consult prompt system temperature maxTokens budget s).Lawful g := by
  refine ⟨fun admitted => (on_complete_admitted admitted).2, fun breaks => ?_⟩
  obtain ⟨message, refused⟩ := on_complete_refused temperature maxTokens breaks
  exact ⟨congrArg Prod.snd refused, message, congrArg Prod.fst refused⟩

/-- The prompt of the next attempt at a text, if the one before got a reply that fails the checks. -/
def onward? (d : Demand) (prompt : String) : Except Failure Completion → Option String
  | .error _ => none
  | .ok reply =>
    let text := Check.unfence reply.text
    match d.guardrails.check text with
    | .error _ => none
    | .ok report => if report.passed then none else some (nextPrompt d prompt text report.errors)

/-- One attempt at a text. -/
def attempt (d : Demand) (prompt : String) (s : Session) : Consultation :=
  g.consult prompt ((filled? d.system).getD defaultSystem) d.temperature d.maxTokens d.budget s

/-- The attempts at a text, `left` of which may follow the first. -/
def rounds (d : Demand) : (left : Nat) → (prompt : String) → Session → List Consultation
  | 0, prompt, s => [g.attempt d prompt s]
  | left + 1, prompt, s =>
    let k := g.attempt d prompt s
    match onward? d prompt k.outcome with
    | some next => k :: rounds d left next k.after
    | none => [k]

theorem fallback?_eq_some {g : Guardrails} {x : String} :
    fallback? g = some x ↔ g.onFailure = .fallback ∧ g.fallback = some x := by
  unfold fallback?
  cases g.onFailure <;> simp

theorem fallback?_eq_none {g : Guardrails} :
    fallback? g = none ↔ (g.onFailure = .fallback → g.fallback = none) := by
  unfold fallback?
  cases g.onFailure <;> simp

/-- How a request ends at the reply to an attempt, behind `made` others that used `used`, if it does. -/
inductive Ends (d : Demand) (left made : Nat) (used : Usage) :
    Except Failure Completion → Except Failure Generated → Prop where
  | failed (e : Failure) : Ends d left made used (.error e) (.error e)
  | unchecked (reply : Completion) (f : Failure) (judged : d.judge reply = .error f) :
    Ends d left made used (.ok reply) (.error f)
  | passed (reply : Completion) (report : Check.Report) (cost : Binary64) (judged : d.judge reply = .ok report)
      (passed : report.passed = true) :
    Ends d left made used (.ok reply) (.ok
      { text := Check.unfence reply.text, attempts := made + 1, usage := used.add reply.usage, cost
        warnings := report.warnings })
  | fellBack (reply : Completion) (report : Check.Report) (cost : Binary64) (text : String) (last : left = 0)
      (judged : d.judge reply = .ok report) (fails : report.passed = false)
      (there : fallback? d.guardrails = some text) :
    Ends d left made used (.ok reply) (.ok
      { text, attempts := made + 1, usage := used.add reply.usage, cost, usedFallback := true })
  | rejected (reply : Completion) (report : Check.Report) (last : left = 0) (judged : d.judge reply = .ok report)
      (fails : report.passed = false) (none : fallback? d.guardrails = none) :
    Ends d left made used (.ok reply) (.error (.rejected d.key report.errors))

section Rounds

variable {g} {d : Demand}

/-- A call for a text is one attempt at it. -/
theorem mem_rounds {left : Nat} {prompt : String} {s : Session} {k : Consultation}
    (h : k ∈ g.rounds d left prompt s) : ∃ prompt' s', k = g.attempt d prompt' s' := by
  induction left generalizing prompt s with
  | zero => exact ⟨prompt, s, List.mem_singleton.mp h⟩
  | succ left ih =>
    unfold rounds at h
    dsimp only at h
    split at h
    next next _ =>
      rcases List.mem_cons.mp h with first | later
      · exact ⟨prompt, s, first⟩
      · exact ih later
    next => exact ⟨prompt, s, List.mem_singleton.mp h⟩

/-- The attempts at a text, by the outcome of the first. -/
theorem on_attempts (left made : Nat) (prompt : String) (used : Usage) (spent : Binary64) (s : Session) :
    (g.attempts d left made prompt used spent).on s =
      match (g.attempt d prompt s).outcome with
      | .error e => (.error e, (g.attempt d prompt s).after)
      | .ok reply =>
        match d.judge reply with
        | .error f => (.error f, (g.attempt d prompt s).after)
        | .ok report =>
          let used := used.add reply.usage
          let cost := spent.add ((g.attempt d prompt s).after.ledger.costOf reply.model reply.usage)
          if report.passed then
            (.ok { text := Check.unfence reply.text, attempts := made + 1, usage := used, cost
                   warnings := report.warnings }, (g.attempt d prompt s).after)
          else
            match left with
            | left + 1 =>
              (g.attempts d left (made + 1) (nextPrompt d prompt (Check.unfence reply.text) report.errors) used
                cost).on (g.attempt d prompt s).after
            | 0 =>
              match fallback? d.guardrails with
              | some text =>
                (.ok { text, attempts := made + 1, usage := used, cost, usedFallback := true },
                  (g.attempt d prompt s).after)
              | none => (.error (.rejected d.key report.errors), (g.attempt d prompt s).after) := by
  have ran : (g.complete prompt ((filled? d.system).getD defaultSystem) d.temperature d.maxTokens d.budget).on s =
    ((g.attempt d prompt s).outcome, (g.attempt d prompt s).after) := rfl
  generalize g.attempt d prompt s = k at *
  cases replied : k.outcome with
  | error e =>
    rw [replied] at ran
    cases left <;> exact on_bind_error ran _
  | ok reply =>
    rw [replied] at ran
    cases left
    all_goals
      refine ((on_bind_ok ran _).trans (on_bind_ok (on_get k.after) _)).trans ?_
      rw [on_bind, on_ofExcept]
      dsimp only [Demand.judge]
      cases d.guardrails.check (Check.unfence reply.text) with
      | error f => rfl
      | ok report =>
        dsimp only
        cases report.passed with
        | true => rfl
        | false => first | rfl | (cases fallback? d.guardrails <;> rfl)

/-- An attempt ends the request by the reply to it, or the attempts go on from the session that it left. -/
theorem attempts_cases (left made : Nat) (prompt : String) (used : Usage) (spent : Binary64) (s : Session) :
    (∃ o, Ends d left made used (g.attempt d prompt s).outcome o ∧
        g.rounds d left prompt s = [g.attempt d prompt s] ∧
        (g.attempts d left made prompt used spent).on s = (o, (g.attempt d prompt s).after)) ∨
      ∃ left' reply report next spent', left = left' + 1 ∧ (g.attempt d prompt s).outcome = .ok reply ∧
        d.judge reply = .ok report ∧ report.passed = false ∧
        next = nextPrompt d prompt (Check.unfence reply.text) report.errors ∧
        g.rounds d left prompt s =
          g.attempt d prompt s :: g.rounds d left' next (g.attempt d prompt s).after ∧
        (g.attempts d left made prompt used spent).on s =
          (g.attempts d left' (made + 1) next (used.add reply.usage) spent').on
            (g.attempt d prompt s).after := by
  have rounds_last (ends : left = 0 ∨ onward? d prompt (g.attempt d prompt s).outcome = none) :
      g.rounds d left prompt s = [g.attempt d prompt s] := by
    cases left with
    | zero => rfl
    | succ left => rw [rounds, ends.resolve_left (Nat.succ_ne_zero left)]
  rw [on_attempts]
  cases replied : (g.attempt d prompt s).outcome with
  | error e =>
    refine .inl ⟨.error e, .failed e, rounds_last (.inr ?_), rfl⟩
    rw [replied, onward?]
  | ok reply =>
    dsimp only
    cases judged : d.judge reply with
    | error f =>
      refine .inl ⟨.error f, .unchecked reply f judged, rounds_last (.inr ?_), rfl⟩
      rw [replied, onward?, ← Demand.judge, judged]
    | ok report =>
      dsimp only
      cases passed : report.passed with
      | true =>
        refine .inl ⟨_, .passed reply report _ judged passed, rounds_last (.inr ?_), rfl⟩
        rw [replied, onward?, ← Demand.judge, judged]
        exact if_pos passed
      | false =>
        rw [if_neg Bool.false_ne_true]
        cases left with
        | zero =>
          dsimp only
          cases there : fallback? d.guardrails with
          | none => exact .inl ⟨_, .rejected reply report rfl judged passed there, rfl, rfl⟩
          | some text => exact .inl ⟨_, .fellBack reply report _ text rfl judged passed there, rfl, rfl⟩
        | succ left =>
          refine .inr ⟨left, reply, report, _, _, rfl, rfl, judged, passed, rfl, ?_, rfl⟩
          rw [rounds, replied, onward?, ← Demand.judge, judged]
          dsimp only
          rw [passed, if_neg Bool.false_ne_true]

/-- What holds of an attempt that ends a request, and of one more in front of those of which it holds, holds of
all the attempts at a text. -/
theorem attempts_induction
    {P : (left made : Nat) → String → Usage → Session → List Consultation →
      Except Failure Generated × Session → Prop}
    (last : ∀ left made prompt used s o, Ends d left made used (g.attempt d prompt s).outcome o →
      P left made prompt used s [g.attempt d prompt s] (o, (g.attempt d prompt s).after))
    (onward : ∀ left made prompt used s reply report ks o, (g.attempt d prompt s).outcome = .ok reply →
      d.judge reply = .ok report → report.passed = false →
      P left (made + 1) (nextPrompt d prompt (Check.unfence reply.text) report.errors) (used.add reply.usage)
        (g.attempt d prompt s).after ks o →
      P (left + 1) made prompt used s (g.attempt d prompt s :: ks) o)
    (left made : Nat) (prompt : String) (used : Usage) (spent : Binary64) (s : Session) :
    P left made prompt used s (g.rounds d left prompt s) ((g.attempts d left made prompt used spent).on s) := by
  induction left generalizing made prompt used spent s with
  | zero =>
    rcases attempts_cases 0 made prompt used spent s with ⟨o, ends, calls, ran⟩ | ⟨_, _, _, _, _, more, -⟩
    · rw [calls, ran]
      exact last 0 made prompt used s o ends
    · cases more
  | succ left ih =>
    rcases attempts_cases (left + 1) made prompt used spent s with
      ⟨o, ends, calls, ran⟩ |
      ⟨left', reply, report, next, spent', more, replied, judged, fails, rfl, calls, ran⟩
    · rw [calls, ran]
      exact last (left + 1) made prompt used s o ends
    · obtain rfl := Nat.succ.inj more
      rw [calls, ran]
      exact onward left made prompt used s reply report _ _ replied judged fails (ih _ _ _ _ _)

/-- The calls for a text lead from the session before to the session after: nothing else happens. -/
theorem linked_rounds (left made : Nat) (prompt : String) (used : Usage) (spent : Binary64)
    (s : Session) :
    Linked s ((g.rounds d left prompt s).map (·.leg))
      ((g.attempts d left made prompt used spent).on s).2 := by
  refine attempts_induction (P := fun _ _ _ _ s ks o => Linked s (ks.map (·.leg)) o.2) ?_ ?_
    left made prompt used spent s
  · intro left made prompt used s o ends
    exact ⟨rfl, rfl⟩
  · intro left made prompt used s reply report ks o replied judged fails linked
    exact ⟨rfl, linked⟩

end Rounds

end Generator

/-! ## Calls of a session -/

/-- What a session asks of a model: a single call, or text for a step. -/
inductive ModelRequest where
  | call (prompt system : String) (temperature : Option Number) (maxTokens : Option Int)
      (budget : Allowance)
  | text (d : Demand)

/-- The limits that a request has of its own. -/
def ModelRequest.budget : ModelRequest → Allowance
  | .call _ _ _ _ budget => budget
  | .text d => d.budget

namespace Generator

variable (g : Generator)

/-- The session after a request. -/
def after : ModelRequest → Session → Session
  | .call prompt system temperature maxTokens budget, s =>
    ((g.complete prompt system temperature maxTokens budget).on s).2
  | .text d, s => ((g.generate d).on s).2

/-- The calls for a request. -/
def callsFor : ModelRequest → Session → List Consultation
  | .call prompt system temperature maxTokens budget, s =>
    [g.consult prompt system temperature maxTokens budget s]
  | .text d, s => g.rounds d d.guardrails.retries.toNat d.prompt s

/-- The session after requests that were put one after the other. -/
def afterAll : List ModelRequest → Session → Session
  | [], s => s
  | r :: rs, s => afterAll rs (g.after r s)

/-- The calls for requests that were put one after the other. -/
def callsForAll : List ModelRequest → Session → List Consultation
  | [], _ => []
  | r :: rs, s => g.callsFor r s ++ callsForAll rs (g.after r s)

section Sequences

variable {g} {r : ModelRequest} {rs : List ModelRequest} {s : Session} {k : Consultation}

/-- A call for a request is one call, held to the limits that the request has of its own. -/
theorem mem_callsFor (h : k ∈ g.callsFor r s) : k.Lawful g ∧ k.budget = r.budget := by
  cases r with
  | call prompt system temperature maxTokens budget =>
    obtain rfl := List.mem_singleton.mp h
    exact ⟨g.consult_lawful _ _ _ _ _ _, rfl⟩
  | text d =>
    obtain ⟨prompt, s', rfl⟩ := mem_rounds h
    exact ⟨g.consult_lawful _ _ _ _ _ _, rfl⟩

theorem linked_callsFor (r : ModelRequest) (s : Session) :
    Linked s ((g.callsFor r s).map (·.leg)) (g.after r s) := by
  cases r with
  | call => exact ⟨rfl, rfl⟩
  | text d => exact linked_rounds _ _ _ _ _ _

theorem mem_callsForAll (h : k ∈ g.callsForAll rs s) : k.Lawful g ∧ ∃ r ∈ rs, k.budget = r.budget := by
  induction rs generalizing s with
  | nil => cases h
  | cons r rs ih =>
    rcases List.mem_append.mp h with first | later
    · exact ⟨(mem_callsFor first).1, r, List.mem_cons_self, (mem_callsFor first).2⟩
    · obtain ⟨lawful, r', mem, same⟩ := ih later
      exact ⟨lawful, r', List.mem_cons_of_mem r mem, same⟩

theorem linked_callsForAll (rs : List ModelRequest) (s : Session) :
    Linked s ((g.callsForAll rs s).map (·.leg)) (g.afterAll rs s) := by
  induction rs generalizing s with
  | nil => rfl
  | cons r rs ih =>
    rw [callsForAll, List.map_append]
    exact (linked_callsFor r s).append (ih (g.after r s))

end Sequences

/-- However requests follow each other, what happens to the session are calls of the model, each of
which reaches it if the limits that bind it admit it and otherwise changes nothing.  A call reaches the
model only where the limits of the session admit it, exactly if no request has limits of its own that
are reached later. -/
theorem limits_kept_iff (budgets : Allowance → Prop) :
    (∀ rs s, Linked s ((g.callsForAll rs s).map (·.leg)) (g.afterAll rs s) ∧
        ∀ k ∈ g.callsForAll rs s, k.Lawful g) ∧
      ((∀ rs, (∀ r ∈ rs, budgets r.budget) → ∀ s, ∀ k ∈ g.callsForAll rs s,
          k.Reached → g.limits.Admits k.before.ledger k.estimate) ↔
        ∀ b, budgets b → b.Within g.limits) := by
  refine ⟨fun rs s => ⟨linked_callsForAll rs s, fun k mem => (mem_callsForAll mem).1⟩, ?_, ?_⟩
  · intro kept b allowed
    refine Allowance.within_of_admits fun l admits => ?_
    -- the call of nothing has no size of its own
    have weightless : estimateTokens ("" ++ "") = 0 := by decide
    rw [← weightless] at admits ⊢
    have lawful := g.consult_lawful "" "" none none b { ledger := l }
    refine kept [.call "" "" none none b] ?_ { ledger := l } _ List.mem_cons_self (lawful.1 admits)
    intro r mem
    obtain rfl := List.mem_singleton.mp mem
    exact allowed
  · intro within rs allowed s k mem reached
    obtain ⟨lawful, r, mem, same⟩ := mem_callsForAll mem
    have below : k.budget.Within g.limits := within _ (same ▸ allowed r mem)
    exact below.admits (lawful.admits reached)

end Generator

/-! ## A step with a looser limit -/

namespace Loosened

/-- A session that may use five tokens. -/
def generator : Generator where
  client _ _ := .ok { text := "a reply", model := "fake", usage := { input := 10, output := 5 } }
  limits := { maxTokens := some 5 }

/-- A call of some twelve tokens, for a step that may use a thousand. -/
def request : ModelRequest :=
  .call "Write the repository for an order" "You write code." none none { maxTokens := some 1000 }

theorem reached : ¬∀ k ∈ generator.callsForAll [request] {},
    k.Reached → generator.limits.Admits k.before.ledger k.estimate := by
  intro kept
  have admits := kept _ List.mem_cons_self (by decide +kernel)
  exact absurd (admits.tokens 5 rfl) (by decide +kernel)

theorem not_within : ¬∀ rs, (∀ r ∈ rs, r.budget = request.budget) → ∀ s,
    ∀ k ∈ generator.callsForAll rs s, k.Reached → generator.limits.Admits k.before.ledger k.estimate := by
  intro kept
  have within := (generator.limits_kept_iff (· = request.budget)).2.mp kept request.budget rfl
  exact absurd (within.tokens 5 1000 rfl rfl) (by decide)

end Loosened

end Scaffold
