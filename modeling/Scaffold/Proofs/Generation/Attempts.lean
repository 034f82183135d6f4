import Mathlib.Data.List.Chain
import Scaffold.Proofs.Generation.Limits

/-!
# Attempts at a text

A request for a text is put to a model until a reply passes its checks, a bounded number of times.  The calls
for it are looked at as they went: what they leave behind in the accounts, what they were prompted with, and
what the replies to them make of the request.

The accounts of the session grow by just the replies that came, however the request ends, and the result tells
the same number and the same use.  How it ends is settled by the replies as long as each of them can be
checked.  A reply that cannot be, since a check fails on it instead of finding a fault, ends the request with
the failure of the check: it neither passes nor counts as one that does not.
-/

namespace Scaffold

open Run Session Generator

/-! ## Accounts -/

/-- The replies to calls. -/
def repliesTo (ks : List Consultation) : List Completion := ks.filterMap (·.outcome.toOption)

/-- What replies used together. -/
def usedFor : List Completion → Usage
  | [] => {}
  | reply :: rest => reply.usage.add (usedFor rest)

section Accounts

variable {s t u : Session} {k : Consultation} {ks ks' : List Consultation}

theorem Usage.add_assoc (u v w : Usage) : (u.add v).add w = u.add (v.add w) := by
  simp only [Usage.add, Int.add_assoc]

theorem Usage.add_zero (u : Usage) : u.add {} = u := by
  simp only [Usage.add, Int.add_zero]

theorem Usage.zero_add (u : Usage) : Usage.add {} u = u := by
  simp only [Usage.add, Int.zero_add]

theorem Usage.total_add (u v : Usage) : (u.add v).total = u.total + v.total := by
  simp only [Usage.add, Usage.total]
  omega

theorem usedFor_append (front back : List Completion) :
    usedFor (front ++ back) = (usedFor front).add (usedFor back) := by
  induction front with
  | nil => exact (Usage.zero_add _).symm
  | cons reply front ih =>
    show reply.usage.add (usedFor (front ++ back)) = _
    rw [ih]
    exact (Usage.add_assoc _ _ _).symm

theorem repliesTo_append (ks ks' : List Consultation) :
    repliesTo (ks ++ ks') = repliesTo ks ++ repliesTo ks' := List.filterMap_append

theorem repliesTo_cons_ok {reply : Completion} (replied : k.outcome = .ok reply) :
    repliesTo (k :: ks) = reply :: repliesTo ks := by
  rw [repliesTo, List.filterMap_cons, replied]
  rfl

theorem repliesTo_cons_error {e : Failure} (failed : k.outcome = .error e) :
    repliesTo (k :: ks) = repliesTo ks := by
  rw [repliesTo, List.filterMap_cons, failed]
  rfl

/-- What calls leave behind in a session: themselves, as far as they reached the model, and the replies to them
in the accounts. -/
structure Entered (s : Session) (ks : List Consultation) (t : Session) : Prop where
  made : t.calls = s.calls ++ (ks.filter (·.Reached)).map (·.call)
  calls : t.ledger.calls = s.ledger.calls + (repliesTo ks).length
  tokens : t.ledger.tokens = s.ledger.tokens + (usedFor (repliesTo ks)).total

theorem Entered.nil (s : Session) : Entered s [] s := ⟨by simp, rfl, by simp [repliesTo, usedFor, Usage.total]⟩

theorem Entered.append (h : Entered s ks t) (h' : Entered t ks' u) : Entered s (ks ++ ks') u := by
  refine ⟨?_, ?_, ?_⟩
  · rw [h'.made, h.made, List.filter_append, List.map_append, List.append_assoc]
  · rw [h'.calls, h.calls, repliesTo_append, List.length_append]
    omega
  · rw [h'.tokens, h.tokens, repliesTo_append, usedFor_append, Usage.total_add]
    omega

/-- Calls that lead from one session to another leave behind what each of them does. -/
theorem entered_of_linked (each : ∀ k ∈ ks, Entered k.before [k] k.after)
    (linked : Linked s (ks.map (·.leg)) t) : Entered s ks t := by
  -- by induction on the calls: each begins in the session that those before it left
  induction ks generalizing s with
  | nil =>
    obtain rfl : s = t := linked
    exact .nil s
  | cons k ks ih =>
    obtain ⟨begins, behind⟩ := linked
    have here : Entered s [k] k.after := begins ▸ each k List.mem_cons_self
    exact here.append (ih (fun k' mem => each k' (List.mem_cons_of_mem k mem)) behind)

end Accounts

namespace Ledger

variable (l : Ledger) (m : Limits)

@[simp] theorem calls_noteSpend : (l.noteSpend m).calls = l.calls := by
  unfold noteSpend
  split <;> rfl

@[simp] theorem tokens_noteSpend : (l.noteSpend m).tokens = l.tokens := by
  unfold noteSpend
  split <;> rfl

end Ledger

/-- A call reached the model and got its reply, or it was refused. -/
def Consultation.Answered (k : Consultation) (g : Generator) : Prop :=
  (k.Reached ∧ k.outcome = g.client k.before.calls.length k.call) ∨ k.Refused

namespace Generator

section Consult

variable {g : Generator} {prompt system : String} {temperature : Option Number} {maxTokens : Option Int}
  {budget : Allowance} {s : Session}

theorem consult_answered : (g.consult prompt system temperature maxTokens budget s).Answered g := by
  by_cases admits : (limitsWithin g.limits budget).Admits s.ledger (estimateTokens (system ++ prompt))
  · obtain ⟨replied, reached⟩ := on_complete_admitted admits
    exact .inl ⟨reached, replied⟩
  · exact .inr ((g.consult_lawful prompt system temperature maxTokens budget s).2 admits)

/-- The accounts behind a call that is admitted: the reply is entered, if there is one. -/
theorem ledger_consult (prompt system : String) (temperature : Option Number) (maxTokens : Option Int)
    (admits : (limitsWithin g.limits budget).Admits s.ledger (estimateTokens (system ++ prompt))) :
    let k := g.consult prompt system temperature maxTokens budget s
    k.after.ledger = match k.outcome with
      | .ok reply => (s.ledger.noteSpend (limitsWithin g.limits budget)).record reply.model reply.usage
      | .error _ => s.ledger.noteSpend (limitsWithin g.limits budget) := by
  have admitted := Ledger.refusal?_eq_none_iff.mpr admits
  dsimp only [consult]
  unfold complete
  rw [on_bind_ok (on_get s)]
  unfold Ledger.check
  dsimp only
  rw [admitted]
  dsimp only
  rw [on_bind_ok (on_set _ s), on_bind, on_ofExcept]
  cases g.client s.calls.length _ with
  | ok reply => rfl
  | error e => rfl

theorem consult_entered (prompt system : String) (temperature : Option Number) (maxTokens : Option Int)
    (budget : Allowance) (s : Session) :
    Entered s [g.consult prompt system temperature maxTokens budget s]
      (g.consult prompt system temperature maxTokens budget s).after := by
  obtain ⟨admitted, refused⟩ := g.consult_lawful prompt system temperature maxTokens budget s
  by_cases admits : (limitsWithin g.limits budget).Admits s.ledger (estimateTokens (system ++ prompt))
  · have reached := admitted admits
    have ledger := ledger_consult prompt system temperature maxTokens admits
    have before : (g.consult prompt system temperature maxTokens budget s).before = s := rfl
    -- only the outcome and the session behind the call matter from here on
    generalize g.consult prompt system temperature maxTokens budget s = k at *
    refine ⟨?_, ?_, ?_⟩
    · rw [List.filter_cons_of_pos (by simpa using reached), ← before]
      exact reached
    · rw [ledger]
      cases replied : k.outcome with
      | ok reply =>
        rw [repliesTo_cons_ok replied]
        simp [Ledger.record, repliesTo]
      | error e =>
        rw [repliesTo_cons_error replied]
        exact Ledger.calls_noteSpend _ _
    · rw [ledger]
      cases replied : k.outcome with
      | ok reply =>
        rw [repliesTo_cons_ok replied]
        show _ = s.ledger.tokens + (reply.usage.add {}).total
        rw [Usage.add_zero]
        simp [Ledger.record]
      | error e =>
        rw [repliesTo_cons_error replied]
        simp [repliesTo, usedFor, Usage.total]
  · have no := refused admits
    obtain ⟨message, replied⟩ := no.failed
    have still : (g.consult prompt system temperature maxTokens budget s).after = s := no.still
    have none : repliesTo [g.consult prompt system temperature maxTokens budget s] = [] :=
      repliesTo_cons_error replied
    rw [still]
    refine ⟨?_, ?_, ?_⟩
    · rw [List.filter_cons_of_neg (by simpa using no.not_reached)]
      simp
    · rw [none]
      rfl
    · rw [none]
      exact (Int.add_zero _).symm

end Consult

end Generator

/-! ## Prompts -/

/-- A call that follows another: the reply to that one fails the checks, and the prompt is that of the request,
with the feedback on this reply alone where the request wants it. -/
def Consultation.Follows (d : Demand) (k k' : Consultation) : Prop :=
  ∃ reply report, k.outcome = .ok reply ∧ d.judge reply = .ok report ∧ report.passed = false ∧
    k'.call.prompt = if d.guardrails.onFailure = .retry
      then Prompt.correction d.prompt report.errors (Check.unfence reply.text) else d.prompt

/-! ## Ends -/

namespace Demand

/-- A reply fails the checks of a request. -/
def Fails (d : Demand) (reply : Completion) : Prop := ∃ report, d.judge reply = .ok report ∧ report.passed = false

/-- How a request that allows `left` attempts behind the first ends by what comes of its calls: with the first
reply that passes, or with the first call that fails; and if all that are allowed got replies that fail the
checks, with the fallback, or else by rejecting the last. -/
inductive Settled (d : Demand) (left : Nat) :
    List (Except Failure Completion) → Except Failure Generated → Prop where
  | taken (front : List Completion) (reply : Completion) (report : Check.Report) (r : Generated)
      (few : front.length ≤ left) (failed : ∀ x ∈ front, d.Fails x) (judged : d.judge reply = .ok report)
      (passed : report.passed = true) (text : r.text = Check.unfence reply.text)
      (warnings : r.warnings = report.warnings) (own : r.usedFallback = false) :
    Settled d left (front.map .ok ++ [.ok reply]) (.ok r)
  | stopped (front : List Completion) (e : Failure) (few : front.length ≤ left)
      (failed : ∀ x ∈ front, d.Fails x) :
    Settled d left (front.map .ok ++ [.error e]) (.error e)
  | fellBack (front : List Completion) (reply : Completion) (r : Generated) (all : front.length = left)
      (failed : ∀ x ∈ front, d.Fails x) (fails : d.Fails reply) (policy : d.guardrails.onFailure = .fallback)
      (text : d.guardrails.fallback = some r.text) (fallback : r.usedFallback = true) :
    Settled d left (front.map .ok ++ [.ok reply]) (.ok r)
  | rejected (front : List Completion) (reply : Completion) (report : Check.Report) (all : front.length = left)
      (failed : ∀ x ∈ front, d.Fails x) (judged : d.judge reply = .ok report) (fails : report.passed = false)
      (none : d.guardrails.onFailure = .fallback → d.guardrails.fallback = none) :
    Settled d left (front.map .ok ++ [.ok reply]) (.error (.rejected d.key report.errors))

variable {d : Demand} {left : Nat} {calls : List (Except Failure Completion)} {o : Except Failure Generated}
  {reply : Completion}

/-- One more reply that fails in front, and one more attempt that is allowed. -/
theorem Settled.cons (fails : d.Fails reply) (h : Settled d left calls o) :
    Settled d (left + 1) (.ok reply :: calls) o := by
  have all {front : List Completion} (failed : ∀ x ∈ front, d.Fails x) : ∀ x ∈ reply :: front, d.Fails x :=
    List.forall_mem_cons.mpr ⟨fails, failed⟩
  cases h with
  | taken front last report r few failed judged passed text warnings own =>
    exact .taken (reply :: front) last report r (Nat.succ_le_succ few) (all failed) judged passed text warnings own
  | stopped front e few failed => exact .stopped (reply :: front) e (Nat.succ_le_succ few) (all failed)
  | fellBack front last r used failed fails policy text fallback =>
    exact .fellBack (reply :: front) last r (congrArg (· + 1) used) (all failed) fails policy text fallback
  | rejected front last report used failed judged fails none =>
    exact .rejected (reply :: front) last report (congrArg (· + 1) used) (all failed) judged fails none

/-- Where the replies settle how a request ends, each of them can be checked. -/
theorem Settled.judged (h : Settled d left calls o) (mem : .ok reply ∈ calls) :
    ∃ report, d.judge reply = .ok report := by
  have among {front : List Completion} {last : Except Failure Completion} (failed : ∀ x ∈ front, d.Fails x)
      (mem : .ok reply ∈ front.map .ok ++ [last]) :
      (∃ report, d.judge reply = .ok report) ∨ .ok reply = last := by
    rcases List.mem_append.mp mem with before | here
    · obtain ⟨x, mem, same⟩ := List.mem_map.mp before
      obtain ⟨report, judged, -⟩ := failed x mem
      cases same
      exact .inl ⟨report, judged⟩
    · exact .inr (List.mem_singleton.mp here)
  cases h with
  | taken front last report r few failed judged =>
    rcases among failed mem with before | here
    · exact before
    · cases here
      exact ⟨report, judged⟩
  | stopped front e few failed =>
    rcases among failed mem with before | here
    · exact before
    · cases here
  | fellBack front last r used failed fails =>
    rcases among failed mem with before | here
    · exact before
    · cases here
      exact fails.imp fun _ => And.left
  | rejected front last report used failed judged =>
    rcases among failed mem with before | here
    · exact before
    · cases here
      exact ⟨report, judged⟩

end Demand

namespace Generator

variable {g : Generator} {d : Demand}

/-- The calls for a text are no more than are allowed. -/
theorem length_rounds_le (left : Nat) (prompt : String) (s : Session) :
    (g.rounds d left prompt s).length ≤ 1 + left := by
  refine attempts_induction (P := fun left _ _ _ _ ks _ => ks.length ≤ 1 + left) ?_ ?_ left 0 prompt {} .zero s
  · intro left made prompt used s o ends
    exact Nat.le_add_right 1 left
  · intro left made prompt used s reply report ks o replied judged fails few
    rw [List.length_cons]
    omega

theorem rounds_entered (left : Nat) (prompt : String) (s : Session) :
    ∀ k ∈ g.rounds d left prompt s, k.Answered g ∧ Entered k.before [k] k.after := by
  intro k mem
  obtain ⟨prompt', s', rfl⟩ := mem_rounds mem
  exact ⟨consult_answered, consult_entered _ _ _ _ _ _⟩

/-- The first call has the prompt at hand, and each other follows the one before it, if the prompt at hand is that
of the request wherever no feedback is given. -/
theorem rounds_prompts (left : Nat) (prompt : String) (s : Session)
    (start : d.guardrails.onFailure = .retry ∨ prompt = d.prompt) :
    (∀ k ∈ (g.rounds d left prompt s).head?, k.call.prompt = prompt) ∧
      (g.rounds d left prompt s).IsChain (Consultation.Follows d) := by
  revert start
  refine attempts_induction (P := fun _ _ prompt _ _ ks _ =>
    d.guardrails.onFailure = .retry ∨ prompt = d.prompt →
      (∀ k ∈ ks.head?, k.call.prompt = prompt) ∧ ks.IsChain (Consultation.Follows d))
    ?_ ?_ left 0 prompt {} .zero s
  · intro left made prompt used s o ends start
    refine ⟨?_, List.isChain_singleton _⟩
    rintro k ⟨⟩
    rfl
  · intro left made prompt used s reply report ks o replied judged fails behind start
    -- feedback is put behind the prompt of the request, and a prompt without it is handed on as it is
    have next : nextPrompt d prompt (Check.unfence reply.text) report.errors =
        if d.guardrails.onFailure = .retry
          then Prompt.correction d.prompt report.errors (Check.unfence reply.text) else d.prompt := by
      unfold nextPrompt
      rcases start with retry | same
      · rw [retry, if_pos rfl]
      · rw [same]
        cases d.guardrails.onFailure <;> rfl
    rw [next] at behind
    obtain ⟨first, further⟩ := behind (by
      by_cases retry : d.guardrails.onFailure = .retry
      · exact .inl retry
      · exact .inr (if_neg retry))
    refine ⟨?_, further.cons fun k mem => ⟨reply, report, replied, judged, fails, first k mem⟩⟩
    rintro k ⟨⟩
    rfl

/-- The result of attempts counts the replies that came, behind those before, and what they used. -/
theorem attempts_counted (left made : Nat) (prompt : String) (used : Usage) (spent : Binary64) (s : Session) :
    ∀ r, ((g.attempts d left made prompt used spent).on s).1 = .ok r →
      r.attempts = made + (repliesTo (g.rounds d left prompt s)).length ∧
        r.usage = used.add (usedFor (repliesTo (g.rounds d left prompt s))) := by
  refine attempts_induction (P := fun _ made _ used _ ks o => ∀ r, o.1 = .ok r →
    r.attempts = made + (repliesTo ks).length ∧ r.usage = used.add (usedFor (repliesTo ks)))
    ?_ ?_ left made prompt used spent s
  · intro left made prompt used s o ends r same
    dsimp only at same
    generalize g.attempt d prompt s = k at *
    have one (reply : Completion) (replied : .ok reply = k.outcome) :
        made + 1 = made + (repliesTo [k]).length ∧
          used.add reply.usage = used.add (usedFor (repliesTo [k])) := by
      rw [repliesTo_cons_ok replied.symm]
      refine ⟨rfl, ?_⟩
      show _ = used.add (reply.usage.add {})
      rw [Usage.add_zero]
    generalize outcome : k.outcome = c at *
    cases ends with
    | failed e => cases same
    | unchecked reply f judged => cases same
    | passed reply report cost judged passed =>
      cases same
      exact one reply rfl
    | fellBack reply report cost text last judged fails there =>
      cases same
      exact one reply rfl
    | rejected reply report last judged fails none => cases same
  · intro left made prompt used s reply report ks o replied judged fails behind r same
    obtain ⟨attempts, usage⟩ := behind r same
    rw [repliesTo_cons_ok replied, attempts, usage]
    refine ⟨?_, Usage.add_assoc _ _ _⟩
    rw [List.length_cons]
    omega

/-- Where each reply can be checked, the replies settle how attempts end. -/
theorem attempts_settled (left made : Nat) (prompt : String) (used : Usage) (spent : Binary64) (s : Session)
    (checked : ∀ reply ∈ repliesTo (g.rounds d left prompt s), ∃ report, d.judge reply = .ok report) :
    d.Settled left ((g.rounds d left prompt s).map (·.outcome))
      ((g.attempts d left made prompt used spent).on s).1 := by
  revert checked
  refine attempts_induction (P := fun left _ _ _ _ ks o =>
    (∀ reply ∈ repliesTo ks, ∃ report, d.judge reply = .ok report) → d.Settled left (ks.map (·.outcome)) o.1)
    ?_ ?_ left made prompt used spent s
  · intro left made prompt used s o ends checked
    have nothing : ∀ x ∈ ([] : List Completion), d.Fails x := List.forall_mem_nil _
    show d.Settled left [(g.attempt d prompt s).outcome] o
    have sure {reply : Completion} (replied : (g.attempt d prompt s).outcome = .ok reply) :
        ∃ report, d.judge reply = .ok report := by
      refine checked reply ?_
      rw [repliesTo_cons_ok replied]
      exact List.mem_cons_self
    generalize (g.attempt d prompt s).outcome = outcome at *
    cases ends with
    | failed e => exact .stopped [] e (Nat.zero_le _) nothing
    | unchecked reply f failed =>
      -- the one end that replies do not settle, excluded by what is assumed of them
      obtain ⟨report, judged⟩ := sure rfl
      rw [failed] at judged
      cases judged
    | passed reply report cost judged passed =>
      exact .taken [] reply report _ (Nat.zero_le _) nothing judged passed rfl rfl rfl
    | fellBack reply report cost text last judged fails there =>
      obtain ⟨policy, text⟩ := fallback?_eq_some.mp there
      exact .fellBack [] reply _ last.symm nothing ⟨report, judged, fails⟩ policy text rfl
    | rejected reply report last judged fails none =>
      exact .rejected [] reply report last.symm nothing judged fails (fallback?_eq_none.mp none)
  · intro left made prompt used s reply report ks o replied judged fails behind checked
    rw [repliesTo_cons_ok replied] at checked
    rw [List.map_cons, replied]
    exact (behind (List.forall_mem_cons.mp checked).2).cons ⟨report, judged, fails⟩

/-! ## Requests -/

/-- How a request is put to a model, whatever comes of it: by no more calls than it allows, which are all that
happens in the session; with its own prompt first, and then with the feedback on the reply just before; and with
the replies entered in the accounts and told by the result, if there is one. -/
structure Conducted (g : Generator) (d : Demand) (s : Session) (ks : List Consultation)
    (o : Except Failure Generated × Session) : Prop where
  linked : Linked s (ks.map (·.leg)) o.2
  answered : ∀ k ∈ ks, k.Answered g
  few : ks.length ≤ 1 + d.guardrails.retries.toNat
  first : ∀ k ∈ ks.head?, k.call.prompt = d.prompt
  further : ks.IsChain (Consultation.Follows d)
  entered : Entered s ks o.2
  counted : ∀ r, o.1 = .ok r → r.attempts = (repliesTo ks).length ∧ r.usage = usedFor (repliesTo ks)

/-- A request is conducted by its calls, and so puts at most one call and its retries to the model.  It ends as
the replies to them settle exactly if each reply that comes can be checked. -/
theorem generate_settled_iff (g : Generator) (d : Demand) (s : Session) :
    let ks := g.rounds d d.guardrails.retries.toNat d.prompt s
    let o := (g.generate d).on s
    Conducted g d s ks o ∧ o.2.calls.length ≤ s.calls.length + (1 + d.guardrails.retries.toNat) ∧
      (d.Settled d.guardrails.retries.toNat (ks.map (·.outcome)) o.1 ↔
        ∀ reply ∈ repliesTo ks, ∃ report, d.judge reply = .ok report) := by
  dsimp only
  unfold generate
  have linked := linked_rounds (g := g) (d := d) d.guardrails.retries.toNat 0 d.prompt {} .zero s
  have few := length_rounds_le (g := g) (d := d) d.guardrails.retries.toNat d.prompt s
  have each := rounds_entered (g := g) (d := d) d.guardrails.retries.toNat d.prompt s
  have counted := attempts_counted (g := g) (d := d) d.guardrails.retries.toNat 0 d.prompt {} .zero s
  obtain ⟨first, further⟩ := rounds_prompts (g := g) d.guardrails.retries.toNat d.prompt s (.inr rfl)
  have entered := entered_of_linked (fun k mem => (each k mem).2) linked
  refine ⟨⟨linked, fun k mem => (each k mem).1, few, first, further, entered, fun r same => ?_⟩, ?_, ?_, ?_⟩
  · obtain ⟨attempts, usage⟩ := counted r same
    rw [Nat.zero_add] at attempts
    rw [Usage.zero_add] at usage
    exact ⟨attempts, usage⟩
  · rw [entered.made, List.length_append, List.length_map]
    exact Nat.add_le_add_left (Nat.le_trans (List.length_filter_le _ _) few) _
  · -- a reply that came is the outcome of a call
    intro settled reply mem
    obtain ⟨k, mem, replied⟩ := List.mem_filterMap.mp mem
    refine settled.judged (List.mem_map.mpr ⟨k, mem, ?_⟩)
    cases outcome : k.outcome with
    | error e =>
      rw [outcome] at replied
      cases replied
    | ok reply' =>
      rw [outcome] at replied
      cases replied
      rfl
  · exact attempts_settled _ _ _ _ _ _

end Generator

/-! ## A day that no month has -/

namespace Misdated

def replyOf (text : String) : Completion := { text, model := "fake", usage := { input := 10, output := 5 } }

/-- A model whose first reply is given, and whose others hold a good date. -/
def generator (first : String) : Generator where
  client earlier _ := .ok (replyOf (if earlier = 0 then first else "date: 2020-01-02"))

/-- A text in YAML, for which the model is asked once more if need be. -/
def request : Demand where
  key := "release"
  prompt := "When was it released?"
  guardrails := { syntaxOf := some "yaml", retries := 1 }

/-- The calls where the first reply is given. -/
def calls (first : String) : List Consultation :=
  (generator first).rounds request request.guardrails.retries.toNat request.prompt {}

/-- The end where the first reply is given. -/
def ended (first : String) : Except Failure Generated × Session := ((generator first).generate request).on {}

theorem judge_misdated :
    request.judge (replyOf "date: 2020-13-45") = .error (.badValue "month must be in 1..12") := by
  decide +kernel

theorem outcomes_misdated :
    (calls "date: 2020-13-45").map (·.outcome) = [.ok (replyOf "date: 2020-13-45")] := by
  decide +kernel

/-- A day that no month has ends the request, although one more reply was allowed. -/
theorem unsettled :
    ¬request.Settled 1 ((calls "date: 2020-13-45").map (·.outcome)) (ended "date: 2020-13-45").1 := by
  intro settled
  rw [outcomes_misdated] at settled
  obtain ⟨report, judged⟩ := settled.judged List.mem_cons_self
  rw [judge_misdated] at judged
  cases judged

theorem judge_unclosed :
    request.judge (replyOf "date: [2020") = .ok { errors := ["Invalid YAML: expected ',' or ']'"] } := by
  decide +kernel

theorem judge_dated : request.judge (replyOf "date: 2020-01-02") = .ok {} := by decide +kernel

theorem replies_unclosed :
    repliesTo (calls "date: [2020") = [replyOf "date: [2020", replyOf "date: 2020-01-02"] := by
  decide +kernel

theorem replies_misdated : repliesTo (calls "date: 2020-13-45") = [replyOf "date: 2020-13-45"] := by
  have replied := congrArg (List.filterMap Except.toOption) outcomes_misdated
  rwa [List.filterMap_map] at replied

/-- A list that is not closed is a fault, for which the model is asked once more; the day that no month has ends
the request at once.  The accounts are right either way. -/
theorem asked_again_or_ended :
    (request.Settled 1 ((calls "date: [2020").map (·.outcome)) (ended "date: [2020").1 ∧
        (ended "date: [2020").2.ledger.calls = 2 ∧ (ended "date: [2020").2.ledger.tokens = 30) ∧
      ¬request.Settled 1 ((calls "date: 2020-13-45").map (·.outcome)) (ended "date: 2020-13-45").1 ∧
        (ended "date: 2020-13-45").2.ledger.calls = 1 ∧ (ended "date: 2020-13-45").2.ledger.tokens = 15 := by
  have told (first : String) (replies : List Completion) (came : repliesTo (calls first) = replies) :
      (request.Settled 1 ((calls first).map (·.outcome)) (ended first).1 ↔
          ∀ reply ∈ replies, ∃ report, request.judge reply = .ok report) ∧
        (ended first).2.ledger.calls = replies.length ∧ (ended first).2.ledger.tokens = (usedFor replies).total := by
    subst came
    obtain ⟨conducted, -, settled⟩ := generate_settled_iff (generator first) request {}
    have conducted : Conducted (generator first) request {} (calls first) (ended first) := conducted
    refine ⟨settled, ?_, ?_⟩
    · rw [conducted.entered.calls]
      exact Nat.zero_add _
    · rw [conducted.entered.tokens]
      exact Int.zero_add _
  obtain ⟨settled, again⟩ := told _ _ replies_unclosed
  obtain ⟨settled', once⟩ := told _ _ replies_misdated
  refine ⟨⟨settled.mpr ?_, again⟩, fun ends => ?_, once⟩
  · exact List.forall_mem_cons.mpr ⟨⟨_, judge_unclosed⟩, List.forall_mem_singleton.mpr ⟨_, judge_dated⟩⟩
  · obtain ⟨report, judged⟩ := settled'.mp ends _ List.mem_cons_self
    rw [judge_misdated] at judged
    cases judged

end Misdated

end Scaffold
