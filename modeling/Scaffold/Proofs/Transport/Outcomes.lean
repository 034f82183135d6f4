import Scaffold.Proofs.Generation.Limits
import Scaffold.Proofs.Json.Reading
import Scaffold.Shell.Execution
import Scaffold.Transport

/-!
# What transports come to

A transport resolves the prompts of a request, defers them or fails.  What it resolves has an answer for
each of the keys that were asked for and for no other, whatever a model or a command replied.

It need not come to anything, though: of what goes wrong on the way it takes only failures at its own
work for an outcome, and the others pass.  So a printed document always comes to an outcome.  One call of
a model does so exactly if the limits of the session admit it, and a command exactly if it can be started
for every prompt that is put to it.
-/

namespace Scaffold

open Run

/-! ## Outcomes -/

/-- A failure of a transport at its work. -/
def Failure.IsTransport (e : Failure) : Prop := ∃ m, e = .transport m

/-- An outcome of one of the three kinds for a request of some keys.  What is resolved has an answer for
each of the keys and for no other; what failed did so at the work of the transport. -/
def TransportOutcome.Settles (keys : List String) : TransportOutcome → Prop
  | .resolved answers => answers.keys.Nodup ∧ ∀ k, k ∈ answers.keys ↔ k ∈ keys
  | .deferred _ _ => True
  | .failed e => e.IsTransport
  | .unknown _ => False

/-- A transport comes to an outcome, and nothing passes by it. -/
def Transport.Returns (t : Transport) (q : TransportRequest) (s : Session) : Prop :=
  ∃ o, ((t.resolve q).on s).1 = .ok o

/-- A transport comes to an outcome of one of the three kinds. -/
def Transport.Settled (t : Transport) (q : TransportRequest) (s : Session) : Prop :=
  ∃ o, ((t.resolve q).on s).1 = .ok o ∧ o.Settles q.collector.keys

theorem Transport.returns_iff_settled {t : Transport} {q : TransportRequest} {s : Session}
    (h : ∀ o, ((t.resolve q).on s).1 = .ok o → o.Settles q.collector.keys) :
    t.Returns q s ↔ t.Settled q s :=
  ⟨fun ⟨o, found⟩ => ⟨o, found, h o found⟩, fun ⟨o, found, _⟩ => ⟨o, found⟩⟩

/-- If a run fails, it does so at the work of a transport. -/
def Run.Contained {α : Type} (r : Run α) (s : Session) : Prop :=
  ∀ e, (r.on s).1 = .error e → e.IsTransport

section Contained

variable {α β : Type} {x : Run α} {s t : Session} {a : α} {e : Failure}

theorem contained_of_ok (h : (x.on s).1 = .ok a) : x.Contained s := by
  intro e failed
  rw [h] at failed
  cases failed

theorem contained_iff_of_error (h : (x.on s).1 = .error e) : x.Contained s ↔ e.IsTransport := by
  refine ⟨fun contained => contained e h, fun own e' failed => ?_⟩
  rw [h] at failed
  cases failed
  exact own

theorem contained_bind_of_ok (h : x.on s = (.ok a, t)) (f : α → Run β) :
    (x >>= f).Contained s ↔ (f a).Contained t := by
  unfold Run.Contained
  rw [on_bind_ok h]

theorem contained_bind_of_error (h : x.on s = (.error e, t)) (f : α → Run β) :
    (x >>= f).Contained s ↔ e.IsTransport :=
  contained_iff_of_error (by rw [on_bind_error h])

end Contained

namespace Transport

section Guarded

variable {r : Run TransportOutcome} {s : Session} {o : TransportOutcome}

/-- An outcome behind the guard is the one before it, or that the transport failed at its work. -/
theorem guarded_ok (h : ((guarded r).on s).1 = .ok o) :
    (r.on s).1 = .ok o ∨ ∃ m, o = .failed (.transport m) := by
  unfold guarded at h
  rw [on_bind_ok (on_attempt r s)] at h
  split at h
  next found =>
    cases h
    exact .inl found
  next m _ =>
    cases h
    exact .inr ⟨m, rfl⟩
  next => cases h

/-- Failures of the transport at its work are outcomes; all others pass. -/
theorem guarded_returns_iff : (∃ o, ((guarded r).on s).1 = .ok o) ↔ r.Contained s := by
  unfold guarded Run.Contained
  rw [on_bind_ok (on_attempt r s)]
  rcases (r.on s).1 with e | o
  · cases e with
    | transport m =>
      refine ⟨fun _ e same => ?_, fun _ => ⟨_, rfl⟩⟩
      cases same
      exact ⟨m, rfl⟩
    | _ =>
      refine ⟨fun ⟨o, passed⟩ => ?_, fun contained => ?_⟩
      · cases passed
      · obtain ⟨m, same⟩ := contained _ rfl
        cases same
  · refine ⟨fun _ e same => ?_, fun _ => ⟨o, rfl⟩⟩
    cases same

end Guarded

end Transport

/-! ## Replies -/

/-- A reply has the answers that were asked for, or it is a failure of the transport. -/
theorem batchAnswers_cases (reply : String) (keys : List String) :
    (∃ e, batchAnswers reply keys = .error e ∧ e.IsTransport) ∨
      ∃ r : Record Value, r.keys.Nodup ∧ (∀ k ∈ keys, k ∈ r.keys) ∧
        batchAnswers reply keys =
          .ok ((r.restrict keys.contains).map fun e => (e.1, AnswersFile.asText e.2)) := by
  unfold batchAnswers
  simp only [bind, Except.bind, pure, Except.pure, throw, throwThe, MonadExceptOf.throw]
  split
  next inside _ =>
    cases found : Json.read (String.ofList inside) with
    | error e => exact .inl ⟨_, rfl, _, rfl⟩
    | ok data =>
      cases data with
      | dict es =>
        obtain ⟨r, distinct, rfl⟩ := Json.read_dict found
        simp only [Except.mapError, Entries.toRecord_ofRecord]
        split
        next => exact .inl ⟨_, rfl, _, rfl⟩
        next complete =>
          have all : ∀ k ∈ keys, r.has k = true := by
            simpa [List.filter_eq_nil_iff] using complete
          exact .inr ⟨r, distinct, fun k mem => (r.has_eq_true_iff k).mp (all k mem), rfl⟩
      | _ => exact .inl ⟨_, rfl, _, rfl⟩
  next => exact .inl ⟨_, rfl, _, rfl⟩
/-- The answers in a reply are those for the keys that were asked for. -/
theorem batchAnswers_ok {reply : String} {keys : List String} {answers : Record String}
    (h : batchAnswers reply keys = .ok answers) :
    (TransportOutcome.resolved answers).Settles keys := by
  obtain ⟨e, failed, -⟩ | ⟨r, distinct, all, found⟩ := batchAnswers_cases reply keys
  · rw [failed] at h
    cases h
  · rw [found] at h
    cases h
    have names : Record.keys ((r.restrict keys.contains).map fun e => (e.1, AnswersFile.asText e.2)) =
        r.keys.filter keys.contains := by
      simp only [Record.keys, Record.restrict, List.map_map, List.filter_map]
      rfl
    refine ⟨names ▸ distinct.filter _, fun k => ?_⟩
    rw [names, List.mem_filter, List.contains_iff_mem]
    exact ⟨And.right, fun mem => ⟨all k mem, mem⟩⟩

/-- A run of the answers in a reply fails at the work of the transport only. -/
theorem contained_batchAnswers (reply : String) (keys : List String) (s : Session) :
    (do return TransportOutcome.resolved (← Run.ofExcept (batchAnswers reply keys))).Contained s := by
  obtain ⟨e, failed, own⟩ | ⟨r, -, -, found⟩ := batchAnswers_cases reply keys
  · exact (contained_bind_of_error (by rw [on_ofExcept, failed]) _).mpr own
  · refine (contained_bind_of_ok (by rw [on_ofExcept, found]) _).mpr ?_
    exact contained_of_ok rfl

/-- What a run of the answers in a reply comes to settles the keys that were asked for. -/
theorem settles_of_batchAnswers {reply : String} {keys : List String} {s : Session}
    {o : TransportOutcome}
    (h : ((do return TransportOutcome.resolved (← Run.ofExcept (batchAnswers reply keys))).on s).1 =
      .ok o) : o.Settles keys := by
  cases found : batchAnswers reply keys with
  | error e =>
    rw [on_bind_error (by rw [on_ofExcept, found])] at h
    cases h
  | ok answers =>
    rw [on_bind_ok (by rw [on_ofExcept, found])] at h
    cases h
    exact batchAnswers_ok found

/-! ## One call of a model -/

namespace Transport

/-- The call that puts the prompts of a request to a model. -/
def callFor (g : Generator) (q : TransportRequest) (s : Session) : Consultation :=
  g.consult (Prompt.document q.collector) (Prompt.batchSystem q.collector.keys) none none {} s

section Api

variable {g : Generator} {q : TransportRequest} {s : Session} {o : TransportOutcome}

/-- A call of a model comes to an outcome exactly if the limits of the session admit it and the model
fails as a transport does, if at all. -/
theorem api_returns_iff : (api g).Returns q s ↔
    g.limits.Admits s.ledger (callFor g q s).estimate ∧
      ∀ e, g.client s.calls.length (callFor g q s).call = .error e → e.IsTransport := by
  refine guarded_returns_iff.trans ?_
  dsimp only
  by_cases admits : g.limits.Admits s.ledger (callFor g q s).estimate
  · have outcome : (callFor g q s).outcome = g.client s.calls.length (callFor g q s).call :=
      (Generator.on_complete_admitted (show (Generator.limitsWithin g.limits {}).Admits _ _ from admits)).1
    rw [← outcome, and_iff_right admits]
    rcases ran : (g.complete (Prompt.document q.collector) (Prompt.batchSystem q.collector.keys)).on s
      with ⟨e | reply, t⟩
    · have same : (callFor g q s).outcome = .error e := congrArg Prod.fst ran
      rw [contained_bind_of_error ran, same]
      simp
    · have same : (callFor g q s).outcome = .ok reply := congrArg Prod.fst ran
      rw [contained_bind_of_ok ran, same]
      exact iff_of_true (contained_batchAnswers _ _ _) fun e failed => nomatch failed
  · obtain ⟨message, refused⟩ := Generator.on_complete_refused none none
      (show ¬(Generator.limitsWithin g.limits {}).Admits _ _ from admits)
    refine (contained_bind_of_error refused _).trans (iff_of_false ?_ fun h => admits h.1)
    rintro ⟨m, same⟩
    cases same

theorem api_settles (h : (((api g).resolve q).on s).1 = .ok o) : o.Settles q.collector.keys := by
  rcases guarded_ok h with h | ⟨m, rfl⟩
  · dsimp only at h
    rcases ran : (g.complete (Prompt.document q.collector) (Prompt.batchSystem q.collector.keys)).on s
      with ⟨e | reply, t⟩
    · rw [on_bind_error ran] at h
      cases h
    · rw [on_bind_ok ran] at h
      exact settles_of_batchAnswers h
  · exact ⟨m, rfl⟩

end Api

end Transport

/-! ## Commands -/

/-- A command takes prompts that are put to it one after the other: for each that it comes to there is
something to run, and that can be handed over to a shell.  It comes to a prompt behind the first only
where the run before ended well. -/
def AnswerCommand.Takes (c : AnswerCommand) (sh : Shell) (directory : Path) :
    List String → Tree → Prop
  | [], _ => True
  | prompt :: rest, t =>
    ∃ k, Transport.commandFor c directory prompt = .ok k ∧
      match sh k t with
      | .ok o => o.status = 0 → c.Takes sh directory rest o.tree
      | .error .timedOut | .error (.notStarted _) => True
      | .error .noProgram | .error .nullCharacter => False

/-- The prompts that a command is to answer. -/
def AnswerCommand.prompts (c : AnswerCommand) (q : TransportRequest) : List String :=
  match c.batching with
  | .perBlock => q.collector.pending.map Prompt.single
  | .batched => [Prompt.document q.collector ++ Prompt.jsonOnly]

namespace Transport

section Commands

variable {sh : Shell} {directory : Path} {c : AnswerCommand} {prompt : String} {s : Session}

theorem commandFor_error {e : Failure} (h : commandFor c directory prompt = .error e) :
    ¬e.IsTransport := by
  rintro ⟨m, rfl⟩
  unfold commandFor at h
  dsimp only at h
  split at h
  · cases h
  · cases words : Shell.split c.command with
    | error f =>
      rw [words] at h
      cases h
    | ok ws =>
      rw [words] at h
      cases h

theorem on_command_ok {k : Command} {o : CommandOutcome} (ran : sh k s.tree = .ok o) :
    ∃ t, (Run.command sh k).on s = (.ok (.ok o), t) ∧ t.tree = o.tree := by
  unfold Run.command
  rw [on_bind_ok (on_note _ s), on_bind_ok (on_get _)]
  dsimp only [Session.note]
  rw [ran]
  exact ⟨_, rfl, rfl⟩

theorem on_command_error {k : Command} {f : CommandFault} (failed : sh k s.tree = .error f) :
    ∃ t, (Run.command sh k).on s = (.ok (.error f), t) := by
  unfold Run.command
  rw [on_bind_ok (on_note _ s), on_bind_ok (on_get _)]
  dsimp only [Session.note]
  rw [failed]
  exact ⟨_, rfl⟩

/-- A command is run for a prompt: it prints a text, and those behind are put to what it leaves; or it
fails, at its work where it was taken and otherwise at something else. -/
theorem runFor_cases (sh : Shell) (directory : Path) (c : AnswerCommand) (prompt : String)
    (rest : List String) (s : Session) :
    (∃ text t, (runFor sh directory c prompt).on s = (.ok text, t) ∧
        (c.Takes sh directory (prompt :: rest) s.tree ↔ c.Takes sh directory rest t.tree)) ∨
      ∃ e t, (runFor sh directory c prompt).on s = (.error e, t) ∧
        (e.IsTransport ↔ c.Takes sh directory (prompt :: rest) s.tree) := by
  unfold runFor
  rw [AnswerCommand.Takes]
  cases found : commandFor c directory prompt with
  | error e =>
    refine .inr ⟨e, s, on_bind_error (by rw [on_ofExcept]) _, iff_of_false (commandFor_error found) ?_⟩
    rintro ⟨k, none, -⟩
    cases none
  | ok k =>
    rw [on_bind_ok (by rw [on_ofExcept])]
    simp only [Except.ok.injEq, exists_eq_left']
    cases ran : sh k s.tree with
    | ok o =>
      obtain ⟨t, done, tree⟩ := on_command_ok ran
      rw [on_bind_ok done]
      dsimp only
      by_cases well : o.status = 0
      · rw [if_pos well]
        exact .inl ⟨o.outputText, t, rfl, by rw [tree, forall_prop_of_true well]⟩
      · rw [if_neg well]
        exact .inr ⟨_, t, rfl, iff_of_true ⟨_, rfl⟩ fun bad => absurd bad well⟩
    | error f =>
      obtain ⟨t, done⟩ := on_command_error ran
      rw [on_bind_ok done]
      cases f with
      | timedOut => exact .inr ⟨_, t, rfl, iff_of_true ⟨_, rfl⟩ trivial⟩
      | notStarted f => exact .inr ⟨_, t, rfl, iff_of_true ⟨_, rfl⟩ trivial⟩
      | noProgram | nullCharacter =>
        refine .inr ⟨_, t, rfl, iff_of_false ?_ id⟩
        rintro ⟨_, same⟩
        cases same

/-- What a command answers to one of several prompts. -/
def answerOf (sh : Shell) (directory : Path) (c : AnswerCommand) (i : Inquiry) :
    Run (String × String) := do
  return (i.key, Text.trim (← runFor sh directory c (Prompt.single i)))

/-- Several prompts are put one after the other; the answers stand under the keys of the prompts. -/
theorem contained_mapM_answerOf (is : List Inquiry) (s : Session) :
    ((is.mapM (answerOf sh directory c)).Contained s ↔
        c.Takes sh directory (is.map Prompt.single) s.tree) ∧
      ∀ answers, ((is.mapM (answerOf sh directory c)).on s).1 = .ok answers →
        answers.map (·.1) = is.map (·.key) := by
  induction is generalizing s with
  | nil =>
    refine ⟨iff_of_true (contained_of_ok rfl) trivial, fun answers h => ?_⟩
    cases h
    rfl
  | cons i is ih =>
    rw [List.mapM_cons, List.map_cons]
    obtain ⟨text, t, ran, takes⟩ | ⟨e, t, ran, takes⟩ :=
      runFor_cases sh directory c (Prompt.single i) (is.map Prompt.single) s
    · have first : (answerOf sh directory c i).on s = (.ok (i.key, Text.trim text), t) :=
        on_bind_ok ran _
      rw [contained_bind_of_ok first, on_bind_ok first, takes, ← (ih t).1]
      rcases ran' : (is.mapM (answerOf sh directory c)).on t with ⟨e | others, u⟩
      · rw [contained_bind_of_error ran', on_bind_error ran',
          contained_iff_of_error (congrArg Prod.fst ran')]
        exact ⟨Iff.rfl, fun answers h => nomatch h⟩
      · rw [contained_bind_of_ok ran', on_bind_ok ran']
        refine ⟨iff_of_true (contained_of_ok rfl) (contained_of_ok (congrArg Prod.fst ran')), ?_⟩
        intro answers h
        cases h
        exact congrArg (i.key :: ·) ((ih t).2 others (congrArg Prod.fst ran'))
    · have first : (answerOf sh directory c i).on s = (.error e, t) := on_bind_error ran _
      rw [contained_bind_of_error first, on_bind_error first]
      exact ⟨takes, fun answers h => nomatch h⟩

end Commands

end Transport

/-! ## What a shell can be handed -/

/-- What is to be run can be handed over: there is something, without null characters. -/
def Program.CanStart : Program → Prop
  | .line text => Char.ofNat 0 ∉ text.toList
  | .words ws => ws ≠ [] ∧ ∀ w ∈ ws, Char.ofNat 0 ∉ w.toList

namespace Shell

/-- A fault for want of anything that can be handed over. -/
def Unfit (f : CommandFault) : Prop := f = .noProgram ∨ f = .nullCharacter

theorem start_unfit_iff {p : Program} :
    (∃ f, start p = .error f ∧ Unfit f) ↔ ¬p.CanStart := by
  cases p with
  | line text =>
    unfold start Program.CanStart
    dsimp only
    split
    next null => simpa [Unfit] using null
    next clean => simpa using clean
  | words ws =>
    cases ws with
    | nil => simp [start, Program.CanStart, Unfit]
    | cons name args =>
      unfold start Program.CanStart
      dsimp only
      split
      next null =>
        simp only [List.any_eq_true, List.contains_iff_mem] at null
        obtain ⟨w, mem, null⟩ := null
        exact iff_of_true ⟨_, rfl, .inr rfl⟩ fun can => can.2 w mem null
      next clean =>
        have clean : ∀ w ∈ name :: args, Char.ofNat 0 ∉ w.toList := by simpa using clean
        refine iff_of_false ?_ (not_not_intro ⟨List.cons_ne_nil _ _, clean⟩)
        rintro ⟨f, failed, unfit⟩
        split at failed
        · cases failed
        · split at failed <;> cases failed
          rcases unfit with h | h <;> cases h

/-- A shell in a directory that is there hands over what can be handed over, and nothing else. -/
theorem within_unfit_iff (environment : Record String) {k : Command} {t : Tree}
    (there : t.isDirectory k.directory = true) :
    (∃ f, within environment k t = .error f ∧ Unfit f) ↔ ¬k.program.CanStart := by
  rw [← start_unfit_iff]
  unfold within outcome
  rw [there]
  simp only [Bool.not_true, Bool.false_eq_true, if_false, bind, Except.bind, pure, Except.pure]
  cases start k.program with
  | error f => simp
  | ok body =>
    refine iff_of_false ?_ (fun ⟨f, failed, _⟩ => nomatch failed)
    rintro ⟨f, failed, unfit⟩
    -- what was begun can only take too long
    have late : f = .timedOut := by
      simp only [throw, throwThe, MonadExceptOf.throw] at failed
      repeat' split at failed
      all_goals
        first
          | exact (Except.error.inj failed).symm
          | cases failed
    rcases unfit with h | h <;> rw [late] at h <;> cases h

end Shell

namespace AnswerCommand

variable {c : AnswerCommand} {directory : Path} {t : Tree}

/-- A single prompt is taken where the line of the command, with the prompt in the place of its mark or
else split into words, is something that can be handed over. -/
theorem takes_within_iff {environment : Record String} {prompt : String}
    (there : t.isDirectory directory = true) :
    c.Takes (Shell.within environment) directory [prompt] t ↔
      ∃ k, Transport.commandFor c directory prompt = .ok k ∧ k.program.CanStart := by
  unfold Takes
  refine exists_congr fun k => and_congr_right fun found => ?_
  have here : k.directory = directory := by
    unfold Transport.commandFor at found
    dsimp only at found
    split at found
    · cases found
      rfl
    · cases words : Shell.split c.command <;> rw [words] at found <;> cases found
      rfl
  rw [← not_iff_not, ← Shell.within_unfit_iff environment (here ▸ there)]
  cases Shell.within environment k t with
  | ok o => simp [Takes]
  | error f => cases f <;> simp [Shell.Unfit]

end AnswerCommand

/-! ## Collected prompts -/

/-- A collector as it comes about: from an empty one, step by step. -/
inductive Collector.Collected : Collector → Prop
  | empty : Collected {}
  | enter {c : Collector} : Collected c → Collected c.enter
  | leave {c : Collector} : Collected c → Collected c.leave
  | add {c : Collector} (i : Inquiry) : Collected c → Collected (c.add i)
  | addContext {c : Collector} (text : String) : Collected c → Collected (c.addContext text)
  | clear {c : Collector} : Collected c → Collected c.clear

/-- A collected inquiry stands under its own key. -/
theorem Collector.Collected.key_eq {c : Collector} (h : c.Collected) :
    ∀ e ∈ c.inquiries, e.2.key = e.1 := by
  induction h with
  | empty | clear => exact fun e mem => absurd mem List.not_mem_nil
  | enter _ ih | leave _ ih => exact ih
  | add i _ ih =>
    intro e mem
    rcases Record.mem_put mem with rfl | before
    · rfl
    · exact ih e before
  | addContext text _ ih =>
    rw [Collector.addContext]
    split <;> exact ih

theorem Collector.Collected.keys_eq {c : Collector} (h : c.Collected) :
    c.pending.map (·.key) = c.keys := by
  simp only [pending, keys, Record.keys, List.map_map]
  exact List.map_congr_left h.key_eq

namespace Transport

section CommandOutcomes

variable {sh : Shell} {directory : Path} {c : AnswerCommand} {q : TransportRequest} {s : Session}
  {o : TransportOutcome}

/-- A command comes to an outcome exactly if it takes the prompts that are put to it. -/
theorem command_returns_iff :
    (command sh directory c).Returns q s ↔ c.Takes sh directory (c.prompts q) s.tree := by
  refine guarded_returns_iff.trans ?_
  unfold AnswerCommand.prompts
  cases c.batching with
  | perBlock =>
    refine Iff.trans ?_ (contained_mapM_answerOf q.collector.pending s).1
    dsimp only
    rcases ran : (q.collector.pending.mapM (answerOf sh directory c)).on s with ⟨e | answers, t⟩
    · rw [contained_iff_of_error (congrArg Prod.fst ran)]
      exact contained_bind_of_error ran _
    · refine iff_of_true ((contained_bind_of_ok ran _).mpr (contained_of_ok rfl)) ?_
      exact contained_of_ok (congrArg Prod.fst ran)
  | batched =>
    dsimp only
    obtain ⟨reply, t, ran, takes⟩ | ⟨e, t, ran, takes⟩ := runFor_cases sh directory c
      (Prompt.document q.collector ++ Prompt.jsonOnly) [] s
    · rw [contained_bind_of_ok ran]
      exact iff_of_true (contained_batchAnswers _ _ _) (takes.mpr trivial)
    · rw [contained_bind_of_error ran]
      exact takes

theorem command_settles (collected : q.collector.Collected)
    (h : (((command sh directory c).resolve q).on s).1 = .ok o) : o.Settles q.collector.keys := by
  rcases guarded_ok h with h | ⟨m, rfl⟩
  · cases batching : c.batching with
    | perBlock =>
      rw [batching] at h
      dsimp only at h
      rcases ran : (q.collector.pending.mapM (answerOf sh directory c)).on s with ⟨e | answers, t⟩
      · cases (congrArg Prod.fst (on_bind_error ran _)).symm.trans h
      · cases (congrArg Prod.fst (on_bind_ok ran _)).symm.trans h
        have names := (contained_mapM_answerOf q.collector.pending s).2 answers (congrArg Prod.fst ran)
        refine ⟨Record.nodup_keys_ofList answers, fun k => ?_⟩
        rw [Record.mem_keys_ofList, names, collected.keys_eq]
    | batched =>
      rw [batching] at h
      dsimp only at h
      obtain ⟨reply, t, ran, -⟩ | ⟨e, t, ran, -⟩ := runFor_cases sh directory c
        (Prompt.document q.collector ++ Prompt.jsonOnly) [] s
      · rw [on_bind_ok ran] at h
        exact settles_of_batchAnswers h
      · rw [on_bind_error ran] at h
        cases h
  · exact ⟨m, rfl⟩

end CommandOutcomes

theorem document_settled (q : TransportRequest) (s : Session) : document.Settled q s := by
  refine ⟨.deferred (Prompt.document q.collector (some q.command) q.answersPath) q.answersPath, ?_,
    trivial⟩
  exact congrArg Prod.fst (on_bind_ok (on_note _ s) _)

/-- A printed document always comes to an outcome.  A call of a model does exactly if the limits of the
session admit it and the model fails as a transport does, if at all; a command does exactly if it takes
the prompts that are put to it.  Whatever they come to is an outcome of one of the three kinds, with
answers for exactly the keys that were asked for. -/
theorem settled_iff {q : TransportRequest} (collected : q.collector.Collected) (s : Session) :
    document.Settled q s ∧
      (∀ g, ((api g).Returns q s ↔ (api g).Settled q s) ∧
        ((api g).Settled q s ↔ g.limits.Admits s.ledger (callFor g q s).estimate ∧
          ∀ e, g.client s.calls.length (callFor g q s).call = .error e → e.IsTransport)) ∧
      ∀ sh directory c,
        ((command sh directory c).Returns q s ↔ (command sh directory c).Settled q s) ∧
          ((command sh directory c).Settled q s ↔ c.Takes sh directory (c.prompts q) s.tree) := by
  refine ⟨document_settled q s, fun g => ?_, fun sh directory c => ?_⟩
  · have settles := returns_iff_settled (t := api g) (q := q) (s := s) fun o => api_settles
    exact ⟨settles, settles.symm.trans api_returns_iff⟩
  · have settles := returns_iff_settled (t := command sh directory c) (q := q) (s := s) fun o =>
      command_settles collected
    exact ⟨settles, settles.symm.trans command_returns_iff⟩

end Transport

/-! ## A call that is refused -/

namespace Overdrawn

/-- A model whose sessions may use a thousand tokens. -/
def generator : Generator where
  client _ _ := .ok { text := "\x7b\"note\": \"a reply\"\x7d", model := "fake", usage := {} }
  limits := { maxTokens := some 1000 }

/-- A session that has used more than that. -/
def session : Session := { ledger := { tokens := 1200 } }

/-- A request for one answer. -/
def request : TransportRequest where
  collector := Collector.enter {} |>.add { key := "note", prompt := "Write a note" }
  command := "kitgen run"
  answersPath := "./ai-answers.json"

theorem not_admitted (estimate : Nat) : ¬generator.limits.Admits session.ledger estimate := by
  intro admits
  have within : (1200 : Int) + estimate ≤ 1000 := admits.tokens 1000 rfl
  omega

theorem not_settled : ¬(Transport.api generator).Settled request session := by
  rintro ⟨o, found, -⟩
  exact not_admitted _ (Transport.api_returns_iff.mp ⟨o, found⟩).1

theorem not_returned :
    request.collector.Collected ∧ ¬(Transport.api generator).Returns request session := by
  have collected : request.collector.Collected := .add _ (.enter .empty)
  refine ⟨collected, fun returns => ?_⟩
  obtain ⟨settles, exactly⟩ := (Transport.settled_iff collected session).2.1 generator
  exact not_admitted _ (exactly.mp (settles.mp returns)).1

end Overdrawn

end Scaffold
