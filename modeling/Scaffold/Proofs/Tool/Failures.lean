import Scaffold.Proofs.Session.Journal
import Scaffold.Proofs.Tool.Effects
import Scaffold.Proofs.Tree.Replacement

/-!
# Failed steps leave the files alone

A step that adds a file, splices into one or delivers the text of a model works on files once at most,
and that last: whatever can fail before it has only read, asked and rendered.  What is left is the
replacing of one file, which leaves all files as they were unless it succeeds, and behind it nothing can
fail any more.  So where such a step raises a failure or returns a failed result, whatever the reason and
at whichever stage the disk fails, every file has the content that it had, and no other file is there.

Nothing is assumed about the tree or the paths, and a person who is asked may not touch the files.
-/

namespace Scaffold

open Run Session

namespace Session

/-- The tree stays as it is. -/
def SameTree (s t : Session) : Prop := t.tree = s.tree

instance sameTreePreorder : IsPreorder Session SameTree where
  refl _ := rfl
  trans _ _ _ h h' := h'.trans h

end Session

theorem sameTreeAll : Compositional (Keeps SameTree) := keepsAll SameTree

/-! ## Runs that spare the files -/

namespace Run

variable {α β : Type} {Q : α → Prop} {R : β → Prop}

/-- The files stay as they are unless the run returns something of a kind. -/
def SparesUnless (Q : α → Prop) (r : Run α) : Prop :=
  ∀ s, Tree.SameFiles s.tree (r.on s).2.tree ∨ ∃ a, (r.on s).1 = .ok a ∧ Q a

theorem spares_of_keeps {r : Run α} (h : r.Keeps SameTree) : r.SparesUnless Q := fun s =>
  .inl (by rw [h s]; exact .refl _)

theorem spares_pure (a : α) : (pure a : Run α).SparesUnless Q := spares_of_keeps (sameTreeAll.pure a)

/-- Behind a failure nothing is done. -/
theorem spares_throw_bind (f : Failure) (rest : β → Run α) :
    ((throw f : Run β) >>= rest).SparesUnless Q := fun s => .inl (.refl s.tree)

theorem spares_look {f : Session → Run α} (h : ∀ s, (f s).SparesUnless Q) :
    ((get : Run Session) >>= f).SparesUnless Q := fun s => h s s

/-- What does not touch the files can come first. -/
theorem spares_bind {x : Run β} {f : β → Run α} (hx : x.Keeps SameTree)
    (hf : ∀ b, (f b).SparesUnless Q) : (x >>= f).SparesUnless Q := by
  intro s
  have same := hx s
  rw [on_bind]
  rcases ran : x.on s with ⟨e | b, t⟩ <;> rw [ran] at same
  · exact .inl (by rw [same]; exact .refl _)
  · rw [← same]
    exact hf b t

/-- Behind it a result can be made, which is of the kind that excuses a change if need be. -/
theorem SparesUnless.bind_pure {x : Run β} {f : β → Run α} (hx : x.SparesUnless R)
    (hf : ∀ b, ∃ a, f b = pure a ∧ (R b → Q a)) : (x >>= f).SparesUnless Q := by
  intro s
  have spared := hx s
  rw [on_bind]
  rcases ran : x.on s with ⟨e | b, t⟩ <;> rw [ran] at spared <;> dsimp only
  · rcases spared with same | ⟨b, ⟨⟩, -⟩
    exact .inl same
  · obtain ⟨a, made, excuses⟩ := hf b
    rw [made]
    rcases spared with same | ⟨b', returned, kind⟩
    · exact .inl same
    · obtain rfl : b = b' := Except.ok.inj returned
      exact .inr ⟨a, rfl, excuses kind⟩

/-- To write a file is to touch no file, or to return. -/
theorem writeText_spares (p : Path) (text : String) (failing : Option Tree.Stage) :
    (writeText p text failing).SparesUnless fun _ => True := by
  intro s
  rw [on_writeText]
  rcases s.tree.replace_settles p text failing with ⟨f, t', failed, same⟩ | ⟨t', replaced, -⟩
  · rw [failed]
    exact .inl same
  · rw [replaced]
    exact .inr ⟨_, rfl, trivial⟩

/-- A splice leaves the files alone unless it changes one, and then it is not skipped. -/
theorem splice_spares (p : Path) (body : String) (rule : Splice.Rule) (dry : Bool)
    (failing : Option Tree.Stage) :
    (splice p body rule dry failing).SparesUnless fun o => o = (true, none) ∧ dry = false := by
  unfold splice
  refine spares_look fun s => ?_
  dsimp only
  split
  · exact spares_throw_bind _ _
  refine spares_bind (sameTreeAll.readText p) fun content => ?_
  refine spares_bind (sameTreeAll.ofExcept _) fun o => ?_
  split
  · exact spares_pure _
  split
  next writes =>
    obtain ⟨changed, wet⟩ : o.changed = true ∧ dry = false := by simpa using writes
    refine (writeText_spares p o.content failing).bind_pure fun _ => ?_
    exact ⟨_, rfl, fun _ => ⟨by rw [changed], wet⟩⟩
  next => exact spares_pure _

end Run

/-! ## One tool after the other -/

/-- A step that does not succeed leaves the files alone. -/
abbrev Run.FailsCleanly (r : Run StepResult) : Prop := r.SparesUnless fun o => o.success = true

section Tools

variable {c : StepContext} {failing : Option Tree.Stage}

namespace AddStep

theorem put_failsCleanly (step : Step) (target : Path) (present force : Bool) (body : String) :
    (put step c target present force body failing).FailsCleanly := by
  unfold put
  dsimp only
  split
  · exact spares_pure _
  · refine (writeText_spares target body failing).bind_pure fun _ => ?_
    split <;> exact ⟨_, rfl, fun _ => rfl⟩

section

variable (quiet : ∀ w, c.prompter = some w → ∀ message, (w.confirm message).Keeps SameTree)

include quiet

theorem replace_failsCleanly (step : Step) (target : Path) (force : Bool) (body : String) :
    (replace step c target force body failing).FailsCleanly := by
  unfold replace
  refine spares_bind (sameTreeAll.readText target) fun current => ?_
  split
  · exact spares_pure _
  · refine spares_bind (mayOverwrite_holds sameTreeAll (fun _ => quiet) force _) fun allowed => ?_
    split
    · exact spares_pure _
    · exact put_failsCleanly step target true force body

theorem execute_failsCleanly (a : AddStep) (step : Step) :
    (a.execute step c failing).FailsCleanly := by
  unfold AddStep.execute
  refine spares_bind (c.resolve_holds sameTreeAll _) fun target => ?_
  refine spares_bind (a.isKept_holds sameTreeAll) fun kept => ?_
  split
  · exact spares_pure _
  refine spares_look fun s => ?_
  dsimp only
  split
  · exact spares_pure _
  refine spares_bind (step.loadBody_holds sameTreeAll _ _ c) fun body => ?_
  split
  · exact replace_failsCleanly quiet step target _ body
  · exact put_failsCleanly step target false _ body

end

end AddStep

theorem InjectStep.execute_failsCleanly (a : InjectStep) (step : Step) :
    (a.execute step c failing).FailsCleanly := by
  unfold InjectStep.execute
  refine spares_bind (c.resolve_holds sameTreeAll _) fun target => ?_
  refine spares_bind (step.loadBody_holds sameTreeAll _ _ c) fun body => ?_
  refine spares_bind (sameTreeAll.mapM? _ (c.render_holds sameTreeAll)) fun skipIf => ?_
  refine spares_look fun s => ?_
  dsimp only
  split
  · exact spares_pure _
  refine (splice_spares target body _ _ failing).bind_pure fun o => ?_
  obtain ⟨changed, reason⟩ := o
  dsimp only
  split
  · exact ⟨_, rfl, by rintro ⟨⟨⟩, -⟩; contradiction⟩
  · split
    · exact ⟨_, rfl, fun _ => rfl⟩
    · split <;> exact ⟨_, rfl, fun _ => rfl⟩

namespace AiStep

theorem deliverFile_failsCleanly (target : String) (step : Step) (text : String) :
    (deliverFile target step c text failing).FailsCleanly := by
  unfold deliverFile
  refine spares_bind (c.resolve_holds sameTreeAll _) fun path => ?_
  dsimp only
  split
  · exact spares_pure _
  refine spares_look fun s => ?_
  refine spares_bind (holdsText_holds sameTreeAll path text) fun same => ?_
  split
  · exact spares_pure _
  · exact (writeText_spares path text failing).bind_pure fun _ => ⟨_, rfl, fun _ => rfl⟩

theorem deliverSplice_failsCleanly (o : Output) (target : String) (step : Step) (text : String) :
    (deliverSplice o target step c text failing).FailsCleanly := by
  unfold deliverSplice
  refine spares_bind (c.resolve_holds sameTreeAll _) fun path => ?_
  refine spares_bind (sameTreeAll.mapM? _ (c.render_holds sameTreeAll)) fun skipIf => ?_
  refine (splice_spares path text _ _ failing).bind_pure fun o => ?_
  obtain ⟨changed, reason⟩ := o
  dsimp only
  split
  · exact ⟨_, rfl, by rintro ⟨⟨⟩, -⟩; contradiction⟩
  · split <;> exact ⟨_, rfl, fun _ => rfl⟩

theorem deliver_failsCleanly (a : AiStep) (step : Step) (text : String) :
    (a.deliver step c text failing).FailsCleanly := by
  unfold AiStep.deliver
  dsimp only
  split
  · exact spares_of_keeps (sameTreeAll.bind (keeps_modify fun _ => rfl) fun _ => sameTreeAll.pure _)
  · exact spares_of_keeps (sameTreeAll.bind (keeps_modify fun _ => rfl) fun _ => sameTreeAll.pure _)
  · split
    · exact deliverFile_failsCleanly _ step text
    · exact spares_throw_bind _ _
  · split
    · exact deliverSplice_failsCleanly _ _ step text
    · exact spares_throw_bind _ _
  · exact spares_pure _

theorem guarded_failsCleanly {r : Run StepResult} (h : r.FailsCleanly) (step : Step) :
    (guarded step r).FailsCleanly := by
  intro s
  have spared := h s
  unfold guarded
  rw [on_bind, on_attempt]
  dsimp only
  rcases ran : r.on s with ⟨f | o, t⟩ <;> rw [ran] at spared
  · rcases spared with same | ⟨o, ⟨⟩, -⟩
    -- whether the failure is caught or passes, nothing is done any more
    dsimp only
    split <;> exact .inl same
  · exact spared

theorem execute_failsCleanly (a : AiStep) (step : Step) :
    (a.execute step c failing).FailsCleanly := by
  have calls : ∀ g, c.generator = some g → ∀ d, (g.generate d).Keeps SameTree :=
    fun g _ d => g.generate_keeps (fun _ _ => rfl) (fun _ _ => rfl) d
  unfold AiStep.execute
  split
  · refine guarded_failsCleanly (spares_bind ?_ fun text => ?_) step
    · exact checked_holds sameTreeAll calls a step _
    · exact a.deliver_failsCleanly step text
  · refine spares_look fun s => ?_
    split
    · exact spares_of_keeps (a.collect_holds sameTreeAll (fun _ => keeps_modify fun _ => rfl) step)
    · refine guarded_failsCleanly (spares_bind ?_ fun text => ?_) step
      · exact generate_holds sameTreeAll calls a step none
      · exact a.deliver_failsCleanly step text

end AiStep

end Tools

/-! ## All of them -/

/-- The tools that work on files, where `failing` is a stage that fails when a file is replaced. -/
def Tools.onFiles (failing : Option Tree.Stage) : Tools := [.add failing, .inject failing, .model failing]

namespace Tools

variable {failing : Option Tree.Stage}

theorem onFiles_failsCleanly {t : Tool} (ht : t ∈ onFiles failing) {c : StepContext}
    (quiet : ∀ w, c.prompter = some w → w.Quiet) (step : Step) : (t.execute step c).FailsCleanly := by
  have confirms : ∀ w, c.prompter = some w → ∀ message, (w.confirm message).Keeps SameTree :=
    fun w h message => ((quiet w h).confirm message).mono fun _ _ conversed => conversed.tree
  simp only [onFiles, List.mem_cons, List.not_mem_nil, or_false] at ht
  rcases ht with rfl | rfl | rfl
  · dsimp only [Tool.add]
    split
    · exact AddStep.execute_failsCleanly confirms _ step
    · exact spares_pure _
  · dsimp only [Tool.inject]
    split
    · exact InjectStep.execute_failsCleanly _ step
    · exact spares_pure _
  · dsimp only [Tool.model]
    split
    · exact AiStep.execute_failsCleanly _ step
    · exact spares_pure _

/-- Where a step raises a failure or returns a failed result, the files are the same as before, none
changed, none more, none less.  Writing a file does the same where it fails, and where it succeeds the
path leads to the text and the other files are the same. -/
theorem failed_leaves_files (failing : Option Tree.Stage) :
    (∀ t ∈ onFiles failing, ∀ step c s, (∀ w, c.prompter = some w → w.Quiet) →
      let ran := (t.execute step c).on s
      ((∃ f, ran.1 = .error f) ∨ ∃ o, ran.1 = .ok o ∧ o.status = .failed) →
        s.tree.SameFiles ran.2.tree) ∧
    ∀ path text s,
      let ran := (writeText path text failing).on s
      ((∃ f, ran.1 = .error f) → s.tree.SameFiles ran.2.tree) ∧
        (ran.1 = .ok () → s.tree.Replaced path text ran.2.tree) := by
  constructor
  · intro t ht step c s quiet ran failed
    rcases onFiles_failsCleanly ht quiet step s with same | ⟨o, returned, success⟩
    · exact same
    · -- what succeeds neither raised anything nor failed
      rcases failed with ⟨f, raised⟩ | ⟨o', returned', status⟩
      · cases returned.symm.trans raised
      · obtain rfl : o = o' := Except.ok.inj (returned.symm.trans returned')
        rw [StepResult.success, status] at success
        cases success
  · intro path text s
    rw [on_writeText]
    rcases s.tree.replace_settles path text failing with ⟨f, t', refused, same⟩ | ⟨t', done, replaced⟩
    · rw [refused]
      exact ⟨fun _ => same, nofun⟩
    · rw [done]
      exact ⟨by rintro ⟨f, ⟨⟩⟩, fun _ => replaced⟩

end Tools

/-! ## A disk that fails in the last moment -/

namespace Unplugged

/-- A step that adds a file. -/
def step : Step := { name := "put", body := .add { target := "a.txt", body := some "new\n" } }

/-- Someone at a terminal may allow that a file is overwritten. -/
def context : StepContext where
  recipe := { name := "unplugged", steps := [step] }
  project := .ofString "/project"
  options := { interactive := true }
  prompter := some Terminal.prompter

/-- The file is there, and it will be allowed. -/
def start : Session :=
  { tree := (Tree.bare.replace (.ofString "/project/a.txt") "old\n").2, input := "y\n" }

/-- The new file is there with its text, but does not get the name of the old one. -/
theorem keeps_old : ∃ f s, ((Tool.add (some .rename)).execute step context).on start = (.error f, s) ∧
    start.tree.SameFiles s.tree ∧
      (s.tree.read (.ofString "/project/a.txt")).toOption = some (.text "old\n") := by
  have raises : (((Tool.add (some .rename)).execute step context).on start).1.toOption.isNone = true := by
    decide +kernel
  have old : ((((Tool.add (some .rename)).execute step context).on start).2.tree.read
      (.ofString "/project/a.txt")).toOption = some (.text "old\n") := by decide +kernel
  have quiet : ∀ w, context.prompter = some w → w.Quiet := by
    rintro _ ⟨⟩
    exact Terminal.prompter_quiet
  have leaves := (Tools.failed_leaves_files (some .rename)).1 (.add (some .rename)) (by simp [Tools.onFiles])
    step context start quiet
  rcases ran : ((Tool.add (some .rename)).execute step context).on start with ⟨f | o, s⟩
  · rw [ran] at leaves old
    exact ⟨f, s, rfl, leaves (.inl ⟨f, rfl⟩), old⟩
  · rw [ran] at raises
    cases raises

end Unplugged

end Scaffold
