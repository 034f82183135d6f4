import Scaffold.Engine
import Scaffold.Proofs.Session.Runs

/-!
# What tools can do to a session

Each tool is taken apart into the effects it is made of.  A compositional property of runs that these
effects have is a property of the tool.  Where nothing may be changed, files are not written, commands
are not run and actions are not called, so nothing is asked of them.
-/

namespace Scaffold

open Run

theorem StepContext.on_render (c : StepContext) (text : String) (s : Session) :
    (c.render text).on s =
      ((Template.render text s.scope.visible).mapError Failure.ofTemplate, s) :=
  (on_bind_ok (on_get s) _).trans (on_ofExcept _ s)

section Effects

variable {P : ∀ {α : Type}, Run α → Prop} (hP : Compositional @P)

include hP

/-! ## Texts and bodies -/

namespace StepContext

variable (c : StepContext)

theorem render_holds (text : String) : P (c.render text) :=
  hP.look (fun s t alike => by rw [alike.scope]) fun _ => hP.ofExcept _

theorem resolve_holds (text : String) : P (c.resolve text) :=
  hP.bind (c.render_holds hP text) fun _ => hP.pure _

theorem workplace_holds (directory : Option String) : P (c.workplace directory) := by
  unfold workplace
  split
  · exact c.resolve_holds hP _
  · exact hP.pure _

end StepContext

theorem Step.loadBody_holds (s : Step) (body source : Option String) (c : StepContext) :
    P (s.loadBody body source c) := by
  unfold loadBody
  split
  · exact c.render_holds hP _
  · refine hP.bind (c.render_holds hP _) fun name => ?_
    refine hP.bind (hP.attempt (hP.readText _)) fun content => ?_
    split
    · exact c.render_holds hP _
    · exact hP.throw _
    · exact hP.throw _

/-! ## Files -/

section Files

variable {dry : Bool}

theorem Run.splice_holds (hw : dry = false → ∀ p text, P (writeText p text)) (target : Path)
    (body : String) (rule : Splice.Rule) : P (splice target body rule dry) := by
  unfold splice
  refine hP.look (fun s t alike => by simp only [alike.tree]) fun s => ?_
  -- what is done to the file, once it is known to be there
  have rest : P (do
      let content ← readText target
      let o ← ofExcept ((Splice.apply content body rule).mapError Failure.ofSplice)
      if o.skipped then return (false, o.reason)
      if o.changed && !dry then writeText target o.content
      return (o.changed, none) : Run (Bool × Option String)) := by
    refine hP.bind (hP.readText _) fun content => ?_
    refine hP.bind (hP.ofExcept _) fun o => ?_
    split
    · exact hP.pure _
    · split
      next h =>
        have wet : dry = false := by simp_all
        exact hP.bind (hw wet _ _) fun _ => hP.pure _
      next => exact hP.pure _
  dsimp only
  split
  · exact hP.bind (hP.throw _) fun _ => rest
  · exact rest

variable {c : StepContext}

theorem InjectStep.execute_holds (hw : c.isDry = false → ∀ p text, P (writeText p text))
    (s : InjectStep) (step : Step) : P (s.execute step c) := by
  unfold InjectStep.execute
  refine hP.bind (c.resolve_holds hP _) fun target => ?_
  refine hP.bind (step.loadBody_holds hP _ _ c) fun body => ?_
  refine hP.bind (hP.mapM? _ (c.render_holds hP)) fun skipIf => ?_
  refine hP.look (fun s t alike => by simp only [alike.tree]) fun st => ?_
  split
  · exact hP.pure _
  · refine hP.bind (splice_holds hP hw target body _) fun o => ?_
    split
    split
    · exact hP.pure _
    · split
      · exact hP.pure _
      · split <;> exact hP.pure _

section Add

variable (hw : c.isDry = false → ∀ p text, P (writeText p text))
  (hc : c.options.interactive = true → ∀ w, c.prompter = some w → ∀ message, P (w.confirm message))

namespace AddStep

theorem isKept_holds (s : AddStep) : P (s.isKept c) := by
  unfold isKept
  split
  · exact hP.bind (c.render_holds hP _) fun _ => hP.pure _
  · exact hP.pure _

include hc in
theorem mayOverwrite_holds (force : Bool) (shown : String) :
    P (mayOverwrite c force shown) := by
  unfold mayOverwrite
  split
  · exact hP.pure _
  · split
    next w interactive hw => exact hc interactive w hw _
    next => exact hP.pure _

include hw in
theorem put_holds (step : Step) (target : Path) (present force : Bool) (body : String) :
    P (put step c target present force body) := by
  unfold put
  dsimp only
  split
  · exact hP.pure _
  next wet =>
    refine hP.bind (hw (by simpa using wet) _ _) fun _ => ?_
    split <;> exact hP.pure _

include hw hc in
theorem replace_holds (step : Step) (target : Path) (force : Bool) (body : String) :
    P (replace step c target force body) := by
  unfold replace
  refine hP.bind (hP.readText target) fun current => ?_
  split
  · exact hP.pure _
  · refine hP.bind (mayOverwrite_holds hP hc force _) fun allowed => ?_
    split
    · exact hP.pure _
    · exact put_holds hP hw step target true force body

include hw hc in
theorem execute_holds (s : AddStep) (step : Step) : P (s.execute step c) := by
  unfold AddStep.execute
  refine hP.bind (c.resolve_holds hP _) fun target => ?_
  refine hP.bind (s.isKept_holds hP) fun kept => ?_
  split
  · exact hP.pure _
  · refine hP.look (fun s t alike => by simp only [alike.tree]) fun st => ?_
    dsimp only
    split
    · exact hP.pure _
    · refine hP.bind (step.loadBody_holds hP _ _ c) fun body => ?_
      split
      · exact replace_holds hP hw hc step target _ body
      · exact put_holds hP hw step target false _ body

end AddStep

end Add

end Files

/-! ## Commands -/

section Commands

variable {c : StepContext} {sh : Shell}

/-- A command is noted, and may leave another tree. -/
theorem Run.command_holds (notes : ∀ text, P (note (.ran text)))
    (trees : ∀ tree, P (modify fun s => { s with tree } : Run PUnit)) (sh : Shell) (k : Command) :
    P (Run.command sh k) := by
  refine hP.bind (notes _) fun _ => ?_
  refine hP.look (fun s t alike => by rw [alike.tree]) fun s => ?_
  split
  · exact hP.bind (trees _) fun _ => hP.pure _
  · exact hP.pure _

theorem Run.line_holds (h : ∀ k, P (Run.command sh k)) (directory : Path) (text : String) :
    P (line sh directory text) := by
  refine hP.bind (h _) fun o => ?_
  split
  · exact hP.pure _
  · exact hP.throw _

theorem ShellStep.execute_holds (h : c.isDry = false → ∀ k, P (Run.command sh k)) (s : ShellStep)
    (step : Step) : P (s.execute sh step c) := by
  unfold ShellStep.execute
  refine hP.bind (c.render_holds hP _) fun text => ?_
  refine hP.bind (c.workplace_holds hP _) fun directory => ?_
  split
  · exact hP.pure _
  next wet =>
    refine hP.bind (line_holds hP (h (by simpa using wet)) directory text) fun o => ?_
    split <;> exact hP.pure _

theorem SetupStep.runAll_holds (h : ∀ k, P (Run.command sh k)) (directory : Path)
    (outputs commands : List String) : P (runAll sh directory outputs commands) := by
  -- each command adds to the outputs, so these vary along the induction
  induction commands generalizing outputs with
  | nil => exact hP.pure _
  | cons text rest ih =>
    refine hP.bind (line_holds hP h directory text) fun o => ?_
    dsimp only
    split
    · exact hP.pure _
    · exact ih _

theorem SetupStep.execute_holds (h : c.isDry = false → ∀ k, P (Run.command sh k)) (s : SetupStep)
    (step : Step) : P (s.execute sh step c) := by
  unfold SetupStep.execute
  refine hP.bind (hP.mapM _ (c.render_holds hP)) fun commands => ?_
  refine hP.bind (c.workplace_holds hP _) fun directory => ?_
  dsimp only
  split
  · exact hP.pure _
  next wet =>
    refine hP.bind (runAll_holds hP (h (by simpa using wet)) directory [] commands) fun o => ?_
    split <;> exact hP.pure _

end Commands

/-! ## Actions -/

namespace ActionStep

variable {c : StepContext}

theorem rendered_holds (v : Value) : P (rendered c v) := by
  unfold rendered
  split
  · exact hP.bind (c.render_holds hP _) fun _ => hP.pure _
  · exact hP.pure _

theorem complete_holds
    (h : c.options.interactive = true → ∀ w, c.prompter = some w → ∀ name d, P (w.ask name d))
    (a : Action) (params : Record Value) (p : ActionParameter) : P (complete a c params p) := by
  unfold complete
  split
  · exact hP.pure _
  · split
    next w interactive hw => exact hP.bind (h interactive w hw _ _) fun _ => hP.pure _
    next => exact hP.throw _

theorem arguments_holds
    (h : c.options.interactive = true → ∀ w, c.prompter = some w → ∀ name d, P (w.ask name d))
    (s : ActionStep) (a : Action) (step : Step) : P (s.arguments a step c) := by
  unfold arguments
  refine hP.look (fun s t alike => by rw [alike.scope]) fun st => ?_
  refine hP.bind (hP.mapM _ fun e => ?_) fun given => ?_
  · exact hP.bind (rendered_holds hP _) fun _ => hP.pure _
  · exact hP.foldlM _ _ fun params p => complete_holds hP h a params p

/-- What an action does is what its handler does, before its output is handed on. -/
theorem execute_holds {actions : Actions}
    (asks : c.options.interactive = true → ∀ w, c.prompter = some w → ∀ name d, P (w.ask name d))
    (notes : c.isDry = false → ∀ name, P (note (.acted name)))
    (handles : c.isDry = false → ∀ name a, actions.find? name = some a → ∀ params,
      P (a.handler params c))
    (shares : ∀ f : Record Value → Record Value,
      P (modify fun s => { s with scope := { s.scope with shared := f s.scope.shared } } : Run PUnit))
    (s : ActionStep) (step : Step) : P (s.execute actions step c) := by
  unfold ActionStep.execute
  dsimp only
  split
  · exact hP.pure _
  next a found =>
    refine hP.bind (s.arguments_holds hP asks a step) fun params => ?_
    split
    · exact hP.pure _
    next wet =>
      have wet : c.isDry = false := by simpa using wet
      refine hP.bind (notes wet a.name) fun _ => ?_
      refine hP.bind (handles wet _ a found params) fun o => ?_
      refine hP.bind (shares fun r => step.writes.foldl (fun r k => r.put k o.output) r) fun _ => ?_
      exact hP.pure _

end ActionStep

/-! ## Models -/

namespace AiStep

variable {c : StepContext}

theorem surroundings_holds (s : AiStep) : P (s.surroundings c) :=
  hP.look (fun s t alike => by rw [alike.tree, alike.scope]) fun _ => hP.ofExcept _

/-- Asking for an answer does nothing but record the inquiry. -/
theorem collect_holds (h : ∀ i : Inquiry, P (Run.collect fun k => k.add i)) (s : AiStep)
    (step : Step) : P (s.collect step c) := by
  unfold AiStep.collect
  refine hP.bind (s.surroundings_holds hP) fun context => ?_
  refine hP.bind (c.render_holds hP _) fun prompt => ?_
  exact hP.bind (h _) fun _ => hP.pure _

theorem fullPrompt_holds (s : AiStep) : P (s.fullPrompt c) := by
  unfold fullPrompt
  refine hP.bind (s.surroundings_holds hP) fun context => ?_
  exact hP.bind (c.render_holds hP _) fun _ => hP.pure _

section Generation

variable (calls : ∀ g, c.generator = some g → ∀ d, P (g.generate d))

include calls

theorem generate_holds (s : AiStep) (step : Step) (prompt : Option String) :
    P (s.generate step c prompt) := by
  unfold AiStep.generate
  dsimp only
  split
  · exact hP.throw _
  next g hg =>
    have asked (p : String) : P (do
        let made ← g.generate
          { key := s.answerKey step.name, prompt := p, system := s.system
            temperature := s.temperature.map .float, maxTokens := s.maxTokens
            guardrails := s.guardrails, budget := s.budget }
        return made.text : Run String) :=
      hP.bind (calls g hg _) fun _ => hP.pure _
    split
    · exact hP.bind (hP.pure _) asked
    · exact hP.bind (s.fullPrompt_holds hP) asked

theorem checked_holds (s : AiStep) (step : Step) (answer : String) :
    P (s.checked step c answer) := by
  unfold checked
  refine hP.bind (hP.ofExcept _) fun report => ?_
  split
  · exact hP.pure _
  · split
    · exact hP.bind (s.fullPrompt_holds hP) fun _ => generate_holds hP calls s step _
    · exact hP.pure _
    · exact hP.throw _

end Generation

section Delivery

variable (hw : c.isDry = false → ∀ p text, P (writeText p text))

theorem holdsText_holds (p : Path) (text : String) : P (holdsText p text) := by
  refine hP.look (fun s t alike => by simp only [alike.tree]) fun st => ?_
  split
  · exact hP.bind (hP.readText p) fun _ => hP.pure _
  · exact hP.pure _

include hw in
theorem deliverFile_holds (target : String) (step : Step) (text : String) :
    P (deliverFile target step c text) := by
  unfold deliverFile
  refine hP.bind (c.resolve_holds hP _) fun path => ?_
  dsimp only
  split
  · exact hP.pure _
  next wet =>
    refine hP.look (fun s t alike => by simp only [alike.tree]) fun st => ?_
    refine hP.bind (holdsText_holds hP path text) fun same => ?_
    split
    · exact hP.pure _
    · exact hP.bind (hw (by simpa using wet) _ _) fun _ => hP.pure _

include hw in
theorem deliverSplice_holds (o : Output) (target : String) (step : Step) (text : String) :
    P (deliverSplice o target step c text) := by
  unfold deliverSplice
  refine hP.bind (c.resolve_holds hP _) fun path => ?_
  refine hP.bind (hP.mapM? _ (c.render_holds hP)) fun skipIf => ?_
  refine hP.bind (splice_holds hP hw path text _) fun spliced => ?_
  split
  split
  · exact hP.pure _
  · split <;> exact hP.pure _

include hw in
theorem deliver_holds (sets : ∀ name v, P (setVariable name v))
    (prints : ∀ m, P (emit m)) (s : AiStep) (step : Step) (text : String) :
    P (s.deliver step c text) := by
  unfold AiStep.deliver
  dsimp only
  split
  · exact hP.bind (sets _ _) fun _ => hP.pure _
  · exact hP.bind (prints _) fun _ => hP.pure _
  · refine hP.bind ?_ fun target => deliverFile_holds hP hw target step text
    split
    · exact hP.pure _
    · exact hP.throw _
  · refine hP.bind ?_ fun target => deliverSplice_holds hP hw _ target step text
    split
    · exact hP.pure _
    · exact hP.throw _
  · exact hP.pure _

end Delivery

theorem guarded_holds {r : Run StepResult} (h : P r) (step : Step) :
    P (guarded step r) := by
  refine hP.bind (hP.attempt h) fun o => ?_
  split
  · exact hP.pure _
  · split
    · exact hP.pure _
    · exact hP.throw _

/-- What a step that asks a model does: it records its inquiry, or gets a text and delivers it. -/
theorem execute_holds (records : ∀ i : Inquiry, P (Run.collect fun k => k.add i))
    (calls : ∀ g, c.generator = some g → ∀ d, P (g.generate d))
    (hw : c.isDry = false → ∀ p text, P (writeText p text))
    (sets : ∀ name v, P (setVariable name v)) (prints : ∀ m, P (emit m))
    (s : AiStep) (step : Step) : P (s.execute step c) := by
  unfold AiStep.execute
  split
  · refine guarded_holds hP ?_ step
    refine hP.bind (checked_holds hP calls s step _) fun text => ?_
    exact deliver_holds hP hw sets prints s step text
  · refine hP.look (fun s t alike => by rw [alike.collector]) fun st => ?_
    split
    · exact collect_holds hP records s step
    · refine guarded_holds hP ?_ step
      refine hP.bind (generate_holds hP calls s step none) fun text => ?_
      exact deliver_holds hP hw sets prints s step text

end AiStep

/-! ## All tools -/

/-- Whatever a tool may do in a context has a property. -/
structure StepContext.Permits (c : StepContext) (P : ∀ {α : Type}, Run α → Prop) (sh : Shell)
    (actions : Actions) : Prop where
  writes : c.isDry = false → ∀ p text, P (writeText p text)
  runs : c.isDry = false → ∀ k, P (Run.command sh k)
  asks : c.options.interactive = true → ∀ w, c.prompter = some w → ∀ name d, P (w.ask name d)
  confirms : c.options.interactive = true → ∀ w, c.prompter = some w →
    ∀ message, P (w.confirm message)
  prints : ∀ message, P (emit message)
  acts : c.isDry = false → ∀ name, P (note (.acted name))
  handles : c.isDry = false → ∀ name a, actions.find? name = some a → ∀ params,
    P (a.handler params c)
  shares : ∀ f : Record Value → Record Value,
    P (modify fun s => { s with scope := { s.scope with shared := f s.scope.shared } } : Run PUnit)
  sets : ∀ name v, P (setVariable name v)
  records : ∀ i : Inquiry, P (Run.collect fun k => k.add i)
  calls : ∀ g, c.generator = some g → ∀ d, P (g.generate d)

theorem Tool.execute_holds {sh : Shell} {actions : Actions} {c : StepContext}
    (h : c.Permits @P sh actions) {t : Tool} (ht : t ∈ Tools.standard sh actions) (s : Step) :
    P (t.execute s c) := by
  simp only [Tools.standard, List.mem_cons, List.not_mem_nil, or_false] at ht
  rcases ht with rfl | rfl | rfl | rfl | rfl | rfl | rfl
  · dsimp only [Tool.action]
    split
    · exact ActionStep.execute_holds hP h.asks h.acts h.handles h.shares _ s
    · exact hP.pure _
  · dsimp only [Tool.add]
    split
    · exact AddStep.execute_holds hP h.writes h.confirms _ s
    · exact hP.pure _
  · dsimp only [Tool.inject]
    split
    · exact InjectStep.execute_holds hP h.writes _ s
    · exact hP.pure _
  · dsimp only [Tool.shell]
    split
    · exact ShellStep.execute_holds hP h.runs _ s
    · exact hP.pure _
  · dsimp only [Tool.setup]
    split
    · exact SetupStep.execute_holds hP h.runs _ s
    · exact hP.pure _
  · dsimp only [Tool.echo]
    split
    · refine hP.bind (c.render_holds hP _) fun message => ?_
      exact hP.bind (h.prints message) fun _ => hP.pure _
    · exact hP.pure _
  · dsimp only [Tool.model]
    split
    · exact AiStep.execute_holds hP h.records h.calls h.writes h.sets h.prints _ s
    · exact hP.pure _

/-! ## Variables -/

namespace Recipe

variable {s : Sources}
  (asks : ∀ w, s.prompter = some w → s.ask = some .person → ∀ name d, P (w.ask name d))

include asks

theorem firstValue_holds (name : String) (d : Variable) : P (firstValue s name d) := by
  unfold firstValue
  split
  · exact hP.pure _
  · unfold askedValue
    split
    next w _ person hw => exact hP.bind (asks w hw person name d) fun _ => hP.pure _
    next => exact hP.pure _

/-- To resolve variables is to ask a person at most. -/
theorem resolveVariables_holds (r : Recipe) : P (r.resolveVariables s) := by
  unfold resolveVariables
  refine hP.bind (hP.foldlM _ _ fun acc entry => ?_) fun done => hP.ofExcept _
  unfold resolveOne
  refine hP.bind (firstValue_holds hP asks _ _) fun value => ?_
  split
  · exact hP.pure _
  · exact hP.pure _
  · split
    · exact hP.pure _
    · exact hP.bind (hP.ofExcept _) fun _ => hP.pure _

end Recipe

end Effects

/-! ## Calls of a model -/

namespace Generator

variable {R : Session → Session → Prop} [IsPreorder Session R]

section Calls

variable (accounts : ∀ (s : Session) ledger, R s { s with ledger })
  (calls : ∀ (s : Session) call, R s (s.note (.called call)))

include accounts calls

theorem complete_keeps (g : Generator) (p y : String) (t : Option Number) (m : Option Int)
    (b : Allowance) : (g.complete p y t m b).Keeps R := by
  intro s
  unfold Generator.complete
  rw [on_bind_ok (on_get s)]
  dsimp only
  split
  · exact refl_of R s
  next ledger _ =>
    rw [on_bind_ok (on_set _ s)]
    have called (call : ModelCall) : R s (({ s with ledger } : Session).note (.called call)) :=
      trans_of R (accounts s ledger) (calls _ call)
    refine trans_of R (called _) ((keepsAll R).bind ((keepsAll R).ofExcept _) (fun reply => ?_) _)
    exact (keepsAll R).bind (keeps_modify fun s => accounts s _) fun _ => (keepsAll R).pure _

/-- All that a model's calls do is to enter themselves in the accounts and in the journal. -/
theorem generate_keeps (g : Generator) (d : Demand) : (g.generate d).Keeps R := by
  have complete := complete_keeps accounts calls g
  have attempts_keeps (left made : Nat) (prompt : String) (used : Usage) (spent : Binary64) :
      (g.attempts d left made prompt used spent).Keeps R := by
    induction left generalizing made prompt used spent with
    | zero =>
      refine (keepsAll R).bind (complete _ _ _ _ _) fun reply => keeps_look fun st => ?_
      refine (keepsAll R).bind ((keepsAll R).ofExcept _) fun report => ?_
      split
      · exact (keepsAll R).pure _
      · split
        · exact (keepsAll R).pure _
        · exact (keepsAll R).throw _
    | succ left ih =>
      refine (keepsAll R).bind (complete _ _ _ _ _) fun reply => keeps_look fun st => ?_
      refine (keepsAll R).bind ((keepsAll R).ofExcept _) fun report => ?_
      split
      · exact (keepsAll R).pure _
      · exact ih _ _ _ _
  exact attempts_keeps _ _ _ _ _

end Calls

end Generator

namespace Tools

variable {ts : Tools} {sh : Shell} {actions : Actions} {k : StepKind} {t : Tool}

/-- The tools are among those for the kinds of steps. -/
def AreStandard (ts : Tools) (sh : Shell) (actions : Actions) : Prop :=
  ∀ t ∈ ts, t ∈ Tools.standard sh actions

theorem get?_eq_some (h : ts.get? k = some t) : t ∈ ts ∧ t.kind = k := by
  refine ⟨List.mem_reverse.mp (List.mem_of_find?_eq_some h), ?_⟩
  simpa using List.find?_some h

/-- The tool for a kind of steps among those for all kinds. -/
def standardFor (sh : Shell) (actions : Actions) : StepKind → Tool
  | .action => .action actions
  | .add => .add
  | .inject => .inject
  | .shell => .shell sh
  | .setup => .setup sh
  | .echo => .echo
  | .ai => .model

theorem AreStandard.get? (hts : ts.AreStandard sh actions) (h : ts.get? k = some t) :
    t = standardFor sh actions k := by
  obtain ⟨mem, rfl⟩ := get?_eq_some h
  have standard := hts t mem
  simp only [Tools.standard, List.mem_cons, List.not_mem_nil, or_false] at standard
  rcases standard with rfl | rfl | rfl | rfl | rfl | rfl | rfl <;> rfl

end Tools

end Scaffold
