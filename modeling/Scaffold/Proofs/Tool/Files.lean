import Scaffold.Proofs.Path.Names
import Scaffold.Proofs.Splice.Presence
import Scaffold.Proofs.Session.Journal
import Scaffold.Proofs.Tool.Effects
import Scaffold.Proofs.Tree.Places

/-!
# What tools do to files

Reading and writing along a path that leads to a place is reading and writing this place.  A splice
into a file fails, or finds itself needless, or changes nothing, or writes the spliced text.

Tools that work on files do so once at most, at the end.  All that comes before only reads, and may
talk to a person.  So a step leaves the files as they are and reports none, or it writes one file:
one that was not there, which it reports as created, or one with another text, which it reports as
modified.  A step that fails leaves the files as they are.
-/

namespace Scaffold

open Run

namespace Run

variable {α β : Type} {p : Path} {place : Place} {s t : Session} {text : String}

/-! ## Texts of files -/

theorem on_readText (p : Path) (s : Session) :
    (readText p).on s =
      (((s.tree.read p).mapError Failure.file).bind fun c => c.decode.mapError .badOctets, s) := by
  unfold readText
  rw [on_bind_ok (on_get s), on_bind, ofFile, on_ofExcept]
  cases (s.tree.read p).mapError Failure.file with
  | error f => rfl
  | ok c => exact on_ofExcept _ s

/-- A text that is read is the text that the place holds. -/
theorem readText_eq_ok (leads : s.tree.Leads p place) (closed : s.tree.Closed) :
    (readText p).on s = (.ok text, t) ↔ t = s ∧ s.tree.HoldsText place text := by
  rw [on_readText, Prod.mk.injEq, and_comm, eq_comm]
  refine and_congr_right fun _ => ?_
  constructor
  · intro h
    rcases read : s.tree.read p with f | c
    · rw [read] at h
      cases h
    · rw [read] at h
      rcases decoded : c.decode with f | text'
      · simp [Except.bind, Except.mapError, decoded] at h
      · simp only [Except.bind, Except.mapError, decoded, Except.ok.injEq] at h
        subst h
        exact ⟨c, (leads.read_eq_ok closed).mp read, decoded⟩
  · rintro ⟨c, there, decoded⟩
    rw [(leads.read_eq_ok closed).mpr there]
    simp [Except.bind, Except.mapError, decoded]

/-- Writing along a path fails and changes nothing, or writes the place that it leads to. -/
theorem writeText_cases (leads : s.tree.Leads p place) (closed : s.tree.Closed)
    (other : s.tree.at? place ≠ some .directory) (text : String) :
    (∃ f, (writeText p text).on s = (.error f, s)) ∨
      ∃ tree, (writeText p text).on s = (.ok ⟨⟩, { s with tree }) ∧
        s.tree.Written place text tree := by
  rw [on_writeText]
  rcases Tree.replace_cases leads closed other text with ⟨f, failed⟩ | ⟨tree, replaced, written⟩
  · rw [failed]
    exact .inl ⟨_, rfl⟩
  · rw [replaced]
    exact .inr ⟨tree, rfl, written⟩

/-- What comes of a splice into the file at a place. -/
inductive Spliced (place : Place) (body : String) (rule : Splice.Rule) (dry : Bool) (s : Session) :
    Except Failure (Bool × Option String) × Session → Prop where
  | failed (f : Failure) : Spliced place body rule dry s (.error f, s)
  /-- It was needless. -/
  | skipped {content : String} {o : Splice.Outcome} (held : s.tree.HoldsText place content)
      (applied : Splice.apply content body rule = .ok o) (skipped : o.skipped = true) :
      Spliced place body rule dry s (.ok (false, o.reason), s)
  /-- It had nothing to change, or was not to change anything. -/
  | kept {content : String} {o : Splice.Outcome} (held : s.tree.HoldsText place content)
      (applied : Splice.apply content body rule = .ok o) (skipped : o.skipped = false)
      (idle : o.changed = false ∨ dry = true) : Spliced place body rule dry s (.ok (o.changed, none), s)
  | written {content : String} {o : Splice.Outcome} {tree : Tree}
      (held : s.tree.HoldsText place content) (applied : Splice.apply content body rule = .ok o)
      (changed : o.changed = true) (wet : dry = false)
      (written : s.tree.Written place o.content tree) :
      Spliced place body rule dry s (.ok (true, none), { s with tree })

theorem splice_spliced (leads : s.tree.Leads p place) (closed : s.tree.Closed) (body : String)
    (rule : Splice.Rule) (dry : Bool) :
    Spliced place body rule dry s ((splice p body rule dry).on s) := by
  unfold splice
  rw [on_bind_ok (on_get s)]
  dsimp only
  split
  next => exact .failed _
  next =>
    rw [on_bind]
    rcases read : (readText p).on s with ⟨f | content, s₁⟩
    · rw [on_readText] at read
      obtain ⟨-, rfl⟩ := Prod.mk.inj read
      exact .failed f
    obtain ⟨rfl, held⟩ := (readText_eq_ok leads closed).mp read
    dsimp only
    rcases applied : Splice.apply content body rule with f | o
    · exact .failed _
    have spliced : (ofExcept ((Except.ok o).mapError Failure.ofSplice)).on s₁ = (.ok o, s₁) := rfl
    rw [on_bind_ok spliced]
    cases skipped : o.skipped with
    | true =>
      rw [if_pos rfl]
      exact .skipped held applied skipped
    | false =>
      rw [if_neg Bool.false_ne_true]
      cases writes : o.changed && !dry with
      | false =>
        rw [if_neg Bool.false_ne_true]
        refine .kept held applied skipped ?_
        simpa [imp_iff_not_or] using writes
      | true =>
        rw [if_pos rfl]
        obtain ⟨changed, wet⟩ : o.changed = true ∧ dry = false := by simpa using writes
        rcases writeText_cases leads closed held.not_directory o.content with
          ⟨f, failed⟩ | ⟨tree, written, here⟩
        · rw [on_bind_error failed]
          exact .failed f
        · rw [on_bind_ok written, changed]
          exact .written held applied changed wet here

end Run

/-! ## What precedes the work on a file -/

namespace Session

/-- From `s` to `t` neither the files nor the variables changed. -/
structure Untouched (s t : Session) : Prop where
  tree : t.tree = s.tree
  scope : t.scope = s.scope

instance untouchedPreorder : IsPreorder Session Untouched where
  refl _ := ⟨rfl, rfl⟩
  trans _ _ _ h h' := ⟨h'.tree.trans h.tree, h'.scope.trans h.scope⟩

theorem Conversed.untouched {s t : Session} (h : Conversed s t) : Untouched s t := ⟨h.tree, h.scope⟩

end Session

open Session

theorem untouchedAll : Compositional (Keeps Untouched) := keepsAll Untouched

/-- Calls of a model change neither files nor variables. -/
theorem Generator.generate_untouched (g : Generator) (d : Demand) :
    (g.generate d).Keeps Untouched :=
  g.generate_keeps (fun _ _ => ⟨rfl, rfl⟩) (fun _ _ => ⟨rfl, rfl⟩) d

/-- A text that is resolved is rendered with the variables of the step. -/
theorem StepContext.resolve_eq_ok {c : StepContext} {text : String} {s t : Session} {p : Path}
    (h : (c.resolve text).on s = (.ok p, t)) :
    ∃ rendered, Template.render text s.scope.visible = .ok rendered ∧
      p = c.project.child rendered := by
  unfold StepContext.resolve at h
  rw [on_bind, c.on_render] at h
  rcases rendered : Template.render text s.scope.visible with f | r
  · rw [rendered] at h
    cases h
  · rw [rendered] at h
    cases h
    exact ⟨r, rfl, rfl⟩

/-! ## The work on a file -/

/-- The text of the path that a step works on, if it works on a file. -/
def Step.target? (s : Step) : Option String :=
  match s.body with
  | .add a => some a.target
  | .inject a => some a.target
  | .ai a =>
    if ["file", "inject"].contains ((a.output.map (·.type)).getD "variable") then
      a.output.bind (·.target)
    else none
  | _ => none

/-- The path that a step works on, as its variables write it. -/
def Step.written? (s : Step) (visible : Record Value) : Option String :=
  s.target?.bind fun text => (Template.render text visible).toOption

/-- The path that a step works on, seen from a project. -/
def Step.path? (s : Step) (project : Path) (visible : Record Value) : Option Path :=
  (s.written? visible).map project.child

theorem Step.path?_eq_some {step : Step} {text rendered : String} {visible : Record Value}
    (target : step.target? = some text) (renders : Template.render text visible = .ok rendered)
    (project : Path) : step.path? project visible = some (project.child rendered) := by
  rw [Step.path?, Step.written?, target, Option.bind_some, renders]
  rfl

/-- What a step did to the files, and what it reports. -/
inductive Filed (path : Option Path) (project : Path) (t : Tree) :
    Except Failure StepResult → Tree → Prop where
  | nothing {o : Except Failure StepResult} (silent : ∀ r, o = .ok r → r.files = {}) :
      Filed path project t o t
  | created {p : Path} {place : Place} {text : String} {r : StepResult} {t' : Tree}
      (target : path = some p) (leads : t.Leads p place) (absent : t.at? place = none)
      (written : t.Written place text t') (success : r.success = true)
      (files : r.files = { created := [Path.shownFrom project p] }) : Filed path project t (.ok r) t'
  | modified {p : Path} {place : Place} {old text : String} {r : StepResult} {t' : Tree}
      (target : path = some p) (leads : t.Leads p place) (held : t.HoldsText place old)
      (other : old ≠ text) (written : t.Written place text t') (success : r.success = true)
      (files : r.files = { modified := [Path.shownFrom project p] }) : Filed path project t (.ok r) t'

/-- A failure leaves the files as they are. -/
theorem Filed.tree_of_error {path : Option Path} {project : Path} {t t' : Tree} {f : Failure}
    (h : Filed path project t (.error f) t') : t' = t := by
  cases h
  rfl

namespace Run

/-- What a run that makes the result of a step does to the files of a session. -/
def Files (path : Option Path) (project : Path) (s : Session) (r : Run StepResult) : Prop :=
  Filed path project s.tree (r.on s).1 (r.on s).2.tree

variable {α : Type} {path : Option Path} {project : Path} {s : Session}

theorem files_pure {r : StepResult} (silent : r.files = {}) : Files path project s (pure r) :=
  .nothing fun _ h => Except.ok.inj h ▸ silent

theorem files_throw (f : Failure) : Files path project s (throw f) := .nothing nofun

theorem files_look {f : Session → Run StepResult} (h : Files path project s (f s)) :
    Files path project s (get >>= f) := h

/-- What neither changes files nor variables can come first. -/
theorem files_bind {x : Run α} {f : α → Run StepResult} (hx : x.Keeps Untouched)
    (hf : ∀ a t, Untouched s t → x.on s = (.ok a, t) → Files path project t (f a)) :
    Files path project s (x >>= f) := by
  have same := hx s
  unfold Files
  rw [on_bind]
  rcases ran : x.on s with ⟨e | a, t⟩
  · rw [ran] at same
    rw [← same.tree]
    exact .nothing nofun
  · rw [ran] at same
    rw [← same.tree]
    exact hf a t same ran

/-- Turning a failure into a result that reports nothing changes nothing about the files. -/
theorem files_attempt {r : Run StepResult} {f : Except Failure StepResult → Run StepResult}
    (h : Files path project s r) (ok : ∀ o, f (.ok o) = pure o)
    (error : ∀ e t, Files path project t (f (.error e))) : Files path project s (r.attempt >>= f) := by
  unfold Files at h ⊢
  rw [on_bind, on_attempt]
  dsimp only
  rcases ran : r.on s with ⟨e | o, t⟩
  · rw [ran] at h
    rw [← h.tree_of_error]
    exact error e t
  · rw [ran] at h
    dsimp only
    rw [ok]
    exact h

end Run

section Tools

variable {path : Option Path} {c : StepContext} {s : Session} {p : Path} {place : Place}

/-- The report of a file that was written. -/
def wrote (present : Bool) (shown : String) : Touched :=
  if present then { modified := [shown] } else { created := [shown] }

/-- A text is written where there is no file, or where there is another text. -/
theorem writeText_files {present : Bool} {text : String} {r : StepResult} (target : path = some p)
    (leads : s.tree.Leads p place) (closed : s.tree.Closed)
    (absent : present = false → s.tree.at? place = none)
    (held : present = true → ∃ old, s.tree.HoldsText place old ∧ old ≠ text)
    (success : r.success = true) (files : r.files = wrote present (c.shown p)) :
    Files path c.project s (writeText p text >>= fun _ => pure r) := by
  have other : s.tree.at? place ≠ some .directory := by
    cases present with
    | false =>
      rw [absent rfl]
      nofun
    | true =>
      obtain ⟨old, held, -⟩ := held rfl
      exact held.not_directory
  unfold Files
  rcases writeText_cases leads closed other text with ⟨f, failed⟩ | ⟨tree, written, here⟩
  · rw [on_bind_error failed]
    exact .nothing nofun
  · rw [on_bind_ok written]
    cases present with
    | false => exact .created target leads (absent rfl) here success files
    | true =>
      obtain ⟨old, held, differs⟩ := held rfl
      exact .modified target leads held differs here success files

namespace AddStep

/-- A file is put where there is none, or where there is another text. -/
theorem put_files (present : Bool) (target : path = some p) (leads : s.tree.Leads p place)
    (closed : s.tree.Closed) {body : String} (absent : present = false → s.tree.at? place = none)
    (held : present = true → ∃ old, s.tree.HoldsText place old ∧ old ≠ body) (step : Step)
    (force : Bool) : Files path c.project s (put step c p present force body) := by
  unfold put
  dsimp only
  split
  · exact files_pure rfl
  · cases present with
    | false => exact writeText_files target leads closed absent held rfl rfl
    | true => exact writeText_files target leads closed absent held rfl rfl

section

variable (quiet : c.options.interactive = true → ∀ w, c.prompter = some w → ∀ message,
  (w.confirm message).Keeps Untouched)

include quiet

theorem replace_files (target : path = some p) (leads : s.tree.Leads p place)
    (closed : s.tree.Closed) (step : Step) (force : Bool) (body : String) :
    Files path c.project s (replace step c p force body) := by
  unfold replace
  refine files_bind (untouchedAll.readText p) fun current t same read => ?_
  obtain ⟨rfl, held⟩ := (readText_eq_ok leads closed).mp read
  split
  · exact files_pure rfl
  next differs =>
    refine files_bind (mayOverwrite_holds untouchedAll quiet force _) fun allowed t same _ => ?_
    split
    · exact files_pure rfl
    · have there : ∃ old, t.tree.HoldsText place old ∧ old ≠ body :=
        ⟨current, same.tree ▸ held, differs⟩
      exact put_files true target (same.tree ▸ leads) (same.tree ▸ closed)
        (fun absent => absurd absent.symm Bool.false_ne_true) (fun _ => there) step force

theorem execute_files {a : AddStep} {step : Step} (body : step.body = .add a)
    (closed : s.tree.Closed)
    (leads : ∀ p, step.path? c.project s.scope.visible = some p → ∃ place, s.tree.Leads p place) :
    Files (step.path? c.project s.scope.visible) c.project s (a.execute step c) := by
  unfold AddStep.execute
  refine files_bind (c.resolve_holds untouchedAll _) fun p t same resolved => ?_
  obtain ⟨rendered, renders, rfl⟩ := StepContext.resolve_eq_ok resolved
  have given : step.target? = some a.target := by rw [Step.target?, body]
  have target := Step.path?_eq_some given renders c.project
  obtain ⟨place, leads⟩ := leads _ target
  refine files_bind (a.isKept_holds untouchedAll) fun kept t' same' _ => ?_
  replace same := trans_of Untouched same same'
  split
  · exact files_pure rfl
  refine files_look ?_
  dsimp only
  split
  · exact files_pure rfl
  refine files_bind (step.loadBody_holds untouchedAll _ _ c) fun text t'' same'' _ => ?_
  -- nothing was done so far, so what was seen of the file still holds
  have here := trans_of Untouched same same''
  have leads' : t''.tree.Leads (c.project.child rendered) place := here.tree ▸ leads
  have closed' : t''.tree.Closed := here.tree ▸ closed
  split
  next => exact replace_files quiet target leads' closed' step _ text
  next absent =>
    have none : t''.tree.at? place = none := by
      refine Classical.not_not.mp ((leads'.present_iff closed').not.mp ?_)
      rwa [same''.tree]
    exact put_files false target leads' closed' (fun _ => none)
      (fun present => absurd present Bool.false_ne_true) step _

end

end AddStep

/-- A splice into a file modifies it, unless nothing changes or nothing is to be changed. -/
theorem splice_files {body : String} {rule : Splice.Rule} {f : Bool × Option String → Run StepResult}
    (target : path = some p) (leads : s.tree.Leads p place) (closed : s.tree.Closed)
    (idle : ∀ changed reason, changed = false ∨ c.isDry = true →
      ∃ r : StepResult, f (changed, reason) = pure r ∧ r.files = {})
    (busy : c.isDry = false → ∃ r : StepResult, f (true, none) = pure r ∧ r.success = true ∧
      r.files = { modified := [c.shown p] }) :
    Files path c.project s (splice p body rule c.isDry >>= f) := by
  have spliced := splice_spliced leads closed body rule c.isDry
  unfold Files
  rw [on_bind]
  rcases ran : (splice p body rule c.isDry).on s with ⟨o, t⟩
  rw [ran] at spliced
  cases spliced with
  | failed e => exact .nothing nofun
  | skipped =>
    obtain ⟨r, result, silent⟩ := idle false _ (.inl rfl)
    dsimp only
    rw [result]
    exact files_pure silent
  | kept _ _ _ quiet =>
    obtain ⟨r, result, silent⟩ := idle _ none quiet
    dsimp only
    rw [result]
    exact files_pure silent
  | written held applied changed wet written =>
    obtain ⟨r, result, success, files⟩ := busy wet
    dsimp only
    rw [result]
    exact .modified target leads held (Ne.symm ((Splice.changed_iff applied).mp changed)) written
      success files

theorem InjectStep.execute_files {a : InjectStep} {step : Step} (body : step.body = .inject a)
    (closed : s.tree.Closed)
    (leads : ∀ p, step.path? c.project s.scope.visible = some p → ∃ place, s.tree.Leads p place) :
    Files (step.path? c.project s.scope.visible) c.project s (a.execute step c) := by
  unfold InjectStep.execute
  refine files_bind (c.resolve_holds untouchedAll _) fun p t same resolved => ?_
  obtain ⟨rendered, renders, rfl⟩ := StepContext.resolve_eq_ok resolved
  have given : step.target? = some a.target := by rw [Step.target?, body]
  have target := Step.path?_eq_some given renders c.project
  obtain ⟨place, leads⟩ := leads _ target
  refine files_bind (step.loadBody_holds untouchedAll _ _ c) fun text t' same' _ => ?_
  refine files_bind (untouchedAll.mapM? _ (c.render_holds untouchedAll)) fun skipIf t'' same'' _ => ?_
  replace same := trans_of Untouched (trans_of Untouched same same') same''
  refine files_look ?_
  dsimp only
  split
  · exact files_pure rfl
  refine splice_files target (same.tree ▸ leads) (same.tree ▸ closed) (fun changed reason idle => ?_)
    fun wet => ?_
  · dsimp only
    split
    · exact ⟨_, rfl, rfl⟩
    · rcases idle with rfl | dry
      · exact ⟨_, rfl, rfl⟩
      · simp only [dry, if_true]
        split <;> exact ⟨_, rfl, rfl⟩
  · simp only [wet]
    exact ⟨_, rfl, rfl, rfl⟩

namespace AiStep

/-- A file that is there but does not hold a text holds another one. -/
theorem exists_of_not_holdsText {text : String} {t : Session} (leads : s.tree.Leads p place)
    (closed : s.tree.Closed) (present : s.tree.present p = true)
    (h : (holdsText p text).on s = (.ok false, t)) :
    ∃ old, s.tree.HoldsText place old ∧ old ≠ text := by
  unfold holdsText at h
  rw [on_bind_ok (on_get s), if_pos present] at h
  obtain ⟨old, s₁, read, compared⟩ := on_bind_eq_ok h
  obtain ⟨rfl, held⟩ := (readText_eq_ok leads closed).mp read
  have differs : decide (old = text) = false := Except.ok.inj (Prod.mk.inj compared).1
  exact ⟨old, held, of_decide_eq_false differs⟩

theorem deliverFile_files {target : String} {step : Step} (text : String) (closed : s.tree.Closed)
    (targets : ∀ r, Template.render target s.scope.visible = .ok r →
      path = some (c.project.child r))
    (leads : ∀ p, path = some p → ∃ place, s.tree.Leads p place) :
    Files path c.project s (deliverFile target step c text) := by
  unfold deliverFile
  refine files_bind (c.resolve_holds untouchedAll _) fun p t same resolved => ?_
  obtain ⟨rendered, renders, rfl⟩ := StepContext.resolve_eq_ok resolved
  have target := targets rendered renders
  obtain ⟨place, leads⟩ := leads _ target
  dsimp only
  split
  · exact files_pure rfl
  replace leads := same.tree ▸ leads
  replace closed := same.tree ▸ closed
  refine files_look ?_
  refine files_bind (holdsText_holds untouchedAll _ text) fun held t' same' asked => ?_
  split
  · exact files_pure rfl
  next differs =>
    obtain rfl : held = false := by simpa using differs
    -- a file that is there was looked at, and the tree is still the same
    refine writeText_files target (same'.tree ▸ leads) (same'.tree ▸ closed) (fun absent => ?_)
      (fun present => ?_) rfl rfl
    · rw [same'.tree]
      exact Classical.not_not.mp ((leads.present_iff closed).not.mp (by simpa using absent))
    · rw [same'.tree]
      exact exists_of_not_holdsText leads closed present asked

theorem deliverSplice_files {o : Output} {target : String} {step : Step} (text : String)
    (closed : s.tree.Closed)
    (targets : ∀ r, Template.render target s.scope.visible = .ok r →
      path = some (c.project.child r))
    (leads : ∀ p, path = some p → ∃ place, s.tree.Leads p place) :
    Files path c.project s (deliverSplice o target step c text) := by
  unfold deliverSplice
  refine files_bind (c.resolve_holds untouchedAll _) fun p t same resolved => ?_
  obtain ⟨rendered, renders, rfl⟩ := StepContext.resolve_eq_ok resolved
  have target := targets rendered renders
  obtain ⟨place, leads⟩ := leads _ target
  refine files_bind (untouchedAll.mapM? _ (c.render_holds untouchedAll)) fun skipIf t' same' _ => ?_
  replace same := trans_of Untouched same same'
  refine splice_files target (same.tree ▸ leads) (same.tree ▸ closed) (fun changed reason idle => ?_)
    fun wet => ?_
  · dsimp only
    split
    · exact ⟨_, rfl, rfl⟩
    · rw [if_pos (by rcases idle with rfl | dry <;> simp [*])]
      exact ⟨_, rfl, rfl⟩
  · dsimp only
    rw [if_neg (by simp [wet])]
    exact ⟨_, rfl, rfl, rfl⟩

theorem deliver_files {a : AiStep} {step : Step} (body : step.body = .ai a) (text : String)
    (closed : s.tree.Closed)
    (leads : ∀ p, step.path? c.project s.scope.visible = some p → ∃ place, s.tree.Leads p place) :
    Files (step.path? c.project s.scope.visible) c.project s (a.deliver step c text) := by
  have targets {target : String} (file : ["file", "inject"].contains
      ((a.output.map (·.type)).getD "variable") = true) (given : a.output.bind (·.target) = some target)
      (r : String) (renders : Template.render target s.scope.visible = .ok r) :
      step.path? c.project s.scope.visible = some (c.project.child r) := by
    have named : step.target? = some target := by
      simp only [Step.target?, body, file, if_true, given]
    exact Step.path?_eq_some named renders c.project
  unfold AiStep.deliver
  dsimp only
  split
  · exact .nothing fun _ h => by cases h; rfl
  · exact .nothing fun _ h => by cases h; rfl
  next type =>
    split
    next target given =>
      refine deliverFile_files text closed (targets ?_ given) leads
      rw [type]
      rfl
    next => exact files_throw _
  next type output =>
    split
    next target given =>
      refine deliverSplice_files text closed (targets ?_ given) leads
      rw [type]
      rfl
    next => exact files_throw _
  · exact files_pure rfl

theorem guarded_files {r : Run StepResult} (h : Files path c.project s r) (step : Step) :
    Files path c.project s (guarded step r) := by
  refine files_attempt h (fun _ => rfl) fun e t => ?_
  dsimp only
  split
  · exact files_pure rfl
  · exact files_throw e

theorem execute_files {a : AiStep} {step : Step} (body : step.body = .ai a)
    (closed : s.tree.Closed)
    (leads : ∀ p, step.path? c.project s.scope.visible = some p → ∃ place, s.tree.Leads p place) :
    Files (step.path? c.project s.scope.visible) c.project s (a.execute step c) := by
  have calls : ∀ g, c.generator = some g → ∀ d, (g.generate d).Keeps Untouched :=
    fun g _ d => g.generate_untouched d
  have delivers {x : Run String} (hx : x.Keeps Untouched) :
      Files (step.path? c.project s.scope.visible) c.project s (x >>= a.deliver step c) := by
    refine files_bind hx fun text t same _ => ?_
    rw [← same.tree] at closed leads
    rw [← same.scope] at leads ⊢
    exact deliver_files body text closed leads
  unfold AiStep.execute
  split
  · exact guarded_files (delivers (checked_holds untouchedAll calls a step _)) step
  · refine files_look ?_
    split
    · refine files_bind (a.surroundings_holds untouchedAll) fun _ _ _ _ => ?_
      refine files_bind (c.render_holds untouchedAll _) fun _ _ _ _ => ?_
      refine files_bind (keeps_modify fun _ => ⟨rfl, rfl⟩) fun _ _ _ _ => ?_
      exact files_pure rfl
    · exact guarded_files (delivers (generate_holds untouchedAll calls a step none)) step

end AiStep

/-- What the tool for a step does to the files. -/
theorem runTool_files {step : Step} {sh : Shell} {actions : Actions}
    (kind : step.kind = .add ∨ step.kind = .inject ∨ step.kind = .ai)
    (quiet : ∀ w, c.prompter = some w → w.Quiet) (closed : s.tree.Closed)
    (leads : ∀ p, step.path? c.project s.scope.visible = some p → ∃ place, s.tree.Leads p place) :
    Files (step.path? c.project s.scope.visible) c.project s
      (Engine.runTool (Tools.standardFor sh actions step.kind) step c) := by
  refine files_attempt ?_ (fun _ => rfl) fun _ _ => files_pure rfl
  have confirms : c.options.interactive = true → ∀ w, c.prompter = some w → ∀ message,
      (w.confirm message).Keeps Untouched :=
    fun _ w h message => ((quiet w h).confirm message).mono fun _ _ => Conversed.untouched
  cases body : step.body with
  | add a =>
    rw [show step.kind = .add from congrArg StepBody.kind body]
    simp only [Tools.standardFor, Tool.add, body]
    exact AddStep.execute_files confirms body closed leads
  | inject a =>
    rw [show step.kind = .inject from congrArg StepBody.kind body]
    simp only [Tools.standardFor, Tool.inject, body]
    exact InjectStep.execute_files body closed leads
  | ai a =>
    rw [show step.kind = .ai from congrArg StepBody.kind body]
    simp only [Tools.standardFor, Tool.model, body]
    exact AiStep.execute_files body closed leads
  | _ => simp [Step.kind, body, StepBody.kind] at kind

end Tools

end Scaffold
