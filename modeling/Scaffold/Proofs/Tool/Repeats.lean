import Scaffold.Proofs.Tool.Files

/-!
# Steps done again

A tree retains another if nothing of it is lost: what is there stays there, directories stay
directories, and what stands in one line of a text still stands in one.  A splice retains the tree that
it works on, and so does a file that is added where there was nothing.

A step that adds a file finds it there when it is done again, and leaves it alone unless it may
overwrite it.  A splice under a mark that stands in its own body finds the mark, and is skipped.  So in
every tree that retains the one that such a step left, the step has nothing left to do, whatever was
done to the tree in between.
-/

namespace Scaffold

open Run Session

namespace Tree

variable {t t' u : Tree} {place : Place} {text : String}

/-! ## What a tree retains -/

/-- What stands in one line of a text stands in one line of another. -/
def KeepsLines (text text' : String) : Prop :=
  ∀ lit, '\n' ∉ lit → lit <:+: text.toList → lit <:+: text'.toList

/-- Nothing of a tree is lost in another. -/
structure Retains (t t' : Tree) : Prop where
  present : ∀ x, t.at? x ≠ none → t'.at? x ≠ none
  directories : t.KeepsDirectories t'
  texts : ∀ x text, t.HoldsText x text → ∃ text', t'.HoldsText x text' ∧ KeepsLines text text'

theorem Retains.refl (t : Tree) : t.Retains t :=
  ⟨fun _ h => h, fun _ h => h, fun _ text held => ⟨text, held, fun _ _ h => h⟩⟩

theorem Retains.trans (h : t.Retains t') (h' : t'.Retains u) : t.Retains u := by
  refine ⟨fun x there => h'.present x (h.present x there), h.directories.trans h'.directories,
    fun x text held => ?_⟩
  obtain ⟨text', held', lines⟩ := h.texts x text held
  obtain ⟨text'', held'', lines'⟩ := h'.texts x text' held'
  exact ⟨text'', held'', fun lit free there => lines' lit free (lines lit free there)⟩

/-- A text that is written loses nothing if there was nothing, or a text whose lines it keeps. -/
theorem Written.retains (h : Written t place text t')
    (kept : t.at? place = none ∨ ∃ old, t.HoldsText place old ∧ KeepsLines old text) :
    t.Retains t' := by
  have other : t.at? place ≠ some .directory := by
    rcases kept with absent | ⟨old, held, -⟩
    · rw [absent]
      nofun
    · exact held.not_directory
  refine ⟨fun x there => ?_, h.keeps other, fun x old held => ?_⟩
  · by_cases here : x = place
    · rw [here, h.here]
      nofun
    · rcases h.others x here with same | ⟨absent, -⟩
      · rwa [same]
      · exact absurd absent there
  · by_cases here : x = place
    · subst here
      refine ⟨text, h.holdsText, ?_⟩
      rcases kept with absent | ⟨old', held', lines⟩
      · obtain ⟨c, there, -⟩ := held
        rw [absent] at there
        cases there
      · rwa [held.unique held']
    · rcases h.others x here with same | ⟨absent, -⟩
      · exact ⟨old, held.congr same, fun _ _ there => there⟩
      · obtain ⟨c, there, -⟩ := held
        rw [absent] at there
        cases there

end Tree

/-! ## Runs that need not be done again -/

/-- A session has the variables and the collector of another. -/
structure Session.Matches (s u : Session) : Prop where
  scope : u.scope = s.scope
  collector : u.collector = s.collector

theorem Session.Matches.visible {s u : Session} (h : s.Matches u) :
    u.scope.visible = s.scope.visible := congrArg Scope.visible h.scope

/-- Sessions that match and have the same files are alike. -/
theorem Session.Matches.alike {s u : Session} (h : s.Matches u) (files : u.tree = s.tree) :
    Alike s u := ⟨files.symm, h.collector.symm, h.scope.symm⟩

namespace Run

variable {α : Type} {x : Run StepResult} {s : Session}

/-- A run succeeds and changes nothing. -/
def Idle (x : Run StepResult) (s : Session) : Prop :=
  ∃ o, x.on s = (.ok o, s) ∧ o.success = true ∧ o.files = {}

/-- What comes of a run that changes nothing where it does not succeed, and has nothing left to do
where it succeeded. -/
inductive Lasting (x : Run StepResult) (s : Session) :
    Except Failure StepResult × Session → Prop where
  | failed (f : Failure) : Lasting x s (.error f, s)
  | refused {o : StepResult} (success : o.success = false) (files : o.files = {}) :
      Lasting x s (.ok o, s)
  | done {o : StepResult} {tree : Tree} (success : o.success = true)
      (retains : s.tree.Retains tree) (closed : tree.Closed)
      (again : ∀ u, s.Matches u → u.tree.Closed → tree.Retains u.tree → x.Idle u) :
      Lasting x s (.ok o, { s with tree })

/-- What a run does lasts. -/
def Lasts (x : Run StepResult) (s : Session) : Prop := Lasting x s (x.on s)

/-- A run looks at nothing but the variables of the step. -/
def Reads (x : Run α) (visible : Record Value) (r : Except Failure α) : Prop :=
  ∀ s : Session, s.scope.visible = visible → x.on s = (r, s)

/-- What has nothing to do from the start has nothing left to do. -/
theorem lasts_of_idle (closed : s.tree.Closed)
    (idle : ∀ u, s.Matches u → u.tree.Closed → s.tree.Retains u.tree → x.Idle u) :
    Lasts x s := by
  obtain ⟨o, result, success, -⟩ := idle s ⟨rfl, rfl⟩ closed (.refl _)
  unfold Lasts
  rw [result]
  exact .done success (.refl _) closed idle

/-- What a run does lasts if it does what another does in all sessions that match. -/
theorem lasts_congr {y : Run StepResult} (same : ∀ u, s.Matches u → x.on u = y.on u)
    (h : y.Lasts s) : x.Lasts s := by
  unfold Lasts at h ⊢
  rw [same s ⟨rfl, rfl⟩]
  generalize y.on s = result at h ⊢
  cases h with
  | failed f => exact .failed f
  | refused success files => exact .refused success files
  | done success retains closed again =>
    refine .done success retains closed fun u there closed kept => ?_
    obtain ⟨o, result, silent⟩ := again u there closed kept
    exact ⟨o, (same u there).trans result, silent⟩

theorem lasts_look (h : x.Lasts s) : Lasts (get >>= fun _ => x) s := h

theorem idle_pure {o : StepResult} (success : o.success = true) (files : o.files = {}) (s : Session) :
    Idle (pure o) s := ⟨o, rfl, success, files⟩

theorem idle_bind {y : Run α} {f : α → Run StepResult} {a : α} (read : y.on s = (.ok a, s))
    (h : (f a).Idle s) : (y >>= f).Idle s := by
  obtain ⟨o, result, silent⟩ := h
  exact ⟨o, (on_bind_ok read f).trans result, silent⟩

/-- What only looks at the variables of a step can come first. -/
theorem lasts_bind {y : Run α} {f : α → Run StepResult} {r : Except Failure α}
    (reads : y.Reads s.scope.visible r) (h : ∀ a, r = .ok a → Lasts (f a) s) :
    Lasts (y >>= f) s := by
  cases r with
  | error e =>
    unfold Lasts
    rw [on_bind_error (reads s rfl)]
    exact .failed e
  | ok a =>
    exact lasts_congr (fun u same => on_bind_ok (reads u same.visible) f) (h a rfl)

/-- What a run reports lasts if the part that it reports about has nothing to do again. -/
theorem lasts_report {y : Run α} {f : α → Run StepResult} {a : α} {tree : Tree}
    (first : y.on s = (.ok a, { s with tree })) (reports : ∃ o, f a = pure o ∧ o.success = true)
    (retains : s.tree.Retains tree) (closed : tree.Closed)
    (again : ∀ u, s.Matches u → u.tree.Closed → tree.Retains u.tree →
      ∃ b o, y.on u = (.ok b, u) ∧ f b = pure o ∧ o.success = true ∧ o.files = {}) :
    Lasts (y >>= f) s := by
  obtain ⟨o, report, success⟩ := reports
  unfold Lasts
  rw [on_bind_ok first, report]
  refine .done success retains closed fun u same closed kept => ?_
  obtain ⟨b, o', second, report', success', files⟩ := again u same closed kept
  refine idle_bind second ?_
  rw [report']
  exact idle_pure success' files u

end Run

/-! ## Texts that steps fill in -/

section Reads

variable (c : StepContext) (visible : Record Value)

/-- A text with its placeholders filled in from variables. -/
def Template.filled (visible : Record Value) (text : String) : Except Failure String :=
  (render text visible).mapError Failure.ofTemplate

theorem Template.filled_eq_ok {visible : Record Value} {text r : String} :
    filled visible text = .ok r ↔ render text visible = .ok r := by
  unfold filled
  cases render text visible <;> simp [Except.mapError]

theorem Template.map_filled_eq_ok {visible : Record Value} {text : String} {α : Type}
    {f : String → α} {a : α} (h : (filled visible text).map f = .ok a) :
    ∃ r, render text visible = .ok r ∧ a = f r := by
  cases found : filled visible text with
  | error e =>
    rw [found] at h
    cases h
  | ok r =>
    rw [found] at h
    cases h
    exact ⟨r, filled_eq_ok.mp found, rfl⟩

theorem StepContext.reads_render (text : String) :
    (c.render text).Reads visible (Template.filled visible text) := by
  rintro s rfl
  exact c.on_render text s

theorem StepContext.reads_resolve (text : String) :
    (c.resolve text).Reads visible ((Template.filled visible text).map c.project.child) := by
  rintro s rfl
  unfold StepContext.resolve
  rw [on_bind, c.reads_render _ text s rfl]
  cases Template.filled s.scope.visible text <;> rfl

theorem StepContext.reads_render? {condition : Option String} {text : String}
    (given : condition = some text) :
    (condition.mapM c.render).Reads visible ((Template.filled visible text).map some) := by
  rintro s rfl
  subst given
  refine (on_bind _ _ s).trans ?_
  rw [c.reads_render _ text s rfl]
  cases Template.filled s.scope.visible text <;> rfl

theorem Step.reads_loadBody (step : Step) (body : Option String) {source : Option String}
    (inline : filled? source = none) :
    (step.loadBody body source c).Reads visible (Template.filled visible (body.getD "")) := by
  unfold Step.loadBody
  rw [inline]
  exact c.reads_render visible _

end Reads

/-! ## Splices -/

section Splices

variable {s : Session} {p : Path} {place : Place} {content body mark : String} {rule : Splice.Rule}

/-- A splice is skipped where its mark is present. -/
theorem splice_of_marked (leads : s.tree.Leads p place) (closed : s.tree.Closed)
    (held : s.tree.HoldsText place content) (body : String) (rule : Splice.Rule) (dry : Bool)
    (skipIf : rule.skipIf = some mark) (hm : Splice.IsMark mark)
    (present : mark.toList <:+: content.toList) :
    ∃ why, why ≠ "" ∧ (splice p body rule dry).on s = (.ok (false, some why), s) := by
  obtain ⟨why, some, applied⟩ := Splice.apply_of_marked body skipIf hm present
  refine ⟨why, some, ?_⟩
  have file : s.tree.isFile p = true := by
    obtain ⟨c, there, -⟩ := held
    exact (leads.isFile_iff closed).mpr ⟨c, there⟩
  have read : (readText p).on s = (.ok content, s) := (readText_eq_ok leads closed).mpr ⟨rfl, held⟩
  unfold splice
  rw [on_bind_ok (on_get s)]
  dsimp only
  rw [if_neg (by simp [file]), on_bind_ok read, applied]
  rfl

/-- A splice that succeeds leaves a text in which its mark is present, and loses nothing. -/
theorem Run.Spliced.marked {dry : Bool} {o : Bool × Option String} {t : Session}
    (h : Spliced place body rule dry s (.ok o, t)) (wet : dry = false) (closed : s.tree.Closed)
    (skipIf : rule.skipIf = some mark) (hm : Splice.IsMark mark)
    (marks : mark.toList <:+: body.toList) :
    ∃ tree text, t = { s with tree } ∧ tree.Closed ∧ s.tree.Retains tree ∧
      tree.HoldsText place text ∧ mark.toList <:+: text.toList := by
  have same {content : String} {o : Splice.Outcome} (held : s.tree.HoldsText place content)
      (applied : Splice.apply content body rule = .ok o) (same : o.content = content) :
      ∃ tree text, s = { s with tree } ∧ tree.Closed ∧ s.tree.Retains tree ∧
        tree.HoldsText place text ∧ mark.toList <:+: text.toList :=
    ⟨s.tree, content, rfl, closed, .refl _, held, same ▸ Splice.apply_marks applied skipIf hm marks⟩
  cases h with
  | skipped held applied skipped =>
    rcases Splice.apply_eq_ok applied with ⟨-, -, kept⟩ | ⟨_, _, wanted, _⟩
    · exact same held applied kept
    · rw [skipped] at wanted
      cases wanted
  | @kept content o held applied _ idle =>
    have unchanged : o.changed = false := idle.resolve_right (by simp [wet])
    refine same held applied (Classical.not_not.mp fun differs => ?_)
    rw [(Splice.changed_iff applied).mpr differs] at unchanged
    cases unchanged
  | written held applied _ _ written =>
    refine ⟨_, _, rfl, written.closed, written.retains (.inr ⟨_, held, fun lit free there => ?_⟩),
      written.holdsText, Splice.apply_marks applied skipIf hm marks⟩
    exact Splice.apply_retains applied free there

end Splices

namespace InjectStep

variable {a : InjectStep} {step : Step} {c : StepContext} {s : Session}

/-- A splice stands under a mark that stands in its body, whatever the variables make of the two. -/
structure Guarded (a : InjectStep) (visible : Record Value) : Prop where
  inline : filled? a.source = none
  skipIf : filled? a.skipIf ≠ none
  mark : ∀ text mark, filled? a.skipIf = some text → Template.render text visible = .ok mark →
    Splice.IsMark mark
  marks : ∀ text mark body, filled? a.skipIf = some text →
    Template.render text visible = .ok mark →
    Template.render (a.body.getD "") visible = .ok body → mark.toList <:+: body.toList

theorem execute_lasts (body : step.body = .inject a) (guarded : a.Guarded s.scope.visible)
    (wet : c.isDry = false) (closed : s.tree.Closed)
    (leads : ∀ p, step.path? c.project s.scope.visible = some p → ∃ place, s.tree.Leads p place) :
    Lasts (a.execute step c) s := by
  obtain ⟨text, given⟩ := Option.ne_none_iff_exists'.mp guarded.skipIf
  unfold InjectStep.execute
  refine lasts_bind (c.reads_resolve _ _) fun p resolved => ?_
  refine lasts_bind (step.reads_loadBody c _ _ guarded.inline) fun body' loaded => ?_
  refine lasts_bind (c.reads_render? _ given) fun skipIf rendered => ?_
  obtain ⟨target, renders, rfl⟩ := Template.map_filled_eq_ok resolved
  obtain ⟨mark, marked, rfl⟩ := Template.map_filled_eq_ok rendered
  have named : step.target? = some a.target := by rw [Step.target?, body]
  obtain ⟨place, leads⟩ := leads _ (Step.path?_eq_some named renders c.project)
  have hm := guarded.mark text mark given marked
  have marks := guarded.marks text mark body' given marked (Template.filled_eq_ok.mp loaded)
  simp only [wet, Bool.false_and, Bool.false_eq_true, if_false]
  refine lasts_look ?_
  let rule : Splice.Rule :=
    { location := a.insertion.location, skipIf := some mark, endsLine := a.endsLine }
  have spliced := splice_spliced leads closed body' rule false
  rcases ran : (splice (c.project.child target) body' rule false).on s with ⟨e | o, t⟩
  · rw [ran] at spliced
    cases spliced
    unfold Lasts
    rw [on_bind_error ran]
    exact .failed e
  · rw [ran] at spliced
    obtain ⟨tree, content, rfl, closed', retains, held, present⟩ :=
      spliced.marked rfl closed rfl hm marks
    refine lasts_report ran ?_ retains closed' fun u _ closed kept => ?_
    · obtain ⟨changed, reason⟩ := o
      dsimp only
      split
      · exact ⟨_, rfl, rfl⟩
      · split <;> exact ⟨_, rfl, rfl⟩
    · -- done again, the splice finds the mark in whatever became of the text
      obtain ⟨content', held', lines⟩ := kept.texts place content held
      have leads' := (leads.mono retains.directories).mono kept.directories
      obtain ⟨why, some, skipped⟩ :=
        splice_of_marked leads' closed held' body' rule false rfl hm (lines _ hm.feed present)
      refine ⟨_, step.skipped (why ++ " (" ++ c.shown (c.project.child target) ++ ")"), skipped, ?_,
        rfl, rfl⟩
      dsimp only
      rw [show filled? (Option.some why) = Option.some why by simp [filled?, some]]

end InjectStep

/-! ## Files -/

namespace AddStep

variable {a : AddStep} {step : Step} {c : StepContext} {s : Session} {p : Path} {place : Place}

/-- What a step does about a file that its own condition does not keep from being added. -/
def supply (a : AddStep) (step : Step) (c : StepContext) (target : Path) : Run StepResult := do
  let present := (← get).tree.present target
  let force := a.force || c.options.force
  if present && a.unlessExists && !force then return step.skipped ("exists: " ++ c.shown target)
  let body ← step.loadBody a.body a.source c
  if present then replace step c target force body else put step c target false force body

theorem execute_eq (a : AddStep) (step : Step) (c : StepContext) :
    a.execute step c = (do
      let target ← c.resolve a.target
      if (← a.isKept c) then return step.skipped ("skip_if: " ++ c.shown target)
      a.supply step c target) := rfl

theorem reads_isKept (a : AddStep) (c : StepContext) (visible : Record Value) :
    ∃ r, (a.isKept c).Reads visible r := by
  unfold isKept
  split
  next text _ =>
    refine ⟨(Template.filled visible text).map isTrueWord, fun s same => ?_⟩
    rw [on_bind, c.reads_render _ text s same]
    cases Template.filled visible text <;> rfl
  next => exact ⟨.ok false, fun _ _ => rfl⟩

/-- A file that is there is left alone where it may not be overwritten. -/
theorem replace_idle (plain : c.options = {}) (leads : s.tree.Leads p place)
    (closed : s.tree.Closed) {old : String} (held : s.tree.HoldsText place old) (step : Step)
    (body : String) : (replace step c p false body).Idle s := by
  unfold replace
  refine idle_bind ((readText_eq_ok leads closed).mpr ⟨rfl, held⟩) ?_
  split
  · exact idle_pure rfl rfl s
  · have refused : (mayOverwrite c false (c.shown p)).on s = (.ok false, s) := by
      unfold mayOverwrite
      rw [plain]
      rfl
    exact idle_bind refused (idle_pure rfl rfl s)

section Supply

variable (gentle : a.force = false) (inline : filled? a.source = none) (plain : c.options = {})

include gentle inline plain

theorem supply_on (step : Step) (p : Path) (s : Session) :
    (a.supply step c p).on s =
      if s.tree.present p && a.unlessExists then (.ok (step.skipped ("exists: " ++ c.shown p)), s)
      else match Template.filled s.scope.visible (a.body.getD "") with
        | .ok body =>
          (if s.tree.present p then replace step c p false body else put step c p false false body).on s
        | .error f => (.error f, s) := by
  unfold supply
  refine (on_bind_ok (on_get s) _).trans ?_
  simp only [gentle, plain, Bool.or_false, Bool.not_false, Bool.and_true]
  split
  · rfl
  · rw [on_bind, step.reads_loadBody c _ a.body inline s rfl]
    cases Template.filled s.scope.visible (a.body.getD "") <;> rfl

/-- A file that is there is not added again. -/
theorem supply_idle (leads : s.tree.Leads p place) (closed : s.tree.Closed)
    (there : s.tree.at? place ≠ none ∧ a.unlessExists = true ∨
      ∃ old body, s.tree.HoldsText place old ∧
        Template.filled s.scope.visible (a.body.getD "") = .ok body) :
    (a.supply step c p).Idle s := by
  have present : s.tree.present p = true := by
    rw [leads.present_iff closed]
    rcases there with ⟨there, -⟩ | ⟨_, _, ⟨c, there, -⟩, -⟩
    · exact there
    · rw [there]
      nofun
  unfold Idle
  rw [supply_on gentle inline plain, present, Bool.true_and]
  split
  · exact ⟨_, rfl, rfl, rfl⟩
  next guard =>
    rcases there with ⟨-, given⟩ | ⟨old, body, held, renders⟩
    · exact absurd given guard
    · rw [renders]
      exact replace_idle plain leads closed held step body

/-- About a file that is there nothing is to be done, neither now nor later. -/
theorem supply_lasts_of_there (step : Step) (leads : s.tree.Leads p place) (closed : s.tree.Closed)
    (there : s.tree.at? place ≠ none ∧ a.unlessExists = true ∨
      ∃ old body, s.tree.HoldsText place old ∧
        Template.filled s.scope.visible (a.body.getD "") = .ok body) :
    (a.supply step c p).Lasts s := by
  refine lasts_of_idle closed fun u same closed kept => ?_
  refine supply_idle gentle inline plain (leads.mono kept.directories) closed (there.imp ?_ ?_)
  · exact fun ⟨there, guard⟩ => ⟨kept.present place there, guard⟩
  · rintro ⟨old, body, held, renders⟩
    obtain ⟨text, held', -⟩ := kept.texts place old held
    exact ⟨text, body, held', same.visible ▸ renders⟩

/-- A file that is added is there from then on. -/
theorem supply_lasts_of_absent (wet : c.isDry = false) (leads : s.tree.Leads p place)
    (closed : s.tree.Closed) (absent : s.tree.at? place = none) {body : String}
    (renders : Template.filled s.scope.visible (a.body.getD "") = .ok body) :
    (a.supply step c p).Lasts s := by
  have none : s.tree.present p = false := by
    rw [← Bool.not_eq_true, leads.present_iff closed, not_not]
    exact absent
  have supplied : (a.supply step c p).on s =
      (writeText p body >>= fun _ => pure (step.completed ("added: " ++ c.shown p) .null
        { created := [c.shown p] }) : Run StepResult).on s := by
    rw [supply_on gentle inline plain, none, renders]
    simp [put, wet]
  have other : s.tree.at? place ≠ some .directory := by
    rw [absent]
    nofun
  unfold Lasts
  rw [supplied]
  rcases writeText_cases leads closed other body with ⟨f, failed⟩ | ⟨tree, written, here⟩
  · rw [on_bind_error failed]
    exact .failed f
  · rw [on_bind_ok written]
    have retains : s.tree.Retains tree := here.retains (.inl absent)
    refine .done rfl retains here.closed fun u same closed kept => ?_
    obtain ⟨text, held, -⟩ := kept.texts place body here.holdsText
    have leads' := (leads.mono retains.directories).mono kept.directories
    have renders' := same.visible ▸ renders
    exact supply_idle gentle inline plain leads' closed (.inr ⟨text, body, held, renders'⟩)

theorem supply_lasts (wet : c.isDry = false) (leads : s.tree.Leads p place)
    (closed : s.tree.Closed) : (a.supply step c p).Lasts s := by
  have there := supply_lasts_of_there gentle inline plain step leads closed
  cases guarded : s.tree.present p && a.unlessExists with
  | true =>
    simp only [Bool.and_eq_true] at guarded
    exact there (.inl ⟨(leads.present_iff closed).mp guarded.1, guarded.2⟩)
  | false =>
    rcases renders : Template.filled s.scope.visible (a.body.getD "") with f | body
    · unfold Lasts
      rw [supply_on gentle inline plain, guarded, renders]
      exact .failed f
    cases present : s.tree.present p with
    | true =>
      rcases read : (readText p).on s with ⟨f | old, t⟩
      · have same : t = s := by
          rw [on_readText] at read
          exact (Prod.mk.inj read).2.symm
        subst same
        have failed : (replace step c p false body).on t = (.error f, t) := on_bind_error read _
        unfold Lasts
        rw [supply_on gentle inline plain, guarded, renders, present]
        simpa only [Bool.false_eq_true, if_false, if_true, failed] using .failed f
      · obtain ⟨-, held⟩ := (readText_eq_ok leads closed).mp read
        exact there (.inr ⟨old, body, held, renders⟩)
    | false =>
      have absent : s.tree.at? place = none := by
        rw [← Bool.not_eq_true, leads.present_iff closed, not_not] at present
        exact present
      exact supply_lasts_of_absent gentle inline plain wet leads closed absent renders

theorem execute_lasts (body : step.body = .add a) (wet : c.isDry = false) (closed : s.tree.Closed)
    (leads : ∀ p, step.path? c.project s.scope.visible = some p → ∃ place, s.tree.Leads p place) :
    Lasts (a.execute step c) s := by
  rw [execute_eq]
  refine lasts_bind (c.reads_resolve _ _) fun p resolved => ?_
  obtain ⟨target, renders, rfl⟩ := Template.map_filled_eq_ok resolved
  have named : step.target? = some a.target := by rw [Step.target?, body]
  obtain ⟨place, leads⟩ := leads _ (Step.path?_eq_some named renders c.project)
  obtain ⟨r, reads⟩ := a.reads_isKept c s.scope.visible
  refine lasts_bind reads fun kept _ => ?_
  split
  · exact lasts_of_idle closed fun u _ _ _ => idle_pure rfl rfl u
  · exact supply_lasts gentle inline plain wet leads closed

end Supply

end AddStep

end Scaffold
