import Scaffold.Proofs.Engine.Delivery
import Scaffold.Proofs.Engine.Effects
import Scaffold.Proofs.Engine.Shape

/-!
# The variables of an execution

Each step of an execution starts with variables from five layers.  By name it sees the first there is
of: the answers, what earlier steps have set, the values of the caller, what the step itself overrides,
and the defaults of the recipe.

What a step sets is seen by every step behind it, until another step sets the same name, unless there is
an answer under this name.  What a step overrides is seen by this step alone: neither another step nor
the report of the recipe has it.

Steps set variables one at a time, and nothing else changes what has been set.  Of the handlers of
actions this is assumed, and of everything else it is proved.
-/

namespace Scaffold

open Run Session

/-! ## What was set last -/

namespace Record

variable {α : Type}

/-- The last value under a name. -/
def last? (r : Record α) (k : String) : Option α := get? r.reverse k

theorem last?_append (a b : Record α) (k : String) : last? (a ++ b) k = (last? b k).or (last? a k) := by
  rw [last?, List.reverse_append, get?_append]
  rfl

theorem last?_singleton (e : String × α) (k : String) :
    last? [e] k = if e.1 = k then some e.2 else none := get?_cons e [] k

theorem putAll_append (r a b : Record α) : r.putAll (a ++ b) = (r.putAll a).putAll b :=
  List.foldl_append

/-- Of values that are set one after the other the last one counts. -/
theorem get?_putAll (r a : Record α) (k : String) :
    get? (putAll r a) k = (last? a k).or (get? r k) := by
  induction a generalizing r with
  | nil => rfl
  | cons e a ih =>
    have cons : last? (e :: a) k = (last? a k).or (last? [e] k) := last?_append [e] a k
    rw [show putAll r (e :: a) = putAll (put r e.1 e.2) a from rfl, ih, get?_put, cons,
      last?_singleton, Option.or_assoc]
    congr 1
    split <;> rfl

/-- What one of several records has last is what they have last together, if those behind it lack it. -/
theorem last?_flatten_take {rs : List (Record α)} {i j : Nat} {r : Record α} {k : String} {v : α}
    (behind : i < j) (here : rs[i]? = some r) (last : last? r k = some v)
    (between : ∀ m, i < m → m < j → ∀ r', rs[m]? = some r' → last? r' k = none) :
    last? (rs.take j).flatten k = some v := by
  -- from one record behind it to the next
  induction j with
  | zero => cases behind
  | succ j ih =>
    rw [List.take_add_one, List.flatten_append, last?_append]
    rcases Nat.lt_succ_iff_lt_or_eq.mp behind with after | rfl
    · rw [ih after fun m above below => between m above (Nat.lt_succ_of_lt below)]
      rcases next : rs[j]? with _ | r'
      · rfl
      · simp [between j after (Nat.lt_succ_self j) r' next]
    · simp [here, last]

end Record

/-! ## Setting variables -/

namespace Session

/-- From `s` to `t` variables were set, these and in this order. -/
structure Sets (sets : Record Value) (s t : Session) : Prop where
  visible : t.scope.visible = s.scope.visible.putAll sets
  produced : t.scope.produced = s.scope.produced.putAll sets

variable {s t u : Session} {sets more : Record Value}

theorem Sets.nil (visible : t.scope.visible = s.scope.visible)
    (produced : t.scope.produced = s.scope.produced) : Sets [] s t := ⟨visible, produced⟩

theorem Sets.append (h : Sets sets s t) (h' : Sets more t u) : Sets (sets ++ more) s u where
  visible := by rw [h'.visible, h.visible, Record.putAll_append]
  produced := by rw [h'.produced, h.produced, Record.putAll_append]

/-- From `s` to `t` variables were set, and not changed in another way. -/
def OnlySets (s t : Session) : Prop := ∃ sets, Sets sets s t

instance onlySetsPreorder : IsPreorder Session OnlySets where
  refl _ := ⟨[], .nil rfl rfl⟩
  trans := fun _ _ _ ⟨_, h⟩ ⟨_, h'⟩ => ⟨_, h.append h'⟩

theorem onlySets_of_scope (h : t.scope = s.scope) : OnlySets s t := ⟨[], .nil (by rw [h]) (by rw [h])⟩

end Session

theorem onlySetsAll : Compositional (Keeps OnlySets) := keepsAll OnlySets

/-- The handlers of actions change variables only by setting them. -/
def Actions.OnlySet (actions : Actions) : Prop :=
  ∀ name a, actions.find? name = some a → ∀ params c, (a.handler params c).Keeps OnlySets

theorem StepContext.permits_onlySets {c : StepContext} {sh : Shell} {actions : Actions}
    (quiet : ∀ w, c.prompter = some w → w.Quiet) (handlers : actions.OnlySet) :
    c.Permits (Keeps OnlySets) sh actions where
  writes _ p text s := onlySets_of_scope (by rw [on_writeText])
  runs _ k := command_holds onlySetsAll (fun _ => keeps_modify fun _ => onlySets_of_scope rfl)
    (fun _ => keeps_modify fun _ => onlySets_of_scope rfl) sh k
  asks _ w h name d := ((quiet w h).ask name d).mono fun _ _ talk => onlySets_of_scope talk.scope
  confirms _ w h message := ((quiet w h).confirm message).mono fun _ _ talk =>
    onlySets_of_scope talk.scope
  prints _ := keeps_modify fun _ => onlySets_of_scope rfl
  acts _ _ := keeps_modify fun _ => onlySets_of_scope rfl
  handles _ name a found params := handlers name a found params c
  shares _ := keeps_modify fun _ => ⟨[], .nil rfl rfl⟩
  sets name v := keeps_modify fun _ => ⟨[(name, v)], rfl, rfl⟩
  records _ := keeps_modify fun _ => onlySets_of_scope rfl
  calls g _ d := g.generate_keeps (fun _ _ => onlySets_of_scope rfl) (fun _ _ => onlySets_of_scope rfl) d

/-! ## Turns -/

/-- In a turn these variables were set, in this order: for the step itself and for those behind it. -/
structure Turn.Sets (u : Turn) (sets : Record Value) : Prop where
  visible : ∀ visible, u.visible = .ok visible → u.after.scope.visible = visible.putAll sets
  produced : u.after.scope.produced = u.before.scope.produced.putAll sets

namespace Engine

variable {e : Engine} {r : Recipe} {b : Bindings} {options : Options} {answers : Record String}

/-- In every turn variables are only set. -/
theorem turn_sets {sh : Shell} {actions : Actions} (ht : e.tools.AreStandard sh actions)
    (quiet : ∀ w, e.prompter = some w → w.Quiet) (handlers : actions.OnlySet) {s : Session} {u : Turn}
    (hu : u ∈ e.history r b options answers s) : ∃ sets, u.Sets sets := by
  rcases turn_runs hu with ⟨f, unseen, -, after⟩ | ⟨visible, seen, came⟩
  · refine ⟨[], fun visible sees => ?_, by rw [after]; rfl⟩
    rw [unseen] at sees
    cases sees
  · have run : (e.runStep u.step (e.context r options answers u.earlier)).Keeps OnlySets :=
      runStep_holds onlySetsAll ht (fun _ => StepContext.permits_onlySets quiet handlers) u.step
    obtain ⟨sets, visible', produced⟩ := run (u.before.begun u.step visible)
    rw [came] at visible' produced
    refine ⟨sets, fun visible₁ sees => ?_, produced⟩
    rw [seen] at sees
    cases sees
    exact visible'

/-- Before a turn is set what the turns before it have set, one after the other, -/
theorem Chained.produced_before {st : Session} {us : List Turn} {logs : List (Record Value)}
    (h : Chained st us) (sets : List.Forall₂ Turn.Sets us logs) {i : Nat} {u : Turn}
    (hu : us[i]? = some u) :
    u.before.scope.produced = st.scope.produced.putAll (logs.take i).flatten := by
  induction sets generalizing st i with
  | nil => cases hu
  | @cons t log ts logs first _ ih =>
    obtain ⟨rfl, rest⟩ := h
    cases i with
    | zero =>
      cases hu
      rfl
    | succ i =>
      rw [ih rest hu, first.produced, List.take_succ_cons, List.flatten_cons, Record.putAll_append]

/-- and behind all turns what all have set. -/
theorem Chained.produced_behind {st : Session} {us : List Turn} {logs : List (Record Value)}
    (h : Chained st us) (sets : List.Forall₂ Turn.Sets us logs) :
    (leaves st us).scope.produced = st.scope.produced.putAll logs.flatten := by
  induction sets generalizing st with
  | nil => rfl
  | @cons t log ts logs first _ ih =>
    obtain ⟨rfl, rest⟩ := h
    rw [leaves, ih rest, first.produced, List.flatten_cons, Record.putAll_append]

/-! ## Layers -/

end Engine

/-- The first value there is under a name, of an answer, a value that was set, the values of the caller,
overrides, and the defaults. -/
def Bindings.first (b : Bindings) (answers : Record String) (set : Option Value) (overrides : Record Value)
    (k : String) : Option Value :=
  ((answers.get? k).map .str).or (set.or ((b.values.get? k).or ((overrides.get? k).or (b.defaults.get? k))))

namespace Engine

variable {e : Engine} {r : Recipe} {b : Bindings} {options : Options} {answers : Record String}
  {s : Session} {logs : List (Record Value)}

/-- What was set in each turn of an execution. -/
def SetInTurns (e : Engine) (r : Recipe) (b : Bindings) (options : Options) (answers : Record String)
    (s : Session) (logs : List (Record Value)) : Prop :=
  List.Forall₂ Turn.Sets (e.history r b options answers s) logs

theorem exists_setInTurns {sh : Shell} {actions : Actions} (ht : e.tools.AreStandard sh actions)
    (quiet : ∀ w, e.prompter = some w → w.Quiet) (handlers : actions.OnlySet) :
    ∃ logs, e.SetInTurns r b options answers s logs := by
  have each : ∀ u ∈ e.history r b options answers s, ∃ sets, u.Sets sets :=
    fun u hu => turn_sets ht quiet handlers hu
  unfold SetInTurns
  generalize e.history r b options answers s = us at each
  induction us with
  | nil => exact ⟨[], .nil⟩
  | cons u us ih =>
    obtain ⟨log, first⟩ := each u List.mem_cons_self
    obtain ⟨logs, rest⟩ := ih fun u' hu => each u' (List.mem_cons_of_mem u hu)
    exact ⟨log :: logs, .cons first rest⟩

namespace SetInTurns

theorem sees (h : e.SetInTurns r b options answers s logs) {i : Nat} {u : Turn}
    (hu : (e.history r b options answers s)[i]? = some u) {visible : Record Value}
    (sees : u.visible = .ok visible) :
    ∃ here, u.step.localVariables b = .ok here ∧ ∀ k,
      visible.get? k = b.first answers (Record.last? (logs.take i).flatten k) here k := by
  have values : u.step.values b u.before.scope.produced answers = .ok visible :=
    (visible_of_mem_history (List.mem_of_getElem? hu)).symm.trans sees
  obtain ⟨here, rendered, layers⟩ := get?_layers values
  refine ⟨here, rendered, fun k => ?_⟩
  -- nothing is set when the execution starts
  have set : u.before.scope.produced.get? k = Record.last? (logs.take i).flatten k := by
    rw [(history_chained s).produced_before h hu, Record.get?_putAll]
    exact Option.or_none
  rw [layers, set]
  rfl

theorem reports (h : e.SetInTurns r b options answers s logs) {o : RecipeResult} {t : Session}
    (returns : (e.execute r b options answers).on s = (.ok o, t)) (k : String) :
    o.values.get? k = b.first answers (Record.last? logs.flatten k) [] k := by
  rcases valid : (e.validate r b.merged answers).valid with _ | _
  · rw [execute_refused valid] at returns
    cases returns
  · rw [execute_on_valid valid] at returns
    dsimp only at returns
    split at returns
    next =>
      cases returns
      have set : (leaves (s.opened r) (e.history r b options answers s)).scope.produced.get? k =
          Record.last? logs.flatten k := by
        rw [(history_chained s).produced_behind h, Record.get?_putAll]
        exact Option.or_none
      simp only [Record.get?_merge, get?_asValues, Bindings.get?_merged, set]
      rfl
    next => cases returns

end SetInTurns

/-- What the steps of an execution see, and what its report has, where this was set in its turns. -/
structure Scoped (e : Engine) (r : Recipe) (b : Bindings) (options : Options) (answers : Record String)
    (s : Session) (logs : List (Record Value)) : Prop where
  /-- A step sees the first value there is, with what was set before it and its own overrides. -/
  layers : ∀ (i : Nat) (u : Turn), (e.history r b options answers s)[i]? = some u →
    ∀ visible, u.visible = .ok visible → ∃ here, u.step.localVariables b = .ok here ∧
      ∀ k, visible.get? k = b.first answers (Record.last? (logs.take i).flatten k) here k
  /-- What a turn has set last is seen behind it until it is set again, unless there is an answer. -/
  lasts : ∀ (j i : Nat) (log : Record Value) (u : Turn), logs[j]? = some log → j < i →
    (e.history r b options answers s)[i]? = some u →
    ∀ visible, u.visible = .ok visible → ∀ k v, Record.last? log k = some v →
      (∀ m, j < m → m < i → ∀ log', logs[m]? = some log' → Record.last? log' k = none) →
        visible.get? k = some (((answers.get? k).map .str).getD v)
  /-- Whatever else two executions do and override, where the same was set before two steps with the same
  overrides, these see the same. -/
  apart : ∀ (i : Nat) (u : Turn), (e.history r b options answers s)[i]? = some u →
    ∀ visible, u.visible = .ok visible →
    ∀ (e' : Engine) r' options' s' logs', e'.SetInTurns r' b options' answers s' logs' →
      ∀ i' u', (e'.history r' b options' answers s')[i']? = some u' →
        ∀ visible', u'.visible = .ok visible' → u'.step.overrides = u.step.overrides → ∀ k,
          Record.last? (logs'.take i').flatten k = Record.last? (logs.take i).flatten k →
            visible'.get? k = visible.get? k
  /-- The report has the first value there is, with all that was set and no overrides. -/
  report : ∀ o t, (e.execute r b options answers).on s = (.ok o, t) → ∀ k,
    o.values.get? k = b.first answers (Record.last? logs.flatten k) [] k

/-- Turns only set variables, one after the other.  By name a step sees the first value there is: an
answer, what was set last in the turns before it, the value of the caller, its own override, the default;
and so does the report, but for overrides. -/
theorem sees_first {sh : Shell} {actions : Actions} (ht : e.tools.AreStandard sh actions)
    (quiet : ∀ w, e.prompter = some w → w.Quiet) (handlers : actions.OnlySet) (r : Recipe)
    (b : Bindings) (options : Options) (answers : Record String) (s : Session) :
    (∃ logs, e.SetInTurns r b options answers s logs) ∧
      ∀ logs, e.SetInTurns r b options answers s logs → e.Scoped r b options answers s logs := by
  refine ⟨exists_setInTurns ht quiet handlers, fun logs h =>
    ⟨?layers, ?lasts, ?apart, fun o t returns => h.reports returns⟩⟩
  case layers =>
    intro i u hu visible sees
    exact h.sees hu sees
  case lasts =>
    intro j i log u hlog behind hu visible sees k v last between
    obtain ⟨here, -, first⟩ := h.sees hu sees
    rw [first, Record.last?_flatten_take behind hlog last between]
    unfold Bindings.first
    cases answers.get? k <;> rfl
  case apart =>
    intro i u hu visible sees e' r' options' s' logs' h' i' u' hu' visible' sees' overrides k set
    obtain ⟨here, rendered, first⟩ := h.sees hu sees
    obtain ⟨here', rendered', first'⟩ := h'.sees hu' sees'
    -- the overrides are rendered with the values of the caller and the defaults alone
    have same : here' = here := by
      unfold Step.localVariables at rendered rendered'
      rw [overrides, rendered] at rendered'
      exact (Except.ok.inj rendered').symm
    rw [first, first', set, same]

end Engine

/-! ## A count that is kept across steps -/

namespace Counted

/-- An action that counts a variable up. -/
def count : Action where
  name := "count"
  handler _ _ := do
    let seen := match (← get).scope.visible.get? "n" with
      | some (.int n) => n
      | _ => 0
    setVariable "n" (.int (seen + 1))
    return {}

def actions : Actions := Actions.register [] count

theorem actions_onlySet : actions.OnlySet := by
  intro name a found params c
  obtain rfl : a = count := by
    unfold Actions.find? actions Actions.register at found
    rw [Record.get?_put] at found
    split at found <;> cases found
    rfl
  exact keeps_look fun s => onlySetsAll.bind (keeps_modify fun _ => ⟨[("n", _)], rfl, rfl⟩)
    fun _ => onlySetsAll.pure _

/-- The first step starts to count at its own value, and the last has another value of its own. -/
def recipe : Recipe where
  name := "counted"
  steps := [{ name := "one", overrides := [("n", .int 5)], body := .action { action := "count" } },
    { name := "two", condition := some "!n", body := .action { action := "count" } },
    { name := "three", overrides := [("n", .int 9), ("m", .int 9)],
      body := .action { action := "count" } }]

def engine : Engine where
  project := .ofString "/project"
  tools := .standard (fun _ _ => .error .noProgram) actions

def bindings : Bindings := { defaults := [("n", .int 1), ("m", .int 2)], values := [("who", .str "me")] }

def answers : Record String := [("who", "you")]

/-- The texts of values under a name. -/
def reported (k : String) : Option String :=
  ((engine.execute recipe bindings {} answers).on {}).1.toOption.bind fun o =>
    (o.values.get? k).map Value.plain

/-- The first step counts to six and the last to seven, past what it overrides; the step between them is
skipped.  The report has the count, the answer and the default. -/
theorem counts_to_seven : ∃ logs, engine.SetInTurns recipe bindings {} answers {} logs ∧
    reported "n" = some "7" ∧ reported "who" = some "you" ∧ reported "m" = some "2" ∧
    ∀ o t, (engine.execute recipe bindings {} answers).on {} = (.ok o, t) → ∀ k,
      o.values.get? k = bindings.first answers (Record.last? logs.flatten k) [] k := by
  have standard : engine.tools.AreStandard (fun _ _ => .error .noProgram) actions := fun _ h => h
  have quiet : ∀ w, engine.prompter = some w → w.Quiet := nofun
  obtain ⟨⟨logs, h⟩, sees⟩ :=
    Engine.sees_first standard quiet actions_onlySet recipe bindings {} answers {}
  exact ⟨logs, h, by decide +kernel, by decide +kernel, by decide +kernel, (sees logs h).report⟩

end Counted

end Scaffold
