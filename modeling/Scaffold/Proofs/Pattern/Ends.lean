import Scaffold.Proofs.Pattern.Literal

/-!
# The ends of a match

A node that starts at a spot offers its ends in order of preference, and the first one that what stands behind
it accepts is taken.  The list of these ends does not depend on what stands behind; so what a pattern matches
can be told without going back and forth: it matches if some end is accepted, and it matches nothing but up to
an end.

For the plain nodes, which pass over characters and look at nothing else, the ends are told by the texts that
lie between: those of a sequence are the texts of its parts one behind the other, and those of a repetition are
made of pieces.
-/

namespace Scaffold.Pattern

/-! ## Ends in order of preference -/

section Rounds

variable (ends : Spot → List Spot) (low : Nat) (high : Option Nat)

/-- The ends of the rounds of a repetition that takes as many as it can. -/
def mostEnds : (fuel count : Nat) → Spot → List Spot
  | 0, _, s => [s]
  | fuel + 1, count, s =>
    if count < low then (ends s).flatMap (mostEnds fuel (count + 1))
    else if high.any (· ≤ count) then [s]
    else
      ((ends s).flatMap fun t =>
        if t.after.length = s.after.length then [t] else mostEnds fuel (count + 1) t) ++ [s]

/-- The ends of the rounds of a repetition that takes as few as it can. -/
def fewestEnds : (fuel count : Nat) → Spot → List Spot
  | 0, _, s => [s]
  | fuel + 1, count, s =>
    if count < low then (ends s).flatMap (fewestEnds fuel (count + 1))
    else
      s :: if high.any (· ≤ count) then []
        else
          (ends s).flatMap fun t =>
            if t.after.length = s.after.length then [] else fewestEnds fuel (count + 1) t

end Rounds

/-- The ends that a node offers at a spot, the preferred ones first. -/
def Node.ends (o : Options) : Node → Spot → List Spot
  | .empty, s => [s]
  | .any, s =>
    match s.next? with
    | some (c, t) => if c != '\n' || o.dotAll then [t] else []
    | none => []
  | .set negated members, s =>
    match s.next? with
    | some (c, t) => if inSet o negated members c then [t] else []
    | none => []
  | .anchor a, s => if a.holds o s then [s] else []
  | .seq a b, s => (a.ends o s).flatMap (b.ends o)
  | .either a b, s => a.ends o s ++ b.ends o s
  | .repeated .most low high body, s =>
    mostEnds (fun t => body.ends o t) low high (low + s.after.length + 1) 0 s
  | .repeated .fewest low high body, s =>
    fewestEnds (fun t => body.ends o t) low high (low + s.after.length + 1) 0 s
  | .repeated .possessive low high body, s =>
    (mostEnds (fun t => body.ends o t) low high (low + s.after.length + 1) 0 s).head?.toList
  | .group i body, s => (body.ends o s).map fun t => t.capture i s
  | .scoped change body, s => body.ends (o.apply change) s
  | .atomic body, s => (body.ends o s).head?.toList
  | .reference i, s => ((s.captured? i).bind fun text => passText o text s).toList
  | .ifGroup i yes no, s => if (s.captured? i).isSome then yes.ends o s else no.ends o s
  | .lookAhead negated body, s =>
    match (body.ends o s).head? with
    | some t => if negated then [] else [{ s with captures := t.captures }]
    | none => if negated then [s] else []
  | .lookBehind negated width body, s =>
    match (s.back? width).bind fun t => (body.ends o t).head? with
    | some t => if negated then [] else [{ s with captures := t.captures }]
    | none => if negated then [s] else []

/-! ## Running a node -/

theorem findSome?_flatMap {α β γ : Type} (f : α → List β) (k : β → Option γ) (s : List α) :
    (s.flatMap f).findSome? k = s.findSome? fun a => (f a).findSome? k := by
  induction s with
  | nil => rfl
  | cons a s ih =>
    rw [List.flatMap_cons, List.findSome?_append, ih, List.findSome?_cons]
    cases (f a).findSome? k <;> rfl

theorem findSome?_toList {α β : Type} (x : Option α) (k : α → Option β) : x.toList.findSome? k = x.bind k := by
  cases x with
  | none => rfl
  | some a => cases h : k a <;> simp [h]

theorem findSome?_some {α : Type} (s : List α) : s.findSome? some = s.head? := by
  cases s <;> rfl

section Rounds

variable {run : Next → Next} {ends : Spot → List Spot} (same : ∀ k s, run k s = (ends s).findSome? k)
  (low : Nat) (high : Option Nat) (k : Next)

include same

theorem most_eq_findSome? (fuel count : Nat) (s : Spot) :
    most run low high k fuel count s = (mostEnds ends low high fuel count s).findSome? k := by
  induction fuel generalizing count s with
  | zero => cases h : k s <;> simp [most, mostEnds, h]
  | succ fuel ih =>
    have once : k s = [s].findSome? k := by cases h : k s <;> simp [h]
    rw [most, mostEnds]
    split
    · rw [same, findSome?_flatMap]
      exact congrArg (List.findSome? · (ends s)) (funext fun t => ih (count + 1) t)
    split
    · exact once
    · dsimp only
      rw [List.findSome?_append, findSome?_flatMap, same, ← once]
      congr 2
      funext t
      split
      · cases h : k t <;> simp [h]
      · exact ih (count + 1) t

theorem fewest_eq_findSome? (fuel count : Nat) (s : Spot) :
    fewest run low high k fuel count s = (fewestEnds ends low high fuel count s).findSome? k := by
  induction fuel generalizing count s with
  | zero => cases h : k s <;> simp [fewest, fewestEnds, h]
  | succ fuel ih =>
    rw [fewest, fewestEnds]
    split
    · rw [same, findSome?_flatMap]
      exact congrArg (List.findSome? · (ends s)) (funext fun t => ih (count + 1) t)
    · rw [List.findSome?_cons]
      cases k s with
      | some t => rfl
      | none =>
        show (if high.any (· ≤ count) then none else _) = _
        split
        · rfl
        · rw [same, findSome?_flatMap]
          congr 1
          funext t
          split
          · rfl
          · exact ih (count + 1) t

end Rounds

/-- A node runs by offering its ends, of which the first that is accepted is taken. -/
theorem Node.run_eq_findSome? (n : Node) (o : Options) (k : Next) (s : Spot) :
    n.run o k s = (n.ends o s).findSome? k := by
  have one (k : Next) (t : Spot) : k t = [t].findSome? k := by cases h : k t <;> simp [h]
  induction n generalizing o k s with
  | empty => exact one k s
  | any =>
    rw [Node.run, Node.ends]
    cases s.next? with
    | none => rfl
    | some e =>
      dsimp only
      split
      · exact one k e.2
      · rfl
  | set negated members =>
    rw [Node.run, Node.ends]
    cases s.next? with
    | none => rfl
    | some e =>
      dsimp only
      split
      · exact one k e.2
      · rfl
  | anchor a =>
    rw [Node.run, Node.ends]
    split
    · exact one k s
    · rfl
  | seq a b iha ihb =>
    rw [Node.run, Node.ends, iha, findSome?_flatMap]
    exact congrArg (List.findSome? · (a.ends o s)) (funext fun t => ihb o k t)
  | either a b iha ihb => rw [Node.run, Node.ends, List.findSome?_append, iha, ihb]
  | repeated greed low high body ih =>
    cases greed with
    | most => rw [Node.run, Node.ends, most_eq_findSome? (fun k t => ih o k t)]
    | fewest => rw [Node.run, Node.ends, fewest_eq_findSome? (fun k t => ih o k t)]
    | possessive =>
      rw [Node.run, Node.ends, most_eq_findSome? (fun k t => ih o k t), findSome?_toList, findSome?_some]
  | group i body ih =>
    rw [Node.run, Node.ends, ih, List.findSome?_map]
    rfl
  | «scoped» change body ih => rw [Node.run, Node.ends, ih]
  | atomic body ih => rw [Node.run, Node.ends, ih, findSome?_toList, findSome?_some]
  | reference i =>
    rw [Node.run, Node.ends, findSome?_toList]
    cases s.captured? i <;> rfl
  | ifGroup i yes no ihy ihn =>
    rw [Node.run, Node.ends]
    split
    · exact ihy o k s
    · exact ihn o k s
  | lookAhead negated body ih =>
    rw [Node.run, Node.ends, ih, findSome?_some]
    cases (body.ends o s).head? <;> cases negated <;> first | rfl | exact one _ _
  | lookBehind negated width body ih =>
    have inside : (s.back? width).bind (body.run o some) =
        (s.back? width).bind fun t => (body.ends o t).head? :=
      congrArg _ (funext fun t => by rw [ih, findSome?_some])
    rw [Node.run, Node.ends, inside]
    cases (s.back? width).bind fun t => (body.ends o t).head? <;> cases negated <;> first | rfl | exact one _ _

/-- What a node accepts, it accepts at one of its ends. -/
theorem Node.exists_end {n : Node} {o : Options} {k : Next} {s t : Spot} (h : n.run o k s = some t) :
    ∃ m ∈ n.ends o s, k m = some t := by
  rw [Node.run_eq_findSome?] at h
  exact List.exists_of_findSome?_eq_some h

/-- A node accepts something if one of its ends is accepted. -/
theorem Node.run_isSome {n : Node} {o : Options} {k : Next} {s m : Spot} (mem : m ∈ n.ends o s)
    (accepted : (k m).isSome = true) : (n.run o k s).isSome = true := by
  rw [Node.run_eq_findSome?, List.findSome?_isSome_iff]
  exact ⟨m, mem, accepted⟩

/-! ## Texts passed over -/

/-- From `s` to `t` the characters of `w` are passed over, and nothing is captured. -/
structure Spot.Passes (s : Spot) (w : List Char) (t : Spot) : Prop where
  after : s.after = w ++ t.after
  before : t.before = w.reverse ++ s.before
  captures : t.captures = s.captures

/-- The texts that a plain node takes: its ends are where such a text is passed over. -/
def Takes (o : Options) (n : Node) (P : List Char → Prop) : Prop :=
  ∀ s t, t ∈ n.ends o s ↔ ∃ w, P w ∧ s.Passes w t

/-- Texts made of pieces, whose number is limited. -/
def Pieces (P : List Char → Prop) (number : Nat → Prop) (w : List Char) : Prop :=
  ∃ ws : List (List Char), number ws.length ∧ (∀ u ∈ ws, P u) ∧ w = ws.flatten

variable {o : Options} {a b : Node} {P Q : List Char → Prop} {s t : Spot} {u v w : List Char}

namespace Spot

theorem passes_nil : s.Passes [] t ↔ t = s := by
  constructor
  · rintro ⟨after, before, captures⟩
    obtain ⟨_, _, _⟩ := s
    obtain ⟨_, _, _⟩ := t
    simp_all
  · rintro rfl
    exact ⟨rfl, rfl, rfl⟩

theorem passes_append : s.Passes (u ++ v) t ↔ ∃ m, s.Passes u m ∧ m.Passes v t := by
  constructor
  · rintro ⟨after, before, captures⟩
    refine ⟨⟨u.reverse ++ s.before, v ++ t.after, s.captures⟩, ⟨?_, rfl, rfl⟩, ⟨rfl, ?_, captures⟩⟩
    · rw [after, List.append_assoc]
    · rw [before, List.reverse_append, List.append_assoc]
  · rintro ⟨m, ⟨after, before, captures⟩, ⟨after', before', captures'⟩⟩
    refine ⟨?_, ?_, ?_⟩
    · rw [after, after', List.append_assoc]
    · rw [before', before, List.reverse_append, List.append_assoc]
    · rw [captures', captures]

theorem Passes.length (h : s.Passes w t) : s.after.length = w.length + t.after.length := by
  rw [h.after, List.length_append]

end Spot

/-! ## Plain nodes -/

theorem Takes.congr (h : Takes o a P) (same : ∀ w, P w ↔ Q w) : Takes o a Q := by
  intro s t
  rw [h s t]
  exact exists_congr fun w => and_congr_left fun _ => same w

theorem takes_set (negated : Bool) (members : List Member) :
    Takes o (.set negated members) fun w => ∃ c, w = [c] ∧ inSet o negated members c = true := by
  intro s t
  obtain ⟨before, after, captures⟩ := s
  rw [Node.ends]
  constructor
  · intro mem
    cases after with
    | nil => cases mem
    | cons c after =>
      simp only [Spot.next?] at mem
      split at mem
      next within =>
        obtain rfl := List.mem_singleton.mp mem
        exact ⟨[c], ⟨c, rfl, within⟩, ⟨rfl, rfl, rfl⟩⟩
      next => cases mem
  · rintro ⟨_, ⟨c, rfl, within⟩, ⟨passed, behind, same⟩⟩
    obtain ⟨before', after', captures'⟩ := t
    dsimp only at passed behind same
    subst passed behind same
    simp [Spot.next?, within]

theorem takes_seq (ha : Takes o a P) (hb : Takes o b Q) :
    Takes o (.seq a b) fun w => ∃ u v, w = u ++ v ∧ P u ∧ Q v := by
  intro s t
  rw [Node.ends, List.mem_flatMap]
  constructor
  · rintro ⟨m, first, second⟩
    obtain ⟨u, hu, passed⟩ := (ha s m).mp first
    obtain ⟨v, hv, behind⟩ := (hb m t).mp second
    exact ⟨u ++ v, ⟨u, v, rfl, hu, hv⟩, Spot.passes_append.mpr ⟨m, passed, behind⟩⟩
  · rintro ⟨_, ⟨u, v, rfl, hu, hv⟩, passed⟩
    obtain ⟨m, first, second⟩ := Spot.passes_append.mp passed
    exact ⟨m, (ha s m).mpr ⟨u, hu, first⟩, (hb m t).mpr ⟨v, hv, second⟩⟩

theorem takes_either (ha : Takes o a P) (hb : Takes o b Q) :
    Takes o (.either a b) fun w => P w ∨ Q w := by
  intro s t
  rw [Node.ends, List.mem_append, ha s t, hb s t]
  constructor
  · rintro (⟨w, hw, passed⟩ | ⟨w, hw, passed⟩)
    · exact ⟨w, .inl hw, passed⟩
    · exact ⟨w, .inr hw, passed⟩
  · rintro ⟨w, hw | hw, passed⟩
    · exact .inl ⟨w, hw, passed⟩
    · exact .inr ⟨w, hw, passed⟩

/-- Where case counts, a sequence of characters takes just these. -/
theorem takes_chars (exact : o.ignoreCase = false) (s : List Char) : Takes o (sequence (chars s)) (· = s) := by
  have one (c : Char) : Takes o (.char c.toNat) (· = [c]) := by
    refine (takes_set false [.code c.toNat]).congr fun w => ?_
    simp [inSet_code exact]
  induction s with
  | nil =>
    intro s t
    show t ∈ [s] ↔ _
    simp [Spot.passes_nil]
  | cons c s ih =>
    cases s with
    | nil => exact one c
    | cons d s =>
      refine (takes_seq (one c) ih).congr fun w => ?_
      constructor
      · rintro ⟨_, _, rfl, rfl, rfl⟩
        rfl
      · rintro rfl
        exact ⟨[c], d :: s, rfl, rfl, rfl⟩

/-! ## Repetitions -/

/-- The rounds of a repetition whose pieces are not empty.  By induction on the fuel, which is enough since each
round passes something over, or counts towards the least number of rounds. -/
theorem mem_mostEnds {ends : Spot → List Spot} (taken : ∀ s t, t ∈ ends s ↔ ∃ w, P w ∧ s.Passes w t)
    (proper : ∀ w, P w → w ≠ []) (low : Nat) (high : Option Nat) {fuel count : Nat}
    (enough : s.after.length + (low - count) < fuel) (within : ∀ m, high = some m → count ≤ max low m) :
    t ∈ mostEnds ends low high fuel count s ↔ ∃ ws : List (List Char), low ≤ count + ws.length ∧
      (∀ m, high = some m → count + ws.length ≤ max low m) ∧ (∀ u ∈ ws, P u) ∧ s.Passes ws.flatten t := by
  induction fuel generalizing count s with
  | zero => exact absurd enough (Nat.not_lt_zero _)
  | succ fuel ih =>
    -- one round and those behind it
    have further (more : ∀ m, high = some m → count + 1 ≤ max low m)
        (less : ∀ u r, P u → s.Passes u r → r.after.length + (low - (count + 1)) < fuel) :
        (∃ r ∈ ends s, t ∈ mostEnds ends low high fuel (count + 1) r) ↔
          ∃ u ws, low ≤ count + (u :: ws : List (List Char)).length ∧
            (∀ m, high = some m → count + (u :: ws : List (List Char)).length ≤ max low m) ∧
              (∀ v ∈ u :: ws, P v) ∧ s.Passes (u :: ws).flatten t := by
      have shift (n : Nat) : count + 1 + n = count + (n + 1) := by omega
      constructor
      · rintro ⟨r, first, rest⟩
        obtain ⟨u, hu, passed⟩ := (taken s r).mp first
        obtain ⟨ws, enough', within', all, behind⟩ := (ih (less u r hu passed) more).mp rest
        rw [shift] at enough'
        refine ⟨u, ws, enough', fun m hm => ?_, List.forall_mem_cons.mpr ⟨hu, all⟩,
          Spot.passes_append.mpr ⟨r, passed, behind⟩⟩
        have := within' m hm
        rwa [shift] at this
      · rintro ⟨u, ws, enough', within', all, passed⟩
        obtain ⟨hu, all⟩ := List.forall_mem_cons.mp all
        obtain ⟨r, first, behind⟩ := Spot.passes_append.mp passed
        refine ⟨r, (taken s r).mpr ⟨u, hu, first⟩, (ih (less u r hu first) more).mpr ⟨ws, ?_, ?_, all, behind⟩⟩
        · rw [shift]
          exact enough'
        · intro m hm
          rw [shift]
          exact within' m hm
    have shorter (u : List Char) (r : Spot) (hu : P u) (passed : s.Passes u r) :
        r.after.length < s.after.length := by
      have := List.length_pos_iff.mpr (proper u hu)
      have := passed.length
      omega
    rw [mostEnds]
    split
    next few =>
      rw [List.mem_flatMap, further]
      · constructor
        · rintro ⟨u, ws, h⟩
          exact ⟨u :: ws, h⟩
        · rintro ⟨ws, enough', h⟩
          cases ws with
          | nil => exact absurd enough' (by simpa using few)
          | cons u ws => exact ⟨u, ws, enough', h⟩
      · intro m hm
        omega
      · intro u r hu passed
        have := shorter u r hu passed
        omega
    next many =>
    split
    next full =>
      obtain ⟨m, hm, reached⟩ := by simpa [Option.any_eq_true] using full
      rw [List.mem_singleton]
      constructor
      · rintro rfl
        exact ⟨[], by simpa using many, within, by simp, Spot.passes_nil.mpr rfl⟩
      · rintro ⟨ws, -, within', -, passed⟩
        have := within' m hm
        have none : ws = [] := List.length_eq_zero_iff.mp (by omega)
        rw [none] at passed
        exact Spot.passes_nil.mp passed
    next room =>
      have unlike : ((ends s).flatMap fun r =>
          if r.after.length = s.after.length then [r] else mostEnds ends low high fuel (count + 1) r) =
          (ends s).flatMap (mostEnds ends low high fuel (count + 1)) := by
        rw [List.flatMap_def, List.flatMap_def]
        congr 1
        apply List.map_congr_left
        intro r hr
        obtain ⟨u, hu, passed⟩ := (taken s r).mp hr
        exact if_neg (Nat.ne_of_lt (shorter u r hu passed))
      rw [unlike, List.mem_append, List.mem_flatMap, further, List.mem_singleton]
      · constructor
        · rintro (⟨u, ws, h⟩ | rfl)
          · exact ⟨u :: ws, h⟩
          · exact ⟨[], by simpa using many, within, by simp, Spot.passes_nil.mpr rfl⟩
        · rintro ⟨ws, h⟩
          cases ws with
          | nil => exact .inr (Spot.passes_nil.mp h.2.2.2)
          | cons u ws => exact .inl ⟨u, ws, h⟩
      · intro m hm
        rw [hm] at room
        have : ¬m ≤ count := by simpa using room
        omega
      · intro u r hu passed
        have := shorter u r hu passed
        omega

/-- A repetition takes what is made of the right number of pieces. -/
theorem takes_most (ha : Takes o a P) (proper : ∀ w, P w → w ≠ []) (low : Nat) (high : Option Nat) :
    Takes o (.repeated .most low high a)
      (Pieces P fun n => low ≤ n ∧ ∀ m, high = some m → n ≤ max low m) := by
  intro s t
  have enough : s.after.length + (low - 0) < low + s.after.length + 1 := by omega
  rw [Node.ends, mem_mostEnds ha proper low high enough fun m _ => Nat.zero_le _]
  simp only [Nat.zero_add]
  constructor
  · rintro ⟨ws, least, most, all, passed⟩
    exact ⟨ws.flatten, ⟨ws, ⟨least, most⟩, all, rfl⟩, passed⟩
  · rintro ⟨_, ⟨ws, ⟨least, most⟩, all, rfl⟩, passed⟩
    exact ⟨ws, least, most, all, passed⟩

/-- A part that may be there takes what it takes, or nothing. -/
theorem takes_optional (ha : Takes o a P) (proper : ∀ w, P w → w ≠ []) :
    Takes o (.repeated .most 0 (some 1) a) fun w => w = [] ∨ P w := by
  refine (takes_most ha proper 0 (some 1)).congr fun w => ?_
  constructor
  · rintro ⟨ws, ⟨-, most⟩, all, rfl⟩
    match ws with
    | [] => exact .inl rfl
    | [u] => exact .inr (by simpa using all u List.mem_cons_self)
    | u :: v :: ws =>
      have := most 1 rfl
      simp only [List.length_cons] at this
      omega
  · rintro (rfl | hw)
    · exact ⟨[], by simp, by simp, rfl⟩
    · exact ⟨[w], by simp, by simpa using hw, by simp⟩

/-- A part that may be there any number of times. -/
theorem takes_star (ha : Takes o a P) (proper : ∀ w, P w → w ≠ []) :
    Takes o (.repeated .most 0 none a) (Pieces P fun _ => True) := by
  refine (takes_most ha proper 0 none).congr fun w => ?_
  simp [Pieces]

/-- Characters of a set, a least number of them. -/
theorem takes_run {negated : Bool} {members : List Member} {p : Char → Bool}
    (same : ∀ c, inSet o negated members c = p c) (low : Nat) :
    Takes o (.repeated .most low none (.set negated members)) fun w => low ≤ w.length ∧ ∀ c ∈ w, p c = true := by
  have proper : ∀ w, (∃ c, w = [c] ∧ inSet o negated members c = true) → w ≠ [] := by
    rintro w ⟨c, rfl, -⟩
    exact List.cons_ne_nil c []
  refine (takes_most (takes_set negated members) proper low none).congr fun w => ?_
  constructor
  · rintro ⟨ws, ⟨least, -⟩, all, rfl⟩
    have sizes : ws.map List.length = ws.map fun _ => 1 := by
      apply List.map_congr_left
      intro u hu
      obtain ⟨c, rfl, -⟩ := all u hu
      rfl
    refine ⟨?_, fun c hc => ?_⟩
    · rw [List.length_flatten, sizes, List.map_const', List.sum_replicate_nat]
      simpa using least
    · obtain ⟨u, hu, hc⟩ := List.mem_flatten.mp hc
      obtain ⟨d, rfl, within⟩ := all u hu
      obtain rfl := List.mem_singleton.mp hc
      rwa [← same]
  · rintro ⟨least, all⟩
    refine ⟨w.map fun c => [c], ⟨by simpa using least, nofun⟩, ?_, ?_⟩
    · intro u hu
      obtain ⟨c, hc, rfl⟩ := List.mem_map.mp hu
      exact ⟨c, rfl, by rw [same]; exact all c hc⟩
    · rw [← List.flatMap_def]
      simp

end Scaffold.Pattern
