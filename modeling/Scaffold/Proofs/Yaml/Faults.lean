import Scaffold.Proofs.Yaml.Scanning

/-!
# Faults of documents

A document is refused for its form, or for one of its scalars that has no value of its kind.  Its
collections are filled level by level, which settles all that can go wrong: once that is done, the value of
the document is only put together.
-/

namespace Scaffold

namespace Yaml

namespace Node

/-- A node is part of another: it is that node, or part of an item, a key or a value in it. -/
inductive Part (m : Node) : Node → Prop
  | whole : Part m m
  | item {tag : Option String} {items : List Node} {n : Node} : n ∈ items → Part m n →
    Part m (.sequence tag items)
  | key {tag : Option String} {es : List (Node × Node)} {e : Node × Node} : e ∈ es → Part m e.1 →
    Part m (.mapping tag es)
  | value {tag : Option String} {es : List (Node × Node)} {e : Node × Node} : e ∈ es → Part m e.2 →
    Part m (.mapping tag es)

theorem Part.trans {l m n : Node} (h : Part l m) (h' : Part m n) : Part l n := by
  induction h' with
  | whole => exact h
  | item there _ ih => exact .item there ih
  | key there _ ih => exact .key there ih
  | value there _ ih => exact .value there ih

/-- What can be wrong with a node: its form, or a scalar in it that has no value of its kind. -/
def Blames (n : Node) (f : Fault) : Prop :=
  f.IsOfForm ∨ ∃ m k, Part m n ∧ m.form = .ok (.scalar k) ∧ m.scalarOf k = .error f

theorem Blames.of_part {m n : Node} {f : Fault} (h : m.Blames f) (part : Part m n) : n.Blames f := by
  rcases h with formal | ⟨l, k, inside, form, failed⟩
  · exact .inl formal
  · exact .inr ⟨l, k, inside.trans part, form, failed⟩

/-! ## Mappings -/

/-- The key and the value of an entry are part of a node. -/
def Inside (e : Node × Node) (n : Node) : Prop := Part e.1 n ∧ Part e.2 n

theorem Inside.trans {e : Node × Node} {m n : Node} (h : Inside e m) (part : Part m n) : Inside e n :=
  ⟨h.1.trans part, h.2.trans part⟩

/-- An entry of a mapping, or one inside a value of it, is inside the mapping. -/
theorem inside_mapping {tag : Option String} {es : List (Node × Node)} {e : Node × Node}
    (h : ∃ e' ∈ es, e = e' ∨ Inside e e'.2) : Inside e (.mapping tag es) := by
  obtain ⟨e', mem, rfl | inside⟩ := h
  · exact ⟨.key mem .whole, .value mem .whole⟩
  · exact inside.trans (.value mem .whole)

mutual

/-- The entries of a mapping are its own, or they are inside the value of one that merges. -/
theorem flatten_inside {es more own : List (Node × Node)} (h : flatten es = .ok (more, own)) :
    ∀ e ∈ more ++ own, ∃ e' ∈ es, e = e' ∨ Inside e e'.2 := by
  match es with
  | [] =>
    cases h
    exact fun _ there => nomatch there
  | (k, v) :: es =>
    rw [flatten] at h
    cases behind : flatten es with
    | error f =>
      rw [behind] at h
      cases merges : k.isOf .merge with
      | true => cases read : merged v <;> rw [merges, read] at h <;> cases h
      | false => rw [merges] at h; cases h
    | ok parts =>
      have later (e : Node × Node) (there : e ∈ parts.1 ++ parts.2) :
          ∃ e' ∈ (k, v) :: es, e = e' ∨ Inside e e'.2 := by
        obtain ⟨e', mem, inside⟩ := flatten_inside behind e there
        exact ⟨e', List.mem_cons_of_mem _ mem, inside⟩
      cases merges : k.isOf .merge with
      | true =>
        cases read : merged v with
        | error f => rw [merges, read] at h; cases h
        | ok here =>
          rw [behind, merges, read] at h
          cases h
          intro e there
          rw [List.append_assoc, List.mem_append] at there
          rcases there with there | there
          · exact ⟨(k, v), List.mem_cons_self, .inr (merged_inside read e there)⟩
          · exact later e there
      | false =>
        rw [behind, merges] at h
        cases h
        intro e there
        rw [List.mem_append, List.mem_cons] at there
        rcases there with there | rfl | there
        · exact later e (List.mem_append_left _ there)
        · exact ⟨(k, v), List.mem_cons_self, .inl rfl⟩
        · exact later e (List.mem_append_right _ there)

/-- The entries that a node gives to a mapping are inside it. -/
theorem merged_inside {n : Node} {es : List (Node × Node)} (h : merged n = .ok es) : ∀ e ∈ es, Inside e n := by
  match n with
  | .scalar .. => cases h
  | .sequence tag items =>
    intro e there
    obtain ⟨n, mem, inside⟩ := mergedItems_inside h e there
    exact inside.trans (.item mem .whole)
  | .mapping tag own =>
    rw [merged] at h
    cases read : flatten own with
    | error f => rw [read] at h; cases h
    | ok parts =>
      rw [read] at h
      cases h
      exact fun e there => inside_mapping (flatten_inside read e there)

/-- The entries that the items of a node give to a mapping are inside these. -/
theorem mergedItems_inside {items : List Node} {es : List (Node × Node)} (h : mergedItems items = .ok es) :
    ∀ e ∈ es, ∃ n ∈ items, Inside e n := by
  match items with
  | [] =>
    cases h
    exact fun _ there => nomatch there
  | .scalar .. :: _ | .sequence .. :: _ => cases h
  | .mapping tag own :: rest =>
    rw [mergedItems] at h
    cases read : flatten own with
    | error f => rw [read] at h; cases h
    | ok parts =>
      cases behind : mergedItems rest with
      | error f => rw [read, behind] at h; cases h
      | ok later =>
        rw [read, behind] at h
        cases h
        intro e there
        rw [List.mem_append] at there
        rcases there with there | there
        · obtain ⟨n, mem, inside⟩ := mergedItems_inside behind e there
          exact ⟨n, List.mem_cons_of_mem _ mem, inside⟩
        · exact ⟨_, List.mem_cons_self, inside_mapping (flatten_inside read e there)⟩

end

mutual

theorem flatten_fails (es : List (Node × Node)) : FailsOnly Fault.IsOfForm (flatten es) := by
  match es with
  | [] => exact .ok _
  | (k, v) :: es =>
    rw [flatten]
    split
    · refine (merged_fails v).bind fun here _ => (flatten_fails es).bind fun parts _ => ?_
      exact .ok _
    · refine (flatten_fails es).bind fun parts _ => ?_
      exact .ok _

theorem merged_fails (n : Node) : FailsOnly Fault.IsOfForm (merged n) := by
  match n with
  | .scalar .. => exact FailsOnly.error_iff.mpr trivial
  | .sequence _ items => exact mergedItems_fails items
  | .mapping _ es => exact (flatten_fails es).bind fun _ _ => .ok _

theorem mergedItems_fails (items : List Node) : FailsOnly Fault.IsOfForm (mergedItems items) := by
  match items with
  | [] => exact .ok []
  | .scalar .. :: _ | .sequence .. :: _ => exact FailsOnly.error_iff.mpr trivial
  | .mapping _ es :: rest =>
    exact (flatten_fails es).bind fun _ _ => (mergedItems_fails rest).bind fun _ _ => .ok _

end

/-! ## Scalars -/

mutual

theorem text_fails (n : Node) : FailsOnly Fault.IsOfForm n.text := by
  match n with
  | .scalar _ _ s => exact .ok s
  | .sequence .. => exact FailsOnly.error_iff.mpr trivial
  | .mapping _ es => exact defaultText_fails es

theorem defaultText_fails (es : List (Node × Node)) : FailsOnly Fault.IsOfForm (defaultText es) := by
  match es with
  | [] => exact FailsOnly.error_iff.mpr trivial
  | (k, v) :: es =>
    rw [defaultText]
    split
    · exact text_fails v
    · exact defaultText_fails es

end

theorem form_fails (n : Node) : FailsOnly Fault.IsOfForm n.form := by
  have named (tag : String) : FailsOnly Fault.IsOfForm (Form.ofTag tag) := by
    unfold Form.ofTag
    split
    · exact .ok _
    · split
      · exact .ok _
      · exact FailsOnly.error_iff.mpr trivial
  match n with
  | .scalar (some t) .. | .sequence (some t) _ | .mapping (some t) _ => exact named t
  | .scalar none .. | .sequence none _ | .mapping none _ => exact .ok _

/-- What is wrong with a node as a key is wrong with the node. -/
theorem key_fails (n : Node) : FailsOnly n.Blames n.key := by
  refine ((form_fails n).mono fun _ => .inl).bind fun form known => ?_
  match form with
  | .collection _ => exact FailsOnly.error_iff.mpr (.inl trivial)
  | .scalar k =>
    have scalar : FailsOnly n.Blames (n.scalarOf k) := fun f failed => .inr ⟨n, k, .whole, known, failed⟩
    cases k
    case default => exact ((text_fails n).mono fun _ => .inl).bind fun s _ => .ok _
    all_goals
      refine scalar.bind fun v _ => ?_
      split
      all_goals first
        | exact .ok _
        | exact FailsOnly.error_iff.mpr (.inl trivial)

/-! ## Collections -/

/-- A collection only fails for its form to have contents, and these are parts of it. -/
theorem contents_fails (s : Shape) (n : Node) : FailsOnly Fault.IsOfForm (n.contents s) := by
  match n with
  | .scalar .. => exact FailsOnly.error_iff.mpr trivial
  | .sequence _ items =>
    rw [contents]
    split
    · exact .ok _
    · exact FailsOnly.error_iff.mpr trivial
  | .mapping _ es =>
    rw [contents]
    split
    · exact (flatten_fails es).bind fun _ _ => .ok _
    · exact FailsOnly.error_iff.mpr trivial

/-- All nodes among contents are parts of a node. -/
def Contents.Of (n : Node) : Contents → Prop
  | .items ns => ∀ m ∈ ns, Part m n
  | .entries es => ∀ e ∈ es, Inside e n

theorem contents_of {s : Shape} {n : Node} {c : Contents} (h : n.contents s = .ok c) : c.Of n := by
  match n with
  | .scalar .. => cases h
  | .sequence _ items =>
    rw [contents] at h
    split at h
    · cases h
      exact fun m there => .item there .whole
    · cases h
  | .mapping _ es =>
    rw [contents] at h
    split at h
    · cases read : flatten es with
      | error f => rw [read] at h; cases h
      | ok parts =>
        rw [read] at h
        cases h
        exact fun e there => inside_mapping (flatten_inside read e there)
    · cases h

theorem made_fails (n : Node) : FailsOnly n.Blames n.made := by
  refine ((form_fails n).mono fun _ => .inl).bind fun form known => ?_
  match form with
  | .collection _ => exact .ok _
  | .scalar k => exact FailsOnly.bind (fun f failed => .inr ⟨n, k, .whole, known, failed⟩) fun _ _ => .ok _

/-- What is left of a node is the node itself, as a collection of the shape that it has. -/
theorem made_eq_ok {n : Node} {left : List (Shape × Node)} (h : n.made = .ok left) :
    (∃ k v, n.form = .ok (.scalar k) ∧ n.scalarOf k = .ok v ∧ left = []) ∨
      ∃ s, n.form = .ok (.collection s) ∧ left = [(s, n)] := by
  rw [made] at h
  cases known : n.form with
  | error f => rw [known] at h; cases h
  | ok form =>
    rw [known] at h
    match form with
    | .collection s =>
      cases h
      exact .inr ⟨s, rfl, rfl⟩
    | .scalar k =>
      cases read : n.scalarOf k with
      | error f => simp only [read, bind, Except.bind] at h; cases h
      | ok v =>
        simp only [read, bind, Except.bind] at h
        cases h
        exact .inl ⟨k, v, rfl, read, rfl⟩

theorem made_part {n : Node} {left : List (Shape × Node)} (h : n.made = .ok left) :
    ∀ x ∈ left, Part x.2 n := by
  rcases made_eq_ok h with ⟨_, _, -, -, rfl⟩ | ⟨s, known, rfl⟩
  · exact fun _ there => nomatch there
  · intro x there
    obtain rfl := List.mem_singleton.mp there
    exact .whole

/-- What is wrong with the contents of a collection is wrong with the collection. -/
theorem filled_fails (s : Shape) (n : Node) : FailsOnly n.Blames (filled s n) := by
  refine ((contents_fails s n).mono fun _ => .inl).bind fun c known => ?_
  match c, contents_of known with
  | .items ns, parts =>
    refine FailsOnly.bind (.mapM fun m there => ?_) fun _ _ => .ok _
    exact (made_fails m).mono fun f blamed => blamed.of_part (parts m there)
  | .entries es, parts =>
    refine FailsOnly.bind (.mapM fun e there => ?_) fun _ _ => .ok _
    obtain ⟨inKey, inValue⟩ := parts e there
    refine ((key_fails e.1).mono fun f blamed => blamed.of_part inKey).bind fun _ _ => ?_
    exact (made_fails e.2).mono fun f blamed => blamed.of_part inValue

theorem filled_eq_ok {s : Shape} {n : Node} {left : List (Shape × Node)} (h : filled s n = .ok left) :
    (∃ ns parts, n.contents s = .ok (.items ns) ∧ ns.mapM made = .ok parts ∧ left = parts.flatten) ∨
      ∃ es parts, n.contents s = .ok (.entries es) ∧ es.mapM madeEntry = .ok parts ∧ left = parts.flatten := by
  rw [filled] at h
  cases known : n.contents s with
  | error f => rw [known] at h; cases h
  | ok c =>
    rw [known] at h
    match c with
    | .items ns =>
      cases each : ns.mapM made with
      | error f => simp only [each, bind, Except.bind] at h; cases h
      | ok parts =>
        simp only [each, bind, Except.bind] at h
        cases h
        exact .inl ⟨ns, parts, rfl, each, rfl⟩
    | .entries es =>
      cases each : es.mapM madeEntry with
      | error f => simp only [each, bind, Except.bind] at h; cases h
      | ok parts =>
        simp only [each, bind, Except.bind] at h
        cases h
        exact .inr ⟨es, parts, rfl, each, rfl⟩

theorem madeEntry_eq_ok {e : Node × Node} {left : List (Shape × Node)} (h : madeEntry e = .ok left) :
    (∃ k, key e.1 = .ok k) ∧ made e.2 = .ok left := by
  rw [madeEntry] at h
  cases known : key e.1 with
  | error f => rw [known] at h; cases h
  | ok k =>
    rw [known] at h
    exact ⟨⟨k, rfl⟩, h⟩

/-- What is left of a collection are collections in it. -/
theorem filled_part {s : Shape} {n : Node} {left : List (Shape × Node)} (h : filled s n = .ok left) :
    ∀ x ∈ left, Part x.2 n := by
  intro x there
  rcases filled_eq_ok h with ⟨ns, parts, known, each, rfl⟩ | ⟨es, parts, known, each, rfl⟩
  · obtain ⟨m, mem, here, done, inside⟩ := mem_flatten_of_mapM each there
    have part : Part m n := contents_of known m mem
    exact (made_part done x inside).trans part
  · obtain ⟨e, mem, here, done, inside⟩ := mem_flatten_of_mapM each there
    have part : Inside e n := contents_of known e mem
    exact (made_part (madeEntry_eq_ok done).2 x inside).trans part.2

/-- What is wrong with collections that are filled level by level is wrong with the node that they are in. -/
theorem fill_fails {n : Node} (fuel : Nat) {left : List (Shape × Node)} (h : ∀ x ∈ left, Part x.2 n) :
    FailsOnly n.Blames (fill fuel left) := by
  induction fuel generalizing left with
  | zero =>
    cases left with
    | nil => exact .ok ()
    | cons x left => exact FailsOnly.error_iff.mpr (.inl trivial)
  | succ fuel ih =>
    cases left with
    | nil => exact .ok ()
    | cons x left =>
      refine FailsOnly.bind (.mapM fun x there => ?_) fun parts each => ih fun y there => ?_
      · exact (filled_fails x.1 x.2).mono fun f blamed => blamed.of_part (h x there)
      · obtain ⟨x, mem, here, done, inside⟩ := mem_flatten_of_mapM each there
        exact (filled_part done y inside).trans (h x mem)

/-- A node that is made has a value once what is left of it has. -/
theorem value_of_made {fuel : Nat} {n : Node} {left : List (Shape × Node)} (h : n.made = .ok left)
    (later : ∀ x ∈ left, x.2.form = .ok (.collection x.1) → ∃ v, x.2.value (fuel + 1) = .ok v) :
    ∃ v, n.value (fuel + 1) = .ok v := by
  rcases made_eq_ok h with ⟨k, v, known, read, rfl⟩ | ⟨s, known, rfl⟩
  · exact ⟨v, by rw [value, known]; exact read⟩
  · exact later (s, n) List.mem_cons_self known

theorem value_items {fuel : Nat} {s : Shape} {n : Node} {ns : List Node} {vs : List Value}
    (known : n.form = .ok (.collection s)) (has : n.contents s = .ok (.items ns))
    (values : ns.mapM (value fuel) = .ok vs) : n.value (fuel + 1) = .ok (.list vs) := by
  rw [value, known]
  show (n.contents s >>= _) = _
  rw [has]
  show (ns.mapM (value fuel)).map Value.list = _
  rw [values]
  rfl

/-- The key and the value of an entry. -/
def pair (fuel : Nat) (e : Node × Node) : Except Fault (Key × Value) := do
  let k ← key e.1
  return (k, ← value fuel e.2)

theorem value_entries {fuel : Nat} {s : Shape} {n : Node} {es : List (Node × Node)} {xs : List (Key × Value)}
    (known : n.form = .ok (.collection s)) (has : n.contents s = .ok (.entries es))
    (pairs : es.mapM (pair fuel) = .ok xs) : n.value (fuel + 1) = .ok (.dict (Entries.ofList xs)) := by
  rw [value, known]
  show (n.contents s >>= _) = _
  rw [has]
  show (es.mapM (pair fuel) >>= fun xs => .ok (Value.dict (Entries.ofList xs))) = _
  rw [pairs]
  rfl

/-- Collections that can be filled have values. -/
theorem exists_value {fuel : Nat} {left : List (Shape × Node)} (h : fill fuel left = .ok ()) :
    ∀ x ∈ left, x.2.form = .ok (.collection x.1) → ∃ v, x.2.value (fuel + 1) = .ok v := by
  induction fuel generalizing left with
  | zero =>
    cases left with
    | nil => exact fun _ there => nomatch there
    | cons => cases h
  | succ fuel ih =>
    cases left with
    | nil => exact fun _ there => nomatch there
    | cons y left =>
      simp only [fill] at h
      cases each : (y :: left).mapM fun x => filled x.1 x.2 with
      | error f => rw [each] at h; cases h
      | ok parts =>
        rw [each] at h
        -- the nodes of the next level have values, by induction
        have member {m : Node} {here : List (Shape × Node)} (done : m.made = .ok here)
            (inside : here ⊆ parts.flatten) : ∃ v, m.value (fuel + 1) = .ok v :=
          value_of_made done fun z there => ih h z (inside there)
        intro x there known
        obtain ⟨here, done, inside⟩ := subset_flatten_of_mapM each there
        rcases filled_eq_ok done with ⟨ns, lists, has, made, rfl⟩ | ⟨es, lists, has, made, rfl⟩
        · have items : ∀ m ∈ ns, ∃ v, m.value (fuel + 1) = .ok v := fun m mem => by
            obtain ⟨here, done, sub⟩ := subset_flatten_of_mapM made mem
            exact member done (List.Subset.trans sub inside)
          obtain ⟨vs, values⟩ := exists_mapM_iff.mpr items
          exact ⟨.list vs, value_items known has values⟩
        · have entries : ∀ e ∈ es, ∃ x, pair (fuel + 1) e = .ok x := fun e mem => by
            obtain ⟨here, done, sub⟩ := subset_flatten_of_mapM made mem
            obtain ⟨⟨k, keyed⟩, done⟩ := madeEntry_eq_ok done
            obtain ⟨v, valued⟩ := member done (List.Subset.trans sub inside)
            exact ⟨(k, v), by rw [pair, keyed, valued]; rfl⟩
          obtain ⟨xs, pairs⟩ := exists_mapM_iff.mpr entries
          exact ⟨.dict (Entries.ofList xs), value_entries known has pairs⟩

end Node

/-! ## Documents -/

/-- The node of a document, if it has one. -/
def document (s : String) : Except Fault (Option Node) := Node.ofTokens (tokens s.toList)

/-- A document whose form can be read fails exactly for what filling it finds. -/
theorem read_fails_iff {s : String} {f : Fault} :
    read s = .error f ↔ document s = .error f ∨ ∃ n, document s = .ok (some n) ∧
      (n.made >>= Node.fill (Node.bound (tokens s.toList).read)) = .error f := by
  rw [read]
  dsimp only
  cases known : document s with
  | error g =>
    rw [document] at known
    rw [known]
    simp [bind, Except.bind]
  | ok found =>
    rw [document] at known
    rw [known]
    cases found with
    | none => simp [bind, Except.bind, pure, Except.pure]
    | some n =>
      show (n.made >>= fun left => Node.fill _ left >>= fun _ => n.value _) = .error f ↔ _
      cases made : n.made with
      | error g => simp [made, bind, Except.bind]
      | ok left =>
        cases filled : Node.fill (Node.bound (tokens s.toList).read) left with
        | error g => simp [made, filled, bind, Except.bind]
        | ok =>
          obtain ⟨v, valued⟩ := Node.value_of_made made (Node.exists_value filled)
          simp [made, filled, valued, bind, Except.bind]

/-- Why a document is refused for something else than its form: an escape in it has a code that is that of no
character, or a scalar in it has no value of its kind. -/
inductive Blamed (s : String) (f : Fault) : Prop
  | code : (tokens s.toList).fault = some f → f.IsOfCode → Blamed s f
  | scalar {n m : Node} {k : Kind} : document s = .ok (some n) → Node.Part m n → m.form = .ok (.scalar k) →
    m.scalarOf k = .error f → Blamed s f

theorem blamed_of_read {s : String} {f : Fault} (h : read s = .error f) (foreign : ¬ f.IsOfForm) :
    Blamed s f := by
  rcases read_fails_iff.mp h with refused | ⟨n, found, failed⟩
  · have behind : (tokens s.toList).fault = some f :=
      (Node.ofTokens_fails _ f refused).resolve_left foreign
    exact .code behind ((tokens_fault behind).resolve_left foreign)
  · have blamed : n.Blames f :=
      FailsOnly.bind n.made_fails (fun _ made => Node.fill_fails _ (Node.made_part made)) f failed
    obtain ⟨m, k, inside, form, failed⟩ := blamed.resolve_left foreign
    exact .scalar found inside form failed

end Yaml

end Scaffold
