import LiveBinding.Proofs.Constants
import LiveBinding.Proofs.Discretion
import LiveBinding.Proofs.Lookup

/-! The layers of a scope.

A name may stand for several things at once: a reserved meaning, a local, attributes of the owner
and of its parents, a global, a builtin. Here they are listed, nearest first, from the world as it
is. Looking the name up yields the first of them and does not touch the others; asking whether the
name is visible tells whether there are any. -/
namespace LiveBinding

namespace World
variable {w w' : World} {o p q : ObjectId} {os : List ObjectId} {name : String}

/-! ### Owner chains -/

/-- The objects of an owner chain, from one object on. -/
inductive Lineage (w : World) : ObjectId → List ObjectId → Prop where
  | last {o : ObjectId} (root : w.parent? o = none) : w.Lineage o [o]
  | next {o p : ObjectId} {os : List ObjectId} (parent : w.parent? o = some p)
      (rest : w.Lineage p os) : w.Lineage o (o :: os)

/-- An object has an attribute of that name. A view has what any object of its owner's chain has. -/
inductive Bears (w : World) (name : String) : ObjectId → Prop where
  | declared {o : ObjectId} {d : Declared} (entity : w.entity? o = some (.declared d))
      (has : d.hasAttribute name = true) : w.Bears name o
  | change {o : ObjectId} {c : Change} (entity : w.entity? o = some (.change c))
      (has : (c.attribute? name).isSome = true) : w.Bears name o
  | view {o p q : ObjectId} {t : Option TracerRef} {os : List ObjectId}
      (entity : w.entity? o = some (.view p t)) (lineage : w.Lineage p os) (mem : q ∈ os)
      (has : w.Bears name q) : w.Bears name o

theorem Lineage.unique {os' : List ObjectId} (lineage : w.Lineage o os) (other : w.Lineage o os') :
    os = os' := by
  induction lineage generalizing os' with
  | last root =>
    cases other with
    | last _ => rfl
    | next parent _ => cases root.symm.trans parent
  | next parent _ ih =>
    cases other with
    | last root => cases root.symm.trans parent
    | next parent' rest =>
      cases parent.symm.trans parent'
      rw [ih rest]

theorem Descends.parent?_lt (descends : w.Descends) (parent : w.parent? o = some p) :
    p.index < o.index := by
  obtain ⟨declared, _⟩ := Option.filter_eq_some_iff.1 parent
  obtain ⟨d, known, older⟩ := Option.bind_eq_some_iff.1 declared
  exact descends.parent known older

/-- Chains come to an end. -/
theorem Descends.exists_lineage (descends : w.Descends) (o : ObjectId) :
    ∃ os, w.Lineage o os := by
  induction size : o.index using Nat.strong_induction_on generalizing o with
  | _ n ih =>
    cases parent : w.parent? o with
    | none => exact ⟨[o], .last parent⟩
    | some p =>
      obtain ⟨os, rest⟩ := ih p.index (size ▸ descends.parent?_lt parent) p rfl
      exact ⟨o :: os, .next parent rest⟩

/-- The steps that an identity allows are enough, and more make no difference. -/
theorem Descends.within_eq (descends : w.Descends) (name : String) (m n : Nat) (o : ObjectId) :
    (2 * o.index + 1 ≤ m → 2 * o.index + 1 ≤ n →
      w.hasWithin name m o = w.hasWithin name n o) ∧
    (2 * o.index + 2 ≤ m → 2 * o.index + 2 ≤ n →
      w.nearestWithin name m o = w.nearestWithin name n o) := by
  induction m generalizing n o with
  | zero => exact ⟨fun less => absurd less (by omega), fun less => absurd less (by omega)⟩
  | succ m ih =>
    constructor
    · intro enough enough'
      obtain ⟨k, rfl⟩ : ∃ k, n = k + 1 := ⟨n - 1, by omega⟩
      simp only [hasWithin]
      split
      · rfl
      · rfl
      · next p t entity =>
        have older := descends.owner entity
        rw [(ih k p).2 (by omega) (by omega)]
      · rfl
    · intro enough enough'
      obtain ⟨k, rfl⟩ : ∃ k, n = k + 1 := ⟨n - 1, by omega⟩
      simp only [nearestWithin, (ih k o).1 (by omega) (by omega)]
      split
      · rfl
      · cases parent : w.parent? o with
        | none => rfl
        | some p =>
          have older := descends.parent?_lt parent
          exact (ih k p).2 (by omega) (by omega)

theorem Descends.hasAttribute_eq (descends : w.Descends) :
    w.hasAttribute o name = match w.entity? o with
      | some (.declared d) => d.hasAttribute name
      | some (.change c) => (c.attribute? name).isSome
      | some (.view p _) => (w.nearest? p name).isSome
      | none => false := by
  unfold hasAttribute
  simp only [hasWithin]
  rcases entity : w.entity? o with _ | d | c | ⟨p, t⟩
  · rfl
  · rfl
  · rfl
  · have older := descends.owner entity
    exact congrArg Option.isSome ((descends.within_eq name _ _ p).2 (by omega) (Nat.le_refl _))

theorem Descends.nearest?_eq (descends : w.Descends) :
    w.nearest? o name =
      if w.hasAttribute o name = true then some o
      else (w.parent? o).bind (w.nearest? · name) := by
  conv => lhs; unfold nearest?
  simp only [nearestWithin]
  change (if w.hasAttribute o name = true then _ else _) = _
  split
  · rfl
  · cases parent : w.parent? o with
    | none => rfl
    | some p =>
      have older := descends.parent?_lt parent
      exact (descends.within_eq name (2 * o.index + 1) _ p).2 (by omega) (Nat.le_refl _)

/-- The nearest object with an attribute is the first of the chain that has it. -/
theorem Lineage.nearest? (lineage : w.Lineage o os) (descends : w.Descends) (name : String) :
    w.nearest? o name = os.find? (w.hasAttribute · name) := by
  induction lineage with
  | last root =>
    rw [descends.nearest?_eq, root, List.find?_cons]
    split <;> simp_all
  | next parent _ ih =>
    rw [descends.nearest?_eq, parent, List.find?_cons, Option.bind_some, ih]
    split <;> simp_all

/-- Walking from object to object tells exactly which of them have the attribute. -/
theorem Descends.hasAttribute_iff (descends : w.Descends) :
    w.hasAttribute o name = true ↔ w.Bears name o := by
  induction size : o.index using Nat.strong_induction_on generalizing o with
  | _ n ih =>
    -- whatever is found from an older object on is older
    have found {p : ObjectId} {t : Option TracerRef} {os : List ObjectId}
        (entity : w.entity? o = some (.view p t)) (lineage : w.Lineage p os) :
        (w.nearest? p name).isSome = true ↔ ∃ q ∈ os, w.Bears name q := by
      have older (q : ObjectId) (mem : q ∈ os) : q.index < n := by
        have start := descends.owner entity
        rw [size] at start
        clear ih size entity
        induction lineage with
        | last _ =>
          cases List.mem_singleton.1 mem
          exact start
        | next parent _ inner =>
          rcases List.mem_cons.1 mem with rfl | mem
          · exact start
          · exact inner mem (Nat.lt_trans (descends.parent?_lt parent) start)
      rw [lineage.nearest? descends, List.find?_isSome]
      exact exists_congr fun q => and_congr_right fun mem => ih q.index (older q mem) rfl
    rw [descends.hasAttribute_eq]
    constructor
    · intro has
      split at has
      · next d entity => exact .declared entity has
      · next c entity => exact .change entity has
      · next p t entity =>
        obtain ⟨os, lineage⟩ := descends.exists_lineage p
        obtain ⟨q, mem, bears⟩ := (found entity lineage).1 has
        exact .view entity lineage mem bears
      · cases has
    · intro bears
      cases bears with
      | declared entity has =>
        rw [entity]
        exact has
      | change entity has =>
        rw [entity]
        exact has
      | view entity lineage mem has =>
        rw [entity]
        exact (found entity lineage).2 ⟨_, mem, has⟩

/-- What is nearest has the attribute. -/
theorem Descends.hasAttribute_of_nearest? (descends : w.Descends)
    (near : w.nearest? o name = some p) : w.hasAttribute p name = true := by
  obtain ⟨os, lineage⟩ := descends.exists_lineage o
  rw [lineage.nearest? descends] at near
  exact List.find?_some (p := (w.hasAttribute · name)) near

/-! ### Reading what is there -/

theorem isLive_hold {h : Handle} (hs : List Handle) (live : w.isLive h = true) :
    (w.hold hs).isLive h = true := by
  have roots : ∀ h ∈ w.roots, h ∈ (w.hold hs).roots := by
    intro h root
    rcases List.mem_append.1 root with kept | held
    · exact List.mem_append_left _ kept
    · exact List.mem_append_right _ (List.mem_append_right _ held)
  exact isLive_mono roots id live

/-- Among the same objects, no attribute is lost as long as no parent is. -/
theorem within_mono (entity : ∀ o, w'.entity? o = w.entity? o)
    (parent : ∀ {o p}, w.parent? o = some p → w'.parent? o = some p) (name : String) (fuel : Nat)
    (o : ObjectId) :
    (w.hasWithin name fuel o = true → w'.hasWithin name fuel o = true) ∧
      ((w.nearestWithin name fuel o).isSome = true →
        (w'.nearestWithin name fuel o).isSome = true) := by
  induction fuel generalizing o with
  | zero =>
    simp only [hasWithin, nearestWithin]
    exact ⟨id, id⟩
  | succ fuel ih =>
    constructor
    · simp only [hasWithin, entity]
      rcases w.entity? o with _ | d | c | ⟨p, t⟩
      · exact id
      · exact id
      · exact id
      · exact (ih p).2
    · simp only [nearestWithin]
      intro found
      split
      · rfl
      · next lacks =>
        have lacks' : ¬w.hasWithin name fuel o = true := fun has => lacks ((ih o).1 has)
        rw [if_neg lacks'] at found
        cases there : w.parent? o with
        | none =>
          rw [there] at found
          cases found
        | some p =>
          rw [there] at found
          rw [parent there]
          exact (ih p).2 found

/-- Whoever holds on to more does not make anything lose an attribute. -/
theorem within_hold (hs : List Handle) (name : String) (fuel : Nat) (o : ObjectId) :
    (w.hasWithin name fuel o = true → (w.hold hs).hasWithin name fuel o = true) ∧
      ((w.nearestWithin name fuel o).isSome = true →
        ((w.hold hs).nearestWithin name fuel o).isSome = true) := by
  have entity (o : ObjectId) : (w.hold hs).entity? o = w.entity? o := rfl
  refine within_mono entity (fun {o p} parent => ?_) name fuel o
  obtain ⟨declared, live⟩ := Option.filter_eq_some_iff.1 parent
  exact Option.filter_eq_some_iff.2 ⟨declared, isLive_hold hs live⟩

/-- An attribute that is read has a value, whatever kind of object has it. -/
theorem Descends.readAttr_ne_none (descends : w.Descends) (has : w.hasAttribute o name = true)
    (n : Nat) : readAttr (perform n) o name w ≠ some (.ok none, w') := by
  induction size : o.index using Nat.strong_induction_on generalizing o n w w' with
  | _ k ih =>
    intro run
    rw [descends.hasAttribute_eq] at has
    split at has
    · next d entity => exact readAttr_of_attribute (w.declared?_eq_some.2 entity) has run rfl
    · next c entity =>
      unfold readAttr at run
      rw [Action.read_bind, entity] at run
      obtain ⟨nothing, -⟩ : c.attribute? name = none ∧ w = w' := by simpa using run
      rw [nothing] at has
      cases has
    · next p t entity =>
      unfold readAttr at run
      rw [Action.read_bind, entity] at run
      obtain ⟨u, inner, -⟩ := Action.exists_of_holding run
      have descends' : (w.hold [.object o]).Descends := descends.of_objects rfl
      obtain ⟨q, near⟩ := Option.isSome_iff_exists.1 ((within_hold [.object o] name _ p).2 has)
      change (w.hold [.object o]).nearest? p name = some q at near
      change loadName (perform n) p name t (w.hold [.object o]) = _ at inner
      unfold loadName at inner
      rw [Action.read_bind, near] at inner
      have older := descends.owner entity
      have down := descends'.nearest?_le near
      rcases Action.exists_of_bind inner with ⟨e, -, failed⟩ | ⟨v, w₁, answer, rest⟩
      · cases failed
      · cases v with
        | some v => cases t <;> cases rest
        | none =>
          cases n with
          | zero => cases answer
          | succ n =>
            have found := descends'.hasAttribute_of_nearest? near
            exact ih q.index (by omega) descends' found n rfl answer
    · cases has

end World

/-! ### What a name stands for -/

/-- What a name stands for: something that is known at once, or an attribute of an object. -/
inductive Source where
  | known (b : Base)
  | attribute (o : ObjectId)
deriving DecidableEq, Inhabited

/-- The meaning of a reserved name that the scope has at the moment. -/
def World.reserved? (w : World) (s : Scope) (name : String) : Option Base :=
  ((Reserved.ofName? name).filter (w.available s)).bind s.base?

/-- Everything a name stands for in a scope whose owner has that chain, nearest first: a reserved
meaning, a local, attributes, a global, a builtin. -/
def World.sources (w : World) (s : Scope) (chain : List ObjectId) (name : String) : List Source :=
  (w.reserved? s name).toList.map Source.known ++
    ((w.layer s.locals).get? name).toList.map (Source.known <| .value ·) ++
    (chain.filter (w.hasAttribute · name)).map Source.attribute ++
    (s.environment.globals.get? name).toList.map (Source.known <| .value ·) ++
    (s.environment.builtins.get? name).toList.map (Source.known <| .value ·)

/-- Takes the value from one source. Only attributes are evaluated, and only they are recorded. -/
def Source.load (self : Performer) (s : Scope) (name : String) : Source → Action Value
  | .known (.value v) => Action.succeed v
  | .known .around => do return .object (← Action.add (·.addObject (.view s.owner s.tracer)))
  | .attribute o => do
    let v ← self _ (.getAttr (.object o) name)
    match s.tracer with
    | some t => record t o name
    | none => pure ()
    return v

section
variable {w : World} {s : Scope} {b : Base} {chain : List ObjectId} {name : String}

theorem World.base?_isSome {r : Reserved} (given : w.available s r = true) :
    (s.base? r).isSome = true := by
  cases r with
  | self => rfl
  | change => rwa [Scope.base?, Option.isSome_map]
  | tracer => rwa [Scope.base?, Option.isSome_map]
  | nonlocals => rfl

theorem World.reserved?_isSome :
    (w.reserved? s name).isSome = (Reserved.ofName? name).any (w.available s) := by
  unfold World.reserved?
  cases Reserved.ofName? name with
  | none => rfl
  | some r =>
    rw [Option.any_some, Option.filter_some]
    cases given : w.available s r with
    | false => rfl
    | true => exact base?_isSome given

theorem getName_of_reserved (self : Performer) (means : w.reserved? s name = some b) :
    getName self s name w = (Source.known b).load self s name w := by
  obtain ⟨r, given, base⟩ := Option.bind_eq_some_iff.1 means
  obtain ⟨reserved, available⟩ := Option.filter_eq_some_iff.1 given
  unfold getName
  rw [reserved]
  cases r with
  | self =>
    cases base
    rfl
  | change =>
    obtain ⟨o, change, rfl⟩ := Option.map_eq_some_iff.1 base
    simp only [reservedValue, change]
    rfl
  | tracer =>
    obtain ⟨t, tracer, rfl⟩ := Option.map_eq_some_iff.1 base
    simp only [reservedValue, tracer]
    rfl
  | nonlocals =>
    cases base
    have there : w.has s.owner = true := available
    simp only [reservedValue, Action.bind_assoc, Action.read_bind, there]
    rfl

/-- A reserved name that the scope has no meaning for is a name like any other. -/
theorem getName_of_plain (self : Performer) (plain : w.reserved? s name = none) :
    getName self s name w = match (w.layer s.locals).get? name with
      | some v => some (.ok v, w)
      | none => outerName self s name w := by
  have behind : (Action.read (fun w => (w.layer s.locals).get? name) >>= fun
      | some v => return v
      | none => outerName self s name) w = match (w.layer s.locals).get? name with
        | some v => some (.ok v, w)
        | none => outerName self s name w := by
    rw [Action.read_bind]
    cases (w.layer s.locals).get? name <;> rfl
  unfold getName
  cases reserved : Reserved.ofName? name with
  | none => exact behind
  | some r =>
    have gone : w.available s r = false := by
      have unknown := @World.reserved?_isSome w s name
      rw [plain, reserved] at unknown
      exact unknown.symm
    show (reservedValue s r >>= _) w = _
    rw [Action.bind_apply, Discreet.reservedValue_of_unavailable gone]
    exact behind

/-- Reading an attribute that the object has comes down to one answer or failure. -/
theorem World.Descends.readAttr_eq (descends : w.Descends) {o : ObjectId}
    (has : w.hasAttribute o name = true) (n : Nat) {r : Except BindError (Option Value)}
    {w' : World} (answer : perform n _ (.readAttr o name) w = some (r, w')) :
    ∃ r', r = r'.map some ∧ perform n _ (.getAttr (.object o) name) w = some (r', w') := by
  cases n with
  | zero => cases answer
  | succ n =>
    change readAttr (perform n) o name w = some (r, w') at answer
    have gets : perform (n + 1) _ (.getAttr (.object o) name) w =
        getAttr (perform n) (.object o) name w := rfl
    rw [gets, getAttr, Action.bind_apply, answer]
    rcases r with e | _ | v
    · exact ⟨.error e, rfl, rfl⟩
    · exact absurd answer (descends.readAttr_ne_none has n)
    · exact ⟨.ok v, rfl, rfl⟩

/-- Behind the locals, the nearest attribute comes first. -/
theorem outerName_of_nearest? (descends : w.Descends) {o : ObjectId}
    (near : w.nearest? s.owner name = some o) (n : Nat) :
    outerName (perform n) s name w = (Source.attribute o).load (perform n) s name w := by
  have has := descends.hasAttribute_of_nearest? near
  unfold outerName loadName Source.load
  rw [Action.bind_assoc, Action.read_bind, near]
  dsimp only
  rw [Action.bind_assoc, Action.bind_apply, Action.bind_apply]
  cases answer : perform n _ (.readAttr o name) w with
  | none =>
    cases n with
    | zero => rfl
    | succ n =>
      have gets : perform (n + 1) _ (.getAttr (.object o) name) w = none := by
        change readAttr (perform n) o name w = none at answer
        show getAttr (perform n) (.object o) name w = none
        rw [getAttr, Action.bind_apply, answer]
      rw [gets]
  | some x =>
    obtain ⟨r, w'⟩ := x
    obtain ⟨r', rfl, gets⟩ := descends.readAttr_eq has n answer
    rw [gets]
    cases r' with
    | error e => rfl
    | ok v => cases s.tracer <;> rfl

/-- Without an attribute, the module is asked. -/
theorem outerName_of_none (self : Performer) (nowhere : w.nearest? s.owner name = none) :
    outerName self s name w = match s.environment.globals.get? name with
      | some v => some (.ok v, w)
      | none => match s.environment.builtins.get? name with
        | some v => some (.ok v, w)
        | none => some (.error (.nameResolution name), w) := by
  unfold outerName loadName
  rw [Action.bind_assoc, Action.read_bind, nowhere]
  cases s.environment.globals.get? name with
  | some v => rfl
  | none => cases s.environment.builtins.get? name <;> rfl

/-- A name is visible if it stands for anything. -/
theorem World.Lineage.visible (lineage : w.Lineage s.owner chain) (descends : w.Descends)
    (name : String) : w.visible s name = !(w.sources s chain name).isEmpty := by
  have near : (w.nearest? s.owner name).isSome =
      !(chain.filter (w.hasAttribute · name)).isEmpty := by
    rw [lineage.nearest? descends, ← List.head?_filter]
    cases chain.filter (w.hasAttribute · name) <;> rfl
  have same : w.visible s name = ((w.reserved? s name).isSome ||
      (w.layer s.locals).contains name || (w.nearest? s.owner name).isSome ||
      s.environment.globals.contains name || s.environment.builtins.contains name) := by
    rw [reserved?_isSome, World.visible]
    cases Reserved.ofName? name <;> rfl
  rw [same, near]
  unfold World.sources Dict.contains
  cases w.reserved? s name <;> cases (w.layer s.locals).get? name <;>
    cases s.environment.globals.get? name <;> cases s.environment.builtins.get? name <;> simp

/-- The name is looked up in the first of its sources. -/
theorem World.Lineage.getName (lineage : w.Lineage s.owner chain) (descends : w.Descends)
    (name : String) (n : Nat) :
    LiveBinding.getName (perform n) s name w = match w.sources s chain name with
      | [] => some (.error (.nameResolution name), w)
      | x :: _ => x.load (perform n) s name w := by
  unfold World.sources
  cases means : w.reserved? s name with
  | some b => exact getName_of_reserved _ means
  | none =>
    rw [getName_of_plain _ means]
    cases (w.layer s.locals).get? name with
    | some v => rfl
    | none =>
      have near := lineage.nearest? descends name
      rw [← List.head?_filter] at near
      cases found : chain.filter (w.hasAttribute · name) with
      | cons o rest =>
        rw [found] at near
        exact outerName_of_nearest? descends near n
      | nil =>
        rw [found] at near
        show outerName (perform n) s name w = _
        rw [outerName_of_none _ near]
        cases s.environment.globals.get? name <;> cases s.environment.builtins.get? name <;> rfl

end

/-- **Names are looked up in layers.** A scope's owner has a chain of objects, the owner first, and
an object of it has an attribute if it is declared with it, is a change that shows it, or is a view
of a chain in which some object has it. A name stands for what it means as a reserved name, if the
scope has that meaning; for the local of that name; for the attributes of the chain, from the owner
on; for the global and for the builtin. Looking the name up yields the first of these, or fails with
the name if there is none. Of all attributes at most that first one is read, and recorded: what it
gives, a value or the failure to produce one, is what comes out, and it never turns out to be
missing. Whether the name is visible tells whether it stands for anything. The world stays as it is
when that is asked, and also when what is found is no attribute, but for the new view that
`nonlocals` yields. -/
theorem names_resolve_by_layers {w : World} {s : Scope} (descends : w.Descends) :
    ∃ chain, w.Lineage s.owner chain ∧ ∀ name n,
      (∀ o, w.hasAttribute o name = true ↔ w.Bears name o) ∧
      (∀ o w', w.hasAttribute o name = true →
        perform n _ (.readAttr o name) w ≠ some (.ok none, w')) ∧
      (perform (n + 1) _ (.getName s name) w = match w.sources s chain name with
        | [] => some (.error (.nameResolution name), w)
        | x :: _ => x.load (perform n) s name w) ∧
      perform (n + 1) _ (.query (.visible s name)) w =
        some (.ok !(w.sources s chain name).isEmpty, w) := by
  obtain ⟨chain, lineage⟩ := descends.exists_lineage s.owner
  refine ⟨chain, lineage, fun name n => ⟨fun o => descends.hasAttribute_iff, ?_, ?_, ?_⟩⟩
  · intro o w' has answer
    obtain ⟨r', same, -⟩ := descends.readAttr_eq has n answer
    cases r' <;> cases same
  · exact lineage.getName descends name n
  · rw [← lineage.visible descends name]
    rfl

namespace themedPage

/-- A page belongs to a site with a theme. The module knows a theme as well, and there is a local
title. -/
def session : Program Unit := do
  let site ← .request (.newObject
    { typeName := "Site", parent := none, attributes := .ofList [("theme", .str "dark")]
      members := [], constants := .empty, storage := .empty, config := none })
  .request (.keep "site" (.object site))
  let page ← .request (.newObject
    { typeName := "Page", parent := some site, attributes := .empty, members := ["title"]
      constants := .empty, storage := .empty, config := none })
  let l ← .request (.newLayer (.ofList [("title", .str "Home")]))
  .request (.keep "s" (.scope ⟨page, l, ⟨.ofList [("theme", .str "light")], .empty⟩, none, none⟩))

def start : World := (session.run (perform 12) (.initial #[])).elim (.initial #[]) Prod.snd

theorem reachable : Reachable start := (Reachable.start #[]).final 12 session

def scope : Scope := ⟨⟨1⟩, ⟨0⟩, ⟨.ofList [("theme", .str "light")], .empty⟩, none, none⟩

theorem sources_of_names : start.parent? ⟨1⟩ = some ⟨0⟩ ∧ start.parent? ⟨0⟩ = none ∧
    start.sources scope [⟨1⟩, ⟨0⟩] "theme" =
      [.attribute ⟨0⟩, .known (.value (.str "light"))] ∧
    start.sources scope [⟨1⟩, ⟨0⟩] "title" =
      [.known (.value (.str "Home")), .attribute ⟨1⟩] ∧
    start.sources scope [⟨1⟩, ⟨0⟩] "change" = [] := by
  decide +kernel

/-- The theme is that of the site, the title is the local one though the page declares a title, and
nobody knows of a change. -/
theorem finds_nearest :
    perform 12 _ (.getName scope "theme") start =
      (Source.attribute ⟨0⟩).load (perform 11) scope "theme" start ∧
    perform 12 _ (.getName scope "title") start = some (.ok (.str "Home"), start) ∧
    perform 12 _ (.getName scope "change") start =
      some (.error (.nameResolution "change"), start) ∧
    perform 12 _ (.query (.visible scope "change")) start = some (.ok false, start) := by
  obtain ⟨parent, root, theme, title, change⟩ := sources_of_names
  have lineage : start.Lineage scope.owner [⟨1⟩, ⟨0⟩] := .next parent (.last root)
  obtain ⟨chain, there, finds⟩ :=
    names_resolve_by_layers (s := scope) (World.descends_of_reachable reachable)
  cases there.unique lineage
  obtain ⟨-, -, found, -⟩ := finds "theme" 11
  obtain ⟨-, -, found', -⟩ := finds "title" 11
  obtain ⟨-, -, missing, invisible⟩ := finds "change" 11
  rw [theme] at found
  rw [title] at found'
  rw [change] at missing invisible
  exact ⟨found, found', missing, invisible⟩

end themedPage

end LiveBinding
