import LiveBinding.Proofs.Operations

/-! Networks are consistent.

Once every object of a network has been initialized, running the body of any bound attribute
makes a value like the one that is stored, and this stays so whatever is read, emitted or
assigned from outside, in whatever order. -/
namespace LiveBinding

/-- Every bound attribute has a value like the one that its body would make now. -/
def World.Consistent (w : World) : Prop :=
  ∀ x e h, w.handlerOf? x = some (e, h) → ∃ v u w', w.valueOf? x = some v ∧
    Ends (fun self => self _ (.readBinding e x.object x.name)) w (.ok (some u)) w' ∧ w'.Alike v u

namespace Network
variable {N : Network} {w w' : World} {x d : Dependency} {v : Value} {e : EngineRef} {h : Handler}

/-- Between operations, evaluating a bound attribute anew makes a twin of the value that its
stored value is like. -/
theorem consistent_of_atRest (sound : N.Sound) (rest : N.AtRest w) : w.Consistent := by
  intro x e h handler
  rw [rest.inv.grows.handlerOf?] at handler
  have bound : N.start.Bound x := ⟨e, h, handler⟩
  obtain ⟨v, here⟩ := Option.isSome_iff_exists.1 (rest.set bound)
  obtain ⟨u₀, ds₀, alike, current₀⟩ := rest.inv.current bound here id
  let w₁ := {w with held := [Handle.engine e, .object x.object] ++ w.held}
  have enter : w.Slips w.tracers.size w₁ := .progress w w.limit _
  have reads := readBinding_leads sound (evaluable sound _) (rest.inv.slight sound enter.slight)
    handler (rest.spacious.slips enter).roomy
  have answers : Leads w (fun self => self _ (.readBinding e x.object x.name)) fun r w' =>
      ∃ u, r = .ok (some u) ∧ w'.Alike v u := by
    refine Leads.request (Leads.holding (reads.mono ?_))
    rintro r w₂ ⟨u, ds, rfl, renewed⟩
    refine ⟨u, rfl, ?_⟩
    have grows : w.Extends w₂ := enter.slight.grows.trans renewed.advances.fills.grows
    have same (d : Dependency) : w₂.valueOf? d = w.valueOf? d := by
      rw [renewed.advances.fills.valueOf? fun is => ?_, enter.slight.valueOf?]
      rw [enter.slight.valueOf?]
      exact rest.set is
    obtain ⟨c, p₀, found, consult₀, w₃, w₄, since₀, makes, whole₀, ends₀, before₀⟩ :=
      current₀.yields.comes
    obtain ⟨c', p, found', consult, w₅, w₆, since, _, whole, ends, before⟩ :=
      renewed.current.yields.comes
    -- the body comes to the same program now as it did then
    cases found.symm.trans found'
    have again := consult_keep sound found rest.inv.grows grows consult₀ fun d _ => same d
    cases again.symm.trans consult
    have twin := makes.same (.refl w₃) whole₀ ends₀
      ((before₀.trans enter.slight.grows).trans since) whole ends
    have leave := w₂.slight_progress 0 w₂.depth w₂.limit w.held
    exact ((alike.mono grows).twin (twin.mono before)).mono leave.grows
  obtain ⟨r, w', ends, u, rfl, alike⟩ := answers
  exact ⟨v, u, w', here, ends, alike⟩

/-! ### Courses -/

/-- Where a network gets by operations once a program has begun; meanwhile the host holds on to
things, makes containers and carries off the log. -/
inductive Course (N : Network) (p : Program Unit) : World → Prop where
  | begun {w : World} (run : Ends (fun self => p.run self) N.start (.ok ()) w) : Course N p w
  | operated {w w' : World} {op : Operation} {r : Except BindError Unit} (before : Course N p w)
      (allowed : N.Allowed w op) (run : Ends (fun self => op.program.run self) w r w') :
      Course N p w'
  | held {w : World} (before : Course N p w) (hs : List Handle) : Course N p {w with held := hs}
  | list {w : World} (before : Course N p w) {items : List Value}
      (known : ∀ x ∈ items, w.Known x) : Course N p (w.addList items).1
  | map {w : World} (before : Course N p w) {entries : Dict String Value}
      (known : ∀ {k x}, entries.get? k = some x → w.Known x) : Course N p (w.addMap entries).1
  | collected {w : World} (before : Course N p w) :
      Course N p {w with log := #[], desk := {w.desk with events := #[]}}

/-- The program ends well, and so does every operation after it; and whenever one has ended, the
value of each bound attribute is like the one that its body makes then. -/
def ConsistentAfter (N : Network) (p : Program Unit) : Prop :=
  (∃ w, Ends (fun self => p.run self) N.start (.ok ()) w) ∧
    ∀ ⦃w⦄, N.Course p w → w.Consistent ∧
      ∀ op, N.Allowed w op → ∃ r w', Ends (fun self => op.program.run self) w r w'

theorem slight_addList {n : Nat} {items : List Value} (known : ∀ x ∈ items, w.Known x) :
    w.Slight n (w.addList items).1 := by
  have grows : w.Extends (w.addList items).1 :=
    .of_tables rfl rfl rfl rfl (World.getElem?_push_of_eq_some items) id id id id id
  refine .of_grows grows rfl rfl rfl rfl rfl fun whole => ⟨fun {i xs} here x mem => ?_, ?_⟩
  · change (w.lists.push items)[i]? = some xs at here
    rw [Array.getElem?_push] at here
    split at here
    · cases here
      exact (known x mem).mono grows
    · exact (whole.items here x mem).mono grows
  · exact fun here _ _ mem => (whole.entries here mem).mono grows

theorem slight_addMap {n : Nat} {entries : Dict String Value}
    (known : ∀ {k x}, entries.get? k = some x → w.Known x) :
    w.Slight n (w.addMap entries).1 := by
  have grows : w.Extends (w.addMap entries).1 :=
    .of_tables rfl rfl rfl rfl id (World.getElem?_push_of_eq_some entries) id id id id
  refine .of_grows grows rfl rfl rfl rfl rfl fun whole => ⟨?_, fun {i d} here k x mem => ?_⟩
  · exact fun here x mem => (whole.items here x mem).mono grows
  · change (w.maps.push entries)[i]? = some d at here
    rw [Array.getElem?_push] at here
    split at here
    · cases here
      exact (known mem).mono grows
    · exact (whole.entries here mem).mono grows

theorem Course.atRest (sound : N.Sound) {p : Program Unit}
    (begins : Leads N.start (fun self => p.run self) fun r w => r = .ok () ∧ N.AtRest w)
    (course : N.Course p w) : N.AtRest w := by
  induction course with
  | begun run =>
    obtain ⟨r, w', ends, rfl, rest⟩ := begins
    rw [(run.unique ends).2]
    exact rest
  | operated before allowed run ih =>
    obtain ⟨r, w', ends, rest⟩ := ih.operate sound allowed
    rw [(run.unique ends).2]
    exact rest
  | @held w before hs ih =>
    have slight := w.slight_progress 0 w.depth w.limit hs
    exact ih.slight sound slight rfl
  | list before known ih => exact ih.slight sound (n := 0) (slight_addList known) rfl
  | map before known ih => exact ih.slight sound (n := 0) (slight_addMap known) rfl
  | @collected w before ih =>
    have slight : w.Slight 0 {w with log := #[], desk := {w.desk with events := #[]}} :=
      .of_grows (.of_tables rfl rfl rfl rfl id id id id id id) rfl rfl rfl rfl rfl
        fun whole => ⟨whole.items, whole.entries⟩
    exact ih.slight sound slight rfl

/-- A network that is once at rest stays consistent. -/
theorem consistentAfter_of_leads (sound : N.Sound) {p : Program Unit}
    (begins : Leads N.start (fun self => p.run self) fun r w => r = .ok () ∧ N.AtRest w) :
    N.ConsistentAfter p := by
  obtain ⟨r, w, ends, rfl, _⟩ := begins.ends
  refine ⟨⟨w, ends⟩, fun w' course => ?_⟩
  have rest := course.atRest sound begins
  refine ⟨consistent_of_atRest sound rest, fun op allowed => ?_⟩
  obtain ⟨r, w', ends, _⟩ := rest.operate sound allowed
  exact ⟨r, w', ends⟩

/-- A network is at rest once every object has been initialized. -/
theorem Sound.begins (sound : N.Sound) (ample : N.start.sites.length ≤ N.room)
    {os : List ObjectId} (every : ∀ {o d}, N.start.declared? o = some d → o ∈ os) :
    Leads N.start (fun self => (populateEach os).run self) fun r w => r = .ok () ∧ N.AtRest w := by
  have depth := (World.idle_of_reachable sound.reachable).depth
  have spacious : N.Spacious N.start := by
    refine ⟨N.start.sites.length, ?_, fun y bound _ _ => N.rank_lt_length sound.acyclic bound⟩
    rw [depth, Nat.zero_add]
    exact ample
  refine (populateEach_leads sound os (sound.inv fun _ => False) spacious).mono ?_
  rintro r w ⟨rfl, proceeds, set⟩
  refine ⟨rfl, proceeds.inv, proceeds.depth.trans depth, fun x bound => set x bound ?_⟩
  obtain ⟨d, known, _⟩ := sound.declared bound
  exact every known

/-- **A network is consistent** once every object has been initialized, if more bodies may be
nested than there are bound attributes. -/
theorem Sound.consistent (sound : N.Sound) (ample : N.start.sites.length ≤ N.room)
    {os : List ObjectId} (every : ∀ {o d}, N.start.declared? o = some d → o ∈ os) :
    N.ConsistentAfter (populateEach os) :=
  consistentAfter_of_leads sound (sound.begins ample every)

end Network

/-! ### A network of two -/

/-- The code of a function whose body is a reading one. -/
def Reading.code (b : Reading) (s : Scope) : Arguments → Program Value
  | .traced t => b.program s t
  | _ => .done (.ok .null)

/-- Twice the integer that a name stands for. -/
def twice (name : String) : Reading :=
  .ask (.name name) fun r => .give <| .done <|
    match r with
    | .ok (.int i) => .ok (.int (i + i))
    | _ => .error (.evaluation "not an integer")

/-- An object with an attribute `base` that the host keeps, and whatever else it has. -/
def itemWorld (limit : Nat) (members : List String) (functions : Array Function)
    (engine : Option Engine) : World :=
  { Builtin.world with
    objects := #[.declared
      { typeName := "Item", parent := none, members := members, constants := []
        values := .ofList [("base", .int 1)], storage := .empty, registry := ⟨0⟩
        config := some {maxDepth := limit}, engine := engine.map fun _ => ⟨0⟩ }]
    functions := functions
    registries := #[.empty]
    engines := engine.toArray
    desk := Desk.initial.keep "item" (.object ⟨0⟩) }

namespace itemWorld
variable {limit : Nat} {members : List String} {functions : Array Function} {engine : Option Engine}

theorem declared {o : ObjectId} {d : Declared}
    (here : (itemWorld limit members functions engine).declared? o = some d) : o = ⟨0⟩ ∧ d =
      { typeName := "Item", parent := none, members := members, constants := []
        values := .ofList [("base", .int 1)], storage := .empty, registry := ⟨0⟩
        config := some {maxDepth := limit}, engine := engine.map fun _ => ⟨0⟩ } := by
  obtain ⟨_ | n⟩ := o
  · cases here
    exact ⟨rfl, rfl⟩
  · cases here

theorem grounded : (itemWorld limit members functions engine).Grounded where
  kept here := by
    obtain ⟨rfl, _⟩ := declared here
    show Handle.object ⟨0⟩ ∈ [Handle.object ⟨0⟩]
    exact List.mem_singleton.2 rfl
  parents here parent := by
    obtain ⟨_, rfl⟩ := declared here
    cases parent

theorem engineOf {o : ObjectId} {e : EngineRef}
    (here : (itemWorld limit members functions engine).engineOf? o = some e) :
    o = ⟨0⟩ ∧ e = ⟨0⟩ := by
  obtain ⟨d, known, same⟩ := Option.bind_eq_some_iff.1 here
  obtain ⟨rfl, rfl⟩ := declared known
  cases engine with
  | none => cases same
  | some g =>
    cases same
    exact ⟨rfl, rfl⟩

end itemWorld

def doubleFunction : Function := ⟨"double", ⟨.empty, .empty⟩, (twice "base").code⟩

def quadrupleFunction : Function := ⟨"quadruple", ⟨.empty, .empty⟩, (twice "double").code⟩

def doubleEngine (limit : Nat) : Engine :=
  (Engine.start {maxDepth := limit}).addBinding "double" (Operator.subscribe.bind ⟨0⟩ (.given 0))

/-- Two bound attributes, each twice the one before. -/
def doublingNetwork (room : Nat) : Network where
  start := itemWorld (room + 1) ["double", "quadruple"] #[doubleFunction, quadrupleFunction]
    (some ((doubleEngine (room + 1)).addBinding "quadruple"
      (Operator.subscribe.bind ⟨1⟩ (.given 0))))
  body x := if x.name = "double" then twice "base" else twice "double"
  fits _ _ v := ∃ i, v = .int i
  room := room

namespace doublingNetwork
variable {room : Nat}

theorem reachable : Reachable (doublingNetwork room).start := by
  have made : Reachable {itemWorld (room + 1) [] #[] none with desk := .initial} :=
    (Reachable.start Builtin.natives.toArray).ask (n := 1)
      (q := .newObject ⟨"Item", none, .ofList [("base", .int 1)], [], .empty, .empty,
        some {maxDepth := room + 1}⟩) rfl
  have kept : Reachable (itemWorld (room + 1) [] #[] none) :=
    made.ask (n := 1) (q := .keep "item" (.object ⟨0⟩)) rfl
  have written : Reachable (itemWorld (room + 1) [] #[doubleFunction] none) :=
    kept.ask (n := 1) (q := .newFunction "double" ⟨.empty, .empty⟩ (twice "base").code) rfl
  have bound : Reachable
    (itemWorld (room + 1) ["double"] #[doubleFunction] (some (doubleEngine (room + 1)))) :=
    written.ask (n := 1) (q := .bind ⟨0⟩ "double" .subscribe ⟨0⟩ (.given 0)) rfl
  have both : Reachable (itemWorld (room + 1) ["double"] #[doubleFunction, quadrupleFunction]
      (some (doubleEngine (room + 1)))) :=
    bound.ask (n := 1) (q := .newFunction "quadruple" ⟨.empty, .empty⟩ (twice "double").code) rfl
  exact both.ask (n := 1) (q := .bind ⟨0⟩ "quadruple" .subscribe ⟨1⟩ (.given 0)) rfl

theorem declared {o : ObjectId} {d : Declared}
    (here : (doublingNetwork room).start.declared? o = some d) : o = ⟨0⟩ ∧ d =
      { typeName := "Item", parent := none, members := ["double", "quadruple"], constants := []
        values := .ofList [("base", .int 1)], storage := .empty, registry := ⟨0⟩
        config := some {maxDepth := room + 1}, engine := some ⟨0⟩ } := itemWorld.declared here

theorem grounded : (doublingNetwork room).start.Grounded := itemWorld.grounded

theorem engineOf {o : ObjectId} {e : EngineRef}
    (here : (doublingNetwork room).start.engineOf? o = some e) : o = ⟨0⟩ ∧ e = ⟨0⟩ :=
  itemWorld.engineOf here

theorem bindings {name : String} {b : Binding}
    (here : ((doublingNetwork room).start.engine ⟨0⟩).bindings.get? name = some b) :
    name = "double" ∧ b = Operator.subscribe.bind ⟨0⟩ (.given 0) ∨
      name = "quadruple" ∧ b = Operator.subscribe.bind ⟨1⟩ (.given 0) := by
  have entries : ((doublingNetwork room).start.engine ⟨0⟩).bindings.entries =
      [("double", Operator.subscribe.bind ⟨0⟩ (.given 0)),
        ("quadruple", Operator.subscribe.bind ⟨1⟩ (.given 0))] := rfl
  have mem := Dict.get?_eq_some.1 here
  rw [entries] at mem
  simpa using mem

theorem handlerOf {x : Dependency} {e : EngineRef} {h : Handler}
    (here : (doublingNetwork room).start.handlerOf? x = some (e, h)) : e = ⟨0⟩ ∧
      (x = ⟨⟨0⟩, "double"⟩ ∧ h = ⟨.tracedRead, ⟨0⟩, .given 0⟩ ∨
        x = ⟨⟨0⟩, "quadruple"⟩ ∧ h = ⟨.tracedRead, ⟨1⟩, .given 0⟩) := by
  obtain ⟨engine, reader⟩ := World.handlerOf?_eq_some.1 here
  obtain ⟨b, binding, read⟩ := Option.bind_eq_some_iff.1 reader
  obtain ⟨object, rfl⟩ := engineOf engine
  obtain ⟨o, name⟩ := x
  cases object
  refine ⟨rfl, ?_⟩
  rcases bindings binding with ⟨rfl, rfl⟩ | ⟨rfl, rfl⟩
  · cases read
    exact .inl ⟨rfl, rfl⟩
  · cases read
    exact .inr ⟨rfl, rfl⟩

theorem bound_of_name {name : String} (known : name = "double" ∨ name = "quadruple") :
    (doublingNetwork room).start.Bound ⟨⟨0⟩, name⟩ := by
  rcases known with rfl | rfl
  · exact ⟨⟨0⟩, ⟨.tracedRead, ⟨0⟩, .given 0⟩, rfl⟩
  · exact ⟨⟨0⟩, ⟨.tracedRead, ⟨1⟩, .given 0⟩, rfl⟩

theorem free_base : ¬ (doublingNetwork room).start.Bound ⟨⟨0⟩, "base"⟩ := by
  rintro ⟨e, h, handler⟩
  obtain ⟨_, ⟨same, _⟩ | ⟨same, _⟩⟩ := handlerOf handler
  · exact absurd (congrArg Dependency.name same) (by decide)
  · exact absurd (congrArg Dependency.name same) (by decide)

theorem surroundings {x : Dependency} {c : Surroundings}
    (here : (doublingNetwork room).start.surroundings? x = some c) :
    c = ⟨⟨0⟩, .empty, ⟨.empty, .empty⟩⟩ := by
  obtain ⟨⟨e, h⟩, handler, rest⟩ := Option.bind_eq_some_iff.1 here
  obtain ⟨_, ⟨rfl, rfl⟩ | ⟨rfl, rfl⟩⟩ := handlerOf handler
  · cases rest
    rfl
  · cases rest
    rfl

/-- The body of a bound attribute doubles the attribute before. -/
theorem consult {x : Dependency} {w : World} {σ : Dependency → Value}
    {c : Surroundings} (grows : (doublingNetwork room).start.Extends w)
    (fit : (doublingNetwork room).Fit w σ)
    (found : (doublingNetwork room).start.surroundings? x = some c) :
    ∃ i name, ((doublingNetwork room).body x).consult w c σ =
      some (.done (.ok (.int (i + i))), [⟨⟨0⟩, name⟩]) ∧
        (name = "base" ∨ x = ⟨⟨0⟩, "quadruple"⟩ ∧ name = "double") := by
  have twice (name : String) (plain : isReserved name = false)
      (near : (doublingNetwork room).start.nearest? ⟨0⟩ name = some ⟨0⟩)
      (is : (doublingNetwork room).start.Attribute ⟨⟨0⟩, name⟩) : ∃ i, (twice name).consult w c σ =
        some (.done (.ok (.int (i + i))), [⟨⟨0⟩, name⟩]) := by
    obtain ⟨i, value⟩ := fit _ is
    obtain rfl := surroundings found
    have near' : w.nearest? ⟨0⟩ name = some ⟨0⟩ := by
      rw [grows.nearest? grounded name rfl, near]
    have find : (Read.name name).find w ⟨⟨0⟩, .empty, ⟨.empty, .empty⟩⟩ =
        some (.stored ⟨⟨0⟩, name⟩) := by
      rw [Read.find, plain, World.findName, near']
      rfl
    refine ⟨i, ?_⟩
    rw [LiveBinding.twice, Reading.consult, find]
    simp only [Found.answerIn, value]
    rfl
  obtain ⟨⟨e, h⟩, handler, _⟩ := Option.bind_eq_some_iff.1 found
  obtain ⟨_, ⟨rfl, _⟩ | ⟨rfl, _⟩⟩ := handlerOf handler
  · obtain ⟨i, consult⟩ := twice "base" (by decide) rfl ⟨_, rfl, rfl⟩
    exact ⟨i, _, consult, .inl rfl⟩
  · obtain ⟨i, consult⟩ := twice "double" (by decide) rfl
      ⟨_, rfl, rfl⟩
    exact ⟨i, _, consult, .inr ⟨rfl, rfl⟩⟩

theorem up {x y : Dependency} (way : Relation.TransGen (doublingNetwork room).Reads x y) :
    x.name = "quadruple" ∧ y.name = "double" := by
  have step {x y : Dependency} (reads : (doublingNetwork room).Reads x y) :
      x.name = "quadruple" ∧ y.name = "double" := by
    obtain ⟨⟨e, h, handler⟩, w, σ, c, p, ds, grows, _, fit, found, here, mem⟩ := reads
    obtain ⟨i, name, there, cases⟩ := consult grows fit found
    cases here.symm.trans there
    obtain rfl := List.mem_singleton.1 mem
    rcases cases with rfl | ⟨rfl, rfl⟩
    · obtain ⟨_, ⟨same, _⟩ | ⟨same, _⟩⟩ := handlerOf handler
      · exact absurd (congrArg Dependency.name same) (by decide)
      · exact absurd (congrArg Dependency.name same) (by decide)
    · exact ⟨rfl, rfl⟩
  induction way with
  | single reads => exact step reads
  | tail _ reads ih => exact ⟨ih.1, (step reads).2⟩

theorem sound : (doublingNetwork room).Sound where
  reachable := reachable
  grounded := grounded
  whole := ⟨nofun, nofun⟩
  unlinked := rfl
  unset {x} bound := by
    obtain ⟨e, h, handler⟩ := bound
    obtain ⟨_, ⟨rfl, _⟩ | ⟨rfl, _⟩⟩ := handlerOf handler
    · rfl
    · rfl
  subscribes {o e n b} engine binding := by
    obtain ⟨_, rfl⟩ := engineOf engine
    rcases bindings binding with ⟨_, rfl⟩ | ⟨_, rfl⟩
    · exact ⟨_, _, rfl⟩
    · exact ⟨_, _, rfl⟩
  traced engine := by
    obtain ⟨_, rfl⟩ := engineOf engine
    rfl
  limited engine := by
    obtain ⟨_, rfl⟩ := engineOf engine
    exact Nat.lt_succ_self room
  declared {x} bound := by
    obtain ⟨e, h, handler⟩ := bound
    obtain ⟨_, ⟨rfl, _⟩ | ⟨rfl, _⟩⟩ := handlerOf handler
    · exact ⟨_, rfl, rfl⟩
    · exact ⟨_, rfl, rfl⟩
  code {x e h} handler := by
    obtain ⟨_, ⟨rfl, rfl⟩ | ⟨rfl, rfl⟩⟩ := handlerOf handler
    · exact ⟨doubleFunction, rfl, fun _ _ _ => rfl⟩
    · exact ⟨quadrupleFunction, rfl, fun _ _ _ => rfl⟩
  surroundings {x} bound := by
    obtain ⟨e, h, handler⟩ := bound
    obtain ⟨_, ⟨rfl, _⟩ | ⟨rfl, _⟩⟩ := handlerOf handler
    · exact ⟨_, rfl⟩
    · exact ⟨_, rfl⟩
  getattr := rfl
  watchers here := by cases here
  known := by
    rintro w d v ⟨i, rfl⟩
    exact trivial
  fitsMono _ fits := fits
  stored {d v} is here := by
    obtain ⟨o, name⟩ := d
    obtain ⟨x, known, value⟩ := Option.bind_eq_some_iff.1 here
    obtain ⟨_, rfl⟩ := declared known
    have mem : (name, v) ∈ [("base", Value.int 1)] := Dict.get?_eq_some.1 value
    simp only [List.mem_singleton, Prod.mk.injEq] at mem
    exact ⟨1, mem.2⟩
  null {d} is free none := by
    obtain ⟨x, known, has⟩ := is
    obtain ⟨o, name⟩ := d
    obtain ⟨rfl, rfl⟩ := declared known
    rcases Bool.or_eq_true_iff.1 has with value | member
    · have unset : (Dict.ofList [("base", Value.int 1)]).get? name = .none := none
      rw [Dict.contains, unset] at value
      cases value
    · have named : name ∈ ["double", "quadruple"] := List.contains_iff_mem.1 member
      exact absurd (bound_of_name (by simpa using named)) free
  inhabited _ := ⟨.int 0, 0, rfl⟩
  bodies {x w σ c} grows _ fit found := by
    obtain ⟨i, name, consult, _⟩ := consult grows fit found
    refine ⟨_, _, consult, ?_, ?_⟩
    · intro w' grows whole
      exact Leads.done ⟨_, rfl, ⟨id, id, _, _, rfl⟩, whole, _, rfl⟩
    · intro w₁ w₁' w₂ w₂' u₁ u₂ _ _ first _ _ second
      have done (w : World) : Ends (fun self => (Program.done (.ok (Value.int (i + i)))).run self) w
          (.ok (.int (i + i))) w := ⟨0, fun _ _ => rfl⟩
      cases (first.unique (done w₁)).1
      cases (second.unique (done w₂)).1
      exact .same _
  acyclic x way := by
    have ends := up way
    exact absurd (ends.1.symm.trans ends.2) (by decide)

end doublingNetwork

/-- Both attributes of the network are consistent when it has been initialized, and when
another number has been assigned. -/
theorem Network.consistent_doubling : ∃ w r w',
    Ends (fun self => (populateEach [⟨0⟩]).run self) (doublingNetwork 2).start (.ok ()) w ∧
      w.Consistent ∧
      Ends (fun self => (Operation.set ⟨⟨0⟩, "base"⟩ (.int 2)).program.run self) w r w' ∧
      w'.Consistent := by
  let N := doublingNetwork 2
  have every {o : ObjectId} {d : Declared} (here : N.start.declared? o = some d) :
      o ∈ [(⟨0⟩ : ObjectId)] := List.mem_singleton.2 (doublingNetwork.declared here).1
  have consistent := doublingNetwork.sound.consistent (N := N) (by decide +kernel) every
  obtain ⟨w, ends⟩ := consistent.1
  have course : N.Course (populateEach [⟨0⟩]) w := .begun ends
  have allowed : N.Allowed w (.set ⟨⟨0⟩, "base"⟩ (.int 2)) :=
    ⟨⟨_, rfl⟩, doublingNetwork.free_base, 2, rfl⟩
  obtain ⟨r, w', operates⟩ := (consistent.2 course).2 _ allowed
  exact ⟨w, r, w', ends, (consistent.2 course).1, operates,
    (consistent.2 (course.operated allowed operates)).1⟩

end LiveBinding
