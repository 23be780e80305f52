import LiveBinding.Proofs.Assignment
import LiveBinding.Proofs.Deliveries
import LiveBinding.Proofs.Persistence

/-! How operations have run.

A statement about every run of an operation starts from a run that has ended. Each lemma here
takes one operation that has ended and says what it did on the way, in order. -/
namespace LiveBinding
variable {self : Performer} {w w' : World}

theorem World.equal_hold (w : World) (hs : List Handle) (a b : Value) :
    (w.hold hs).equal a b = w.equal a b := equal_congr (by rfl) (by rfl) a b

theorem World.equal_unguard (w₀ w : World) (e : EngineRef) (name : String) (a b : Value) :
    (w₀.unguard w e name).equal a b = w.equal a b := by
  unfold unguard
  split
  · rfl
  · exact equal_congr (by rfl) (by rfl) a b

theorem exists_of_guarding {α : Type} {e : EngineRef} {name : String} {a : Action α}
    {r : Except BindError α} (run : Action.guarding e name a w = some (r, w')) :
    ∃ w₁, a (w.guard e name) = some (r, w₁) ∧ w' = w.unguard w₁ e name :=
  Action.exists_of_within run

/-! ### What is in progress -/

/-- The worlds differ in what is in progress only. -/
def World.Around (w w' : World) : Prop :=
  ∃ held depth limit, w' = {w with held := held, depth := depth, limit := limit}

theorem World.Around.trans {w₁ w₂ w₃ : World} (first : w₁.Around w₂) (next : w₂.Around w₃) :
    w₁.Around w₃ := by
  obtain ⟨_, _, _, rfl⟩ := first
  obtain ⟨held, depth, limit, rfl⟩ := next
  exact ⟨held, depth, limit, rfl⟩

theorem World.Around.valueOf? (around : w.Around w') (d : Dependency) :
    w'.valueOf? d = w.valueOf? d := by
  obtain ⟨_, _, _, rfl⟩ := around
  rfl

theorem World.Around.equal (around : w.Around w') (a b : Value) : w'.equal a b = w.equal a b := by
  obtain ⟨_, _, _, rfl⟩ := around
  exact equal_congr (by rfl) (by rfl) a b

theorem World.Around.log (around : w.Around w') : w'.log = w.log := by
  obtain ⟨_, _, _, rfl⟩ := around
  rfl

theorem World.Around.engine (around : w.Around w') (e : EngineRef) : w'.engine e = w.engine e := by
  obtain ⟨_, _, _, rfl⟩ := around
  rfl

theorem World.Around.persists (around : w.Around w') : w.Persists w' := by
  obtain ⟨_, _, _, rfl⟩ := around
  exact .still rfl rfl rfl id id

theorem World.around_hold (w : World) (hs : List Handle) : w.Around (w.hold hs) := ⟨_, _, _, rfl⟩

/-! ### Changes -/

theorem World.Persists.store (w : World) (a : Dependency) (v : Value) : w.Persists (w.store a v) :=
  .modifyDeclared a.object _ (fun _ => rfl) fun _ => rfl

/-- The world in which the observers of a change are told of it. -/
def World.announce (w : World) (c : Change) : World :=
  (w.addObject (.change c)).1.hold [.object c.owner, .object ⟨w.objects.size⟩]

theorem World.change?_announce (w : World) (c : Change) :
    (w.announce c).change? ⟨w.objects.size⟩ = some c := by
  have last : (w.addObject (.change c)).1.entity? ⟨w.objects.size⟩ = some (.change c) := by
    rw [entity?_addObject, if_pos rfl]
  show (w.addObject (.change c)).1.change? ⟨w.objects.size⟩ = some c
  rw [change?, last]

theorem World.persists_announce (w : World) (c : Change) : w.Persists (w.announce c) :=
  (Persists.addObject _).trans (Around.persists ⟨_, _, _, rfl⟩)

theorem World.valueOf?_announce (w : World) (c : Change) (d : Dependency) :
    (w.announce c).valueOf? d = w.valueOf? d := (w.slight_addChange (n := 0) c).valueOf? d

/-- A change is made known to the observers, then to the engine the object has by then. -/
theorem exists_of_dispatch {o : ObjectId} {kind : ChangeKind} {name : String} {old new : Value}
    {reg : RegistryRef} {r : Except BindError Unit} (observable : w.registryOf? o = some reg)
    (run : dispatch self o kind name old new w = some (r, w')) :
    ∃ k told, notify self reg ⟨w.objects.size⟩ (w.announce ⟨kind, o, name, old, new⟩) =
        some (.ok k, told) ∧
      match told.engineOf? o with
      | none => r = .ok () ∧ told.Around w'
      | some e => ∃ w₁, Engine.write self e o name ⟨w.objects.size⟩ (told.hold [.engine e]) =
          some (r, w₁) ∧ w₁.Around w' := by
  unfold dispatch at run
  rw [Action.add_bind] at run
  obtain ⟨last, inner, rfl⟩ := Action.exists_of_holding run
  have same : (w.announce ⟨kind, o, name, old, new⟩).registryOf? o = some reg :=
    (w.persists_announce _).registryOf? observable
  have known := w.change?_announce ⟨kind, o, name, old, new⟩
  change (Action.read (·.registryOf? o) >>= _) (w.announce ⟨kind, o, name, old, new⟩) = _ at inner
  rw [Action.read_bind, same] at inner
  rcases Action.exists_of_bind inner with ⟨e, failed, _⟩ | ⟨k, told, ended, rest⟩
  · cases (exists_of_notify known failed).1
  · refine ⟨k, told, ended, ?_⟩
    dsimp only at rest
    rw [Action.read_bind] at rest
    cases engine : told.engineOf? o with
    | none =>
      rw [engine] at rest
      cases rest
      exact ⟨rfl, _, _, _, rfl⟩
    | some e =>
      rw [engine] at rest
      obtain ⟨w₁, wrote, rfl⟩ := Action.exists_of_holding rest
      exact ⟨w₁, wrote, _, _, _, rfl⟩

/-- An assignment is refused, or leaves an equal value, or stores the new value and makes the
change known. -/
theorem exists_of_assign {o : ObjectId} {d : Declared} {name : String} {v : Value}
    {r : Except BindError Unit} (known : w.declared? o = some d)
    (run : assign self o name v w = some (r, w')) :
    (∃ e, r = .error e ∧ w' = w) ∨
      (∃ old, w.stored? o name = some old ∧ w.equal old v = true ∧ r = .ok () ∧ w' = w) ∨
      ((∀ old, w.stored? o name = some old → w.equal old v = false) ∧ ∃ kind old w₁ w₂,
        (w.store ⟨o, name⟩ v).Around w₁ ∧
          dispatch self o kind name old v w₁ = some (r, w₂) ∧ w₂.Around w') := by
  have entity := (w.declared?_eq_some).1 known
  have stored : w.stored? o name = d.values.get? name := by
    rw [World.stored?, known]
    rfl
  unfold assign at run
  rw [Action.read_bind, entity] at run
  obtain ⟨last, inner, rfl⟩ := Action.exists_of_holding run
  unfold assignDeclared at inner
  split at inner
  · cases inner
    exact .inl ⟨_, rfl, rfl⟩
  split at inner
  · cases inner
    exact .inl ⟨_, rfl, rfl⟩
  cases here : d.values.get? name with
  | some old =>
    rw [here] at inner
    dsimp only at inner
    rw [Action.read_bind] at inner
    have equal : World.equal {w with held := [.object o] ++ w.held} old v = w.equal old v :=
      w.equal_hold [.object o] old v
    rw [equal] at inner
    cases same : w.equal old v with
    | true =>
      rw [same] at inner
      cases inner
      exact .inr (.inl ⟨old, stored.trans here, same, rfl, rfl⟩)
    | false =>
      rw [same] at inner
      refine .inr (.inr ⟨fun old' here' => ?_, .update, old, _, last, ⟨_, _, _, rfl⟩, inner, _, _,
        _, rfl⟩)
      rw [stored, here] at here'
      cases here'
      exact same
  | none =>
    rw [here] at inner
    refine .inr (.inr ⟨fun old here' => ?_, .create, .null, _, last, ⟨_, _, _, rfl⟩, inner, _, _,
      _, rfl⟩)
    rw [stored, here] at here'
    cases here'

/-! ### Reading and writing back -/

/-- What could be read is bound. -/
theorem contains_of_read {e : EngineRef} {o : ObjectId} {name : String} {v : Value}
    (run : Engine.read self e o name w = some (.ok (some v), w')) :
    (w.engine e).bindings.contains name = true := by
  unfold Engine.read at run
  rw [Action.read_bind] at run
  cases found : (w.engine e).bindings.get? name with
  | none =>
    rw [found] at run
    cases run
  | some b =>
    rw [Dict.contains, found]
    rfl

/-- Nothing is written back while a name is guarded. -/
theorem exists_of_guarded {e : EngineRef} {o : ObjectId} {name : String} {change : ObjectId}
    {r : Except BindError Unit} (guarded : name ∈ (w.engine e).guards)
    (run : Engine.write self e o name change w = some (r, w')) :
    r = .ok () ∧ w' = w.addEntry (.writeSuppressed o name) := by
  unfold Engine.write at run
  rw [Action.read_bind, if_pos (List.contains_iff_mem.2 guarded)] at run
  cases run
  exact ⟨rfl, rfl⟩

/-- Nothing is written back while a name is guarded, or if it is not bound. -/
theorem exists_of_unwritten {e : EngineRef} {o : ObjectId} {name : String} {change : ObjectId}
    {r : Except BindError Unit}
    (unwritten : name ∈ (w.engine e).guards ∨ (w.engine e).bindings.contains name = false)
    (run : Engine.write self e o name change w = some (r, w')) :
    r = .ok () ∧ (w' = w ∨ w' = w.addEntry (.writeSuppressed o name)) := by
  by_cases guarded : name ∈ (w.engine e).guards
  · exact (exists_of_guarded guarded run).imp_right .inr
  · have none : (w.engine e).bindings.get? name = none := by
      simpa [Dict.contains] using unwritten.resolve_left guarded
    unfold Engine.write at run
    rw [Action.read_bind, if_neg (by simpa using guarded), none] at run
    cases run
    exact ⟨rfl, .inl rfl⟩

/-- A write that has run a handler. -/
theorem exists_of_write {e : EngineRef} {o : ObjectId} {name : String} {change : ObjectId}
    {b : Binding} {h : Handler} {r : Except BindError Unit}
    (free : name ∉ (w.engine e).guards) (bound : (w.engine e).bindings.get? name = some b)
    (writes : b.write = some h) (run : Engine.write self e o name change w = some (r, w')) :
    ∃ r₁ w₁ w₂, h.write self o name change {w with limit := some (w.engine e).config.maxDepth} =
        some (r₁, w₁) ∧
      Engine.settle (w.engine e).config.policy () o name r₁ w₁ = some (r, w₂) ∧ w₂.Around w' := by
  unfold Engine.write at run
  rw [Action.read_bind, if_neg (by simpa using free), bound] at run
  dsimp only [Option.bind_some] at run
  rw [writes] at run
  obtain ⟨last, inner, rfl⟩ := Action.exists_of_within run
  rcases Action.exists_of_bind inner with ⟨_, failed, _⟩ | ⟨r₁, w₁, attempted, rest⟩
  · obtain ⟨_, _, same⟩ := Action.exists_of_attempt failed
    cases same
  · obtain ⟨r₂, ended, same⟩ := Action.exists_of_attempt attempted
    cases same
    exact ⟨r₁, w₁, last, ended, rest, _, _, _, rfl⟩

/-- An engine runs a handler: it is held and its limit is in force. -/
def World.engaged (w : World) (e : EngineRef) : World :=
  {w.hold [.engine e] with limit := some (w.engine e).config.maxDepth}

theorem World.around_engaged (w : World) (e : EngineRef) : w.Around (w.engaged e) := ⟨_, _, _, rfl⟩

/-- The write handler that an attribute has by now is run on a change, once, and its failure is
dealt with. If it has none, nothing is done. -/
def WritesBack (self : Performer) (e : EngineRef) (o : ObjectId) (name : String)
    (change : ObjectId) (w : World) (r : Except BindError Unit) (w' : World) : Prop :=
  match ((w.engine e).bindings.get? name).bind Binding.write with
  | none => r = .ok () ∧ w.Around w'
  | some h => ∃ r₁ w₁ w₂,
    h.write self o name change (w.engaged e) = some (r₁, w₁) ∧
      Engine.settle (w.engine e).config.policy () o name r₁ w₁ = some (r, w₂) ∧ w₂.Around w'

/-- What is not guarded is written back. -/
theorem writesBack_of_free {e : EngineRef} {o : ObjectId} {name : String} {change : ObjectId}
    {r : Except BindError Unit} {w₁ : World} (free : name ∉ (w.engine e).guards)
    (run : Engine.write self e o name change (w.hold [.engine e]) = some (r, w₁))
    (leave : w₁.Around w') : WritesBack self e o name change w r w' := by
  have same : (w.hold [.engine e]).engine e = w.engine e := rfl
  unfold WritesBack
  cases found : ((w.engine e).bindings.get? name).bind Binding.write with
  | none =>
    unfold Engine.write at run
    rw [Action.read_bind, same, if_neg (by simpa using free), found] at run
    cases run
    exact ⟨rfl, (w.around_hold _).trans leave⟩
  | some h =>
    obtain ⟨b, bound, writes⟩ := Option.bind_eq_some_iff.1 found
    obtain ⟨r₁, w₂, w₃, ended, settled, done⟩ :=
      exists_of_write (w := w.hold [.engine e]) free bound writes run
    exact ⟨r₁, w₂, w₃, ended, settled, done.trans leave⟩

/-! ### Inverted writes -/

/-- A call that has succeeded ran the code of the function. -/
theorem exists_of_callFunction {f : FunctionRef} {args : Arguments} {s : Scope} {v : Value}
    (run : callFunction self f args s w = some (.ok v, w')) :
    ∃ w₁, (w.code f s args).run self (w.entering f args s) = some (.ok v, w₁) ∧ w₁.Around w' := by
  by_cases room : w.depth + 1 ≤ w.limitInForce
  · rw [callFunction_entering room] at run
    split at run
    · cases run
    · next w₁ ended =>
      cases run
      exact ⟨w₁, ended, _, _, _, rfl⟩
  · rw [callFunction_eq, if_neg room] at run
    cases run

theorem World.persists_entering (w : World) (f : FunctionRef) (args : Arguments) (s : Scope) :
    w.Persists (w.entering f args s) := .still rfl rfl rfl id id

theorem Handler.persists_ready (h : Handler) (o : ObjectId) (w : World) :
    w.Persists (h.ready o w) := World.frame_persists.scope h o _ _ _ (h.scope_eq o w)

theorem Handler.code_ready (h : Handler) (o : ObjectId) (w : World) :
    (h.ready o w).code = w.code := by
  unfold ready
  split <;> rfl

/-- The world in which the code of an inverted write starts. -/
def Handler.inverting (h : Handler) (o change : ObjectId) (v : Value) (w : World) : World :=
  (h.ready o (w.hold [.object o, .object change])).entering h.function
    (.inverted (h.scopeFor o w) v) (h.scopeFor o w)

theorem Handler.persists_inverting (h : Handler) (o change : ObjectId) (v : Value) (w : World) :
    w.Persists (h.inverting o change v w) :=
  ((w.around_hold _).persists.trans (h.persists_ready o _)).trans (World.persists_entering ..)

/-- An inverted write that has succeeded ran the code of its function with the new value. -/
theorem exists_of_invertedWrite {h : Handler} {o : ObjectId} {name : String} {change : ObjectId}
    {c : Change} (inverted : h.kind = .invertedWrite) (known : w.change? change = some c)
    (run : h.write self o name change w = some (.ok (), w')) :
    ∃ u w₁, (w.code h.function (h.scopeFor o w) (.inverted (h.scopeFor o w) c.new)).run self
      (h.inverting o change c.new w) = some (.ok u, w₁) ∧ w₁.Around w' := by
  rcases Action.exists_of_bind run with ⟨e, _, same⟩ | ⟨_, last, invoked, rest⟩
  · cases same
  cases rest
  obtain ⟨w₁, inner, rfl⟩ := Action.exists_of_holding invoked
  rw [inverted] at inner
  rcases Action.exists_of_bind inner with ⟨e, _, same⟩ | ⟨s, w₂, given, inner⟩
  · cases same
  cases (h.scope_eq o _).symm.trans given
  have there := (h.persists_ready o (w.hold [.object o, .object change])).change? known
  change (Action.read _ >>= _) (h.ready o (w.hold [.object o, .object change])) = _ at inner
  rw [Action.read_bind, there] at inner
  rcases Action.exists_of_bind inner with ⟨e, _, same⟩ | ⟨u, w₂, called, rest⟩
  · cases same
  cases rest
  obtain ⟨w₃, ended, around⟩ := exists_of_callFunction called
  rw [h.code_ready] at ended
  exact ⟨u, w₃, ended, around.trans ⟨_, _, _, rfl⟩⟩

/-- The scope of a standard write. -/
def Handler.scopeOn (h : Handler) (o change : ObjectId) (w : World) : Scope :=
  {h.scopeFor o w with change := some change}

/-- The world in which the code of a standard write starts. -/
def Handler.writing (h : Handler) (o change : ObjectId) (w : World) : World :=
  (h.ready o (w.hold [.object o, .object change])).entering h.function .none (h.scopeOn o change w)

/-- A standard write has run the code of its function on the change, if the limit in force allows
one more body. -/
theorem exists_of_standardWrite {h : Handler} {o : ObjectId} {name : String} {change : ObjectId}
    {r : Except BindError Unit} (standard : h.kind = .standardWrite)
    (room : w.depth + 1 ≤ w.limitInForce) (run : h.write self o name change w = some (r, w')) :
    ∃ r₁ w₁, (w.code h.function (h.scopeOn o change w) .none).run self (h.writing o change w) =
      some (r₁, w₁) ∧ w₁.Around w' := by
  obtain ⟨_, invoked⟩ := Action.exists_of_ignored run
  obtain ⟨w₁, inner, rfl⟩ := Action.exists_of_holding invoked
  rw [standard] at inner
  rcases Action.exists_of_bind inner with ⟨e, given, _⟩ | ⟨s, w₂, given, inner⟩
  · cases (h.scope_eq o _).symm.trans given
  cases (h.scope_eq o _).symm.trans given
  obtain ⟨_, called⟩ := Action.exists_of_ignored inner
  have room : (h.ready o (w.hold [.object o, .object change])).depth + 1 ≤
      (h.ready o (w.hold [.object o, .object change])).limitInForce := by
    unfold Handler.ready
    split <;> exact room
  change callFunction self h.function .none (h.scopeOn o change w)
    (h.ready o (w.hold [.object o, .object change])) = _ at called
  rw [callFunction_entering room, h.code_ready] at called
  split at called
  · cases called
  · next r₁ w₂ ended =>
    cases called
    exact ⟨_, w₂, ended, _, _, _, rfl⟩

/-- An inversion that has succeeded through an attribute assigned to the object that its base
came to. -/
theorem exists_of_invert {s : Scope} {base : Path} {name : String} {v : Value}
    (run : invert self s (.attr base name) v w = some (.ok (), w')) :
    ∃ target w₁ w₂, resolve self s base (w.hold ([] ++ v.handles)) = some (.ok target, w₁) ∧
      setAttr self target name v w₁ = some (.ok (), w₂) ∧ w₂.Around w' := by
  unfold invert at run
  rcases Action.exists_of_bind run with ⟨e, _, same⟩ | ⟨r, w₁, attempted, rest⟩
  · cases same
  obtain ⟨r', held, same⟩ := Action.exists_of_attempt attempted
  cases same
  obtain ⟨w₂, assigned, rfl⟩ := Action.exists_of_holding held
  cases r with
  | error e => cases rest
  | ok u =>
    cases rest
    rcases Action.exists_of_bind assigned with ⟨e, _, same⟩ | ⟨target, w₃, resolved, last⟩
    · cases same
    · exact ⟨target, w₃, w₂, resolved, Action.of_mapError last, _, _, _, rfl⟩

end LiveBinding
