import LiveBinding.Proofs.Records

/-! Who assigns last.

Observers hear of a change before it is written back, and a body is evaluated before its result is
assigned. Both may assign the same attribute again meanwhile, and those assignments are complete
before the outer one goes on with the value it has had from the beginning. So what the
outermost assignment or update brought along is there at the end. -/
namespace LiveBinding
variable {w w' : World} {n : Nat}

theorem Registry.appearances_eq_zero {r : Registry} {name : String}
    (none : r.observers name = [])
    (never : (r.forgotten.all fun p => decide (p.1 ≠ name)) = true) (x : Observer) :
    r.appearances name x = 0 := by
  rw [appearances, none, List.count_nil, Nat.zero_add, List.count_eq_zero]
  intro mem
  have other := List.all_eq_true.1 never _ mem
  exact of_decide_eq_true other rfl

namespace World

/-- Telling the observers of an attribute leaves its value alone, in whatever world between
two. -/
def LeftAlone (w w' : World) (a : Dependency) : Prop :=
  ∀ m r i c k v v', w.Lasts v → v'.Lasts w' → v.registryOf? a.object = some r →
    v.change? i = some c → c.owner = a.object → c.name = a.name →
    notify (perform m) r i v = some (k, v') → v'.valueOf? a = v.valueOf? a

theorem LeftAlone.mono {v v' : World} {a : Dependency} (alone : w.LeftAlone w' a)
    (before : w.Lasts v) (after : v'.Lasts w') : v.LeftAlone v' a :=
  fun m r i c k u u' first last => alone m r i c k u u' (before.trans first) (last.trans after)

/-- An attribute that nobody has ever observed is left alone. -/
theorem leftAlone_of_unobserved {a : Dependency} {r : RegistryRef}
    (here : w.registryOf? a.object = some r)
    (none : ∀ x, (w'.registry r).appearances a.name x = 0) : w.LeftAlone w' a := by
  intro m s i c k v v' before after found known _ name run
  cases (before.registryOf? here).symm.trans found
  have later : v.Lasts w' := (World.Persists.of_notify run).toLasts.trans after
  have empty : (v.registry r).observers c.name = [] := by
    rw [List.eq_nil_iff_forall_not_mem, name]
    intro x listed
    have count := later.appearances r a.name x
    rw [none] at count
    have some : 0 < (v.registry r).appearances a.name x :=
      Nat.add_pos_left (List.count_pos_iff.2 listed) _
    omega
  obtain ⟨_, last, telling, rfl⟩ := exists_of_notify known run
  rw [empty] at telling
  cases telling
  simp only [valueOf?, stored?, declared?, entity?, objects_notifying]

theorem LeftAlone.told {a : Dependency} (alone : w.LeftAlone w' a) {c : Change} {r : RegistryRef}
    {v told : World} {m k : Nat} (before : w.Lasts v) (after : told.Lasts w')
    (observable : v.registryOf? a.object = some r) (owner : c.owner = a.object)
    (name : c.name = a.name)
    (run : notify (perform m) r ⟨v.objects.size⟩ (v.announce c) = some (.ok k, told)) :
    told.valueOf? a = v.valueOf? a := by
  have announced := v.persists_announce c
  rw [← v.valueOf?_announce c]
  exact alone m r _ c _ _ _ (before.trans announced.toLasts) after
    (announced.registryOf? observable) (v.change?_announce c) owner name run

theorem valueOf?_store_self {a : Dependency} {x : Declared} (known : w.declared? a.object = some x)
    (v : Value) : (w.store a v).valueOf? a = some v := by
  rw [valueOf?, stored?, store, declared?_modifyDeclared, if_pos rfl, known]
  exact Dict.get?_insert_self ..

end World

/-! ### Assignments -/

/-- An assignment that has succeeded is there at the end, if the observers of the attribute leave
it alone and nothing is written back. -/
theorem assigned_of_leftAlone {a : Dependency} {x : Declared} {v : Value}
    (known : w.declared? a.object = some x)
    (run : assign (perform n) a.object a.name v w = some (.ok (), w'))
    (unwritten : ∀ e, w'.engineOf? a.object = some e →
      a.name ∈ (w.engine e).guards ∨ (w'.engine e).bindings.contains a.name = false)
    (alone : w.LeftAlone w' a) : ∃ u, w'.valueOf? a = some u ∧ (u = v ∨ w'.equal u v = true) := by
  rcases exists_of_assign known run with
    ⟨_, failed, _⟩ | ⟨old, here, equal, _, rfl⟩ | ⟨_, kind, old, w₀, w₁, enter, sent, leave⟩
  · cases failed
  · exact ⟨old, here, .inr equal⟩
  · have stored : w.Persists w₀ := (World.Persists.store w a v).trans enter.persists
    have observable : w₀.registryOf? a.object = some x.registry :=
      stored.registryOf? (by rw [World.registryOf?, known]; rfl)
    have value : w₀.valueOf? a = some v :=
      (enter.valueOf? a).trans (World.valueOf?_store_self known v)
    obtain ⟨k, told, ended, rest⟩ := exists_of_dispatch observable sent
    have telling : w₀.Persists told := (w₀.persists_announce _).trans (.of_notify ended)
    suffices held : told.Persists w₁ ∧ w₁.valueOf? a = told.valueOf? a by
      refine ⟨v, ?_, .inl rfl⟩
      rw [leave.valueOf?, held.2, ← value]
      have after : told.Lasts w' := (held.1.trans leave.persists).toLasts
      exact alone.told stored.toLasts after observable rfl rfl ended
    cases engine : told.engineOf? a.object with
    | none =>
      rw [engine] at rest
      exact ⟨rest.2.persists, rest.2.valueOf? a⟩
    | some e =>
      rw [engine] at rest
      obtain ⟨w₂, wrote, done⟩ := rest
      have begin := told.around_hold [.engine e]
      have writing : told.Persists w₁ := (begin.persists.trans
        (((World.performing n).writeBinding _ _ _ _).keeps _ _ _ wrote)).trans done.persists
      have silent : a.name ∈ ((told.hold [.engine e]).engine e).guards ∨
          ((told.hold [.engine e]).engine e).bindings.contains a.name = false := by
        rw [begin.engine]
        rcases unwritten e ((writing.trans leave.persists).engineOf? engine) with guarded | unbound
        · left
          rwa [(stored.trans telling).guards]
        · right
          by_contra bound
          have there := (writing.trans leave.persists).bound e a.name
            (Bool.eq_true_of_not_eq_false bound)
          rw [unbound] at there
          cases there
      refine ⟨writing, ?_⟩
      rw [done.valueOf?, ← begin.valueOf?]
      obtain ⟨_, rfl | rfl⟩ := exists_of_unwritten silent wrote
      · rfl
      · rfl

/-! ### Inverted writes -/

/-- A program that assigns a value through a target in the end, if it does not fail. -/
inductive Inverts (s : Scope) (target : Target) (v : Value) : Program Value → Prop where
  | fail (e : BindError) : Inverts s target v (.done (.error e))
  | last {k : Except BindError Unit → Program Value} (u : Value)
      (ends : ∀ r, k r = .done (r.map fun _ => u)) :
      Inverts s target v (.ask (.invert s target v) k)
  | ask {β : Type} {q : Request β} {k : Except BindError β → Program Value}
      (rest : ∀ r, Inverts s target v (k r)) : Inverts s target v (.ask q k)

/-- When the program runs in one world, the last thing that it asks is the request, in the other. -/
inductive Program.AsksLast (self : Performer) {α β : Type} (q : Request β) (v : World) :
    Program α → World → Prop where
  | last {k : Except BindError β → Program α} (ends : ∀ r, ∃ r', k r = .done r') :
      AsksLast self q v (.ask q k) v
  | ask {γ : Type} {p : Request γ} {k : Except BindError γ → Program α} {r : Except BindError γ}
      {w w₁ : World} (answer : self γ p w = some (r, w₁)) (rest : AsksLast self q v (k r) w₁) :
      AsksLast self q v (.ask p k) w

theorem Program.AsksLast.persists {α β : Type} {q : Request β} {v : World} {p : Program α}
    (asks : p.AsksLast (perform n) q v w) : w.Persists v := by
  induction asks with
  | last => exact World.Persists.steady.refl _
  | ask answer _ ih => exact (World.frame_persists.perform n _ _ _ _ answer).trans ih

theorem Inverts.run {s : Scope} {target : Target} {v u : Value} {p : Program Value}
    (inverts : Inverts s target v p) (run : p.run (perform n) w = some (.ok u, w')) :
    ∃ w₁, p.AsksLast (perform n) (.invert s target v) w₁ w ∧
      perform n Unit (.invert s target v) w₁ = some (.ok (), w') := by
  induction inverts generalizing w with
  | fail e => cases run
  | last u' ends =>
    refine ⟨w, .last fun r => ⟨_, ends r⟩, ?_⟩
    simp only [Program.run] at run
    split at run
    · cases run
    · next r w₁ answer =>
      rw [ends] at run
      cases r with
      | error e => cases run
      | ok _ =>
        cases run
        exact answer
  | ask rest ih =>
    simp only [Program.run] at run
    split at run
    · cases run
    · next r w₁ answer =>
      obtain ⟨w₂, last, ended⟩ := ih r run
      exact ⟨w₂, .ask answer last, ended⟩

/-- From one world to another, an inverted write runs its code with the value in its scope. The last
thing that the code asks is to assign the value, and it is assigned to the attribute of the
target that the base comes to by then. -/
inductive InvertsLast (n : Nat) (h : Handler) (o change : ObjectId) (v : Value) (base : Path)
    (x : String) (w : World) (target : Value) (w' : World) : Prop where
  | assigns {w₁ w₂ w₃ : World}
      (last : (w.code h.function (h.scopeFor o w) (.inverted (h.scopeFor o w) v)).AsksLast
        (perform (n + 1)) (.invert (h.scopeFor o w) (.attr base x) v) w₁ (h.inverting o change v w))
      (resolved : resolve (perform n) (h.scopeFor o w) base (w₁.hold v.handles) =
        some (.ok target, w₂))
      (assigned : setAttr (perform n) target x v w₂ = some (.ok (), w₃)) (leave : w₃.Around w')

/-- An inverted write that has succeeded assigned the new value of its change last of all. -/
theorem invertsLast_of_write {e : EngineRef} {o : ObjectId} {name : String} {change : ObjectId}
    {c : Change} {f : FunctionRef} {key : ScopeKey} {g : Function} {base : Path} {x : String}
    (bound : (w.engine e).bindings.get? name = some (Operator.update.bind f key))
    (code : w.functions[f.index]? = some g)
    (inverts : ∀ s v, Inverts s (.attr base x) v (g.code s (.inverted s v)))
    (known : w.change? change = some c)
    (write : WritesBack (perform n) e o name change w (.ok ()) w')
    (unfailed : ∀ failure, w'.log.back? ≠ some (.evaluationFailed o name failure)) :
    ∃ m target, n = m + 1 ∧ InvertsLast m ⟨.invertedWrite, f, key⟩ o change c.new base x
      (w.engaged e) target w' := by
  have begin := w.around_engaged e
  rw [WritesBack, bound] at write
  obtain ⟨r, w₁, last, wrote, settled, leave⟩ := write
  have ended : r = .ok () ∧ w₁.Around w' := by
    cases r with
    | ok u =>
      cases settled
      exact ⟨rfl, leave⟩
    | error failure =>
      cases policy : (w.engine e).config.policy with
      | propagate =>
        rw [policy] at settled
        cases settled
      | logAndContinue =>
        rw [policy] at settled
        cases settled
        refine absurd ?_ (unfailed failure)
        rw [leave.log]
        exact Array.back?_push ..
  obtain ⟨rfl, leaves⟩ := ended
  generalize w.engaged e = v at begin wrote ⊢
  obtain ⟨u, w₂, body, around⟩ :=
    exists_of_invertedWrite rfl (begin.persists.change? known) wrote
  have asked := body
  rw [World.code, begin.persists.functions code] at asked
  obtain ⟨w₃, lastly, asked⟩ := (inverts _ c.new).run asked
  cases n with
  | zero => cases asked
  | succ m =>
    obtain ⟨target, w₄, w₅, resolved, assigned, close⟩ := exists_of_invert asked
    refine ⟨m, target, rfl, .assigns ?_ resolved assigned ((close.trans around).trans leaves)⟩
    rw [World.code, begin.persists.functions code]
    exact lastly

/-- What can be observed later and was assigned to is a declared object. -/
theorem declared_of_assigned {self : Performer} {v v' : World} {t : ObjectId} {x : String}
    {u : Value} (settled : v.Lasts w') (observable : w'.registryOf? t ≠ none)
    (run : assign self t x u v = some (.ok (), v')) : ∃ y, v.declared? t = some y := by
  unfold assign at run
  rw [Action.read_bind] at run
  cases entity : v.entity? t with
  | none =>
    rw [entity] at run
    cases run
  | some y =>
    cases y with
    | declared d => exact ⟨d, v.declared?_eq_some.2 entity⟩
    | change c =>
      rw [entity] at run
      dsimp only at run
      split at run <;> cases run
    | view owner tracer =>
      have there := settled.entity entity rfl
      refine absurd ?_ observable
      rw [World.registryOf?, World.declared?, there]
      rfl

/-- **The assignment that came first is written back last.** When an assignment that changes an
attribute has succeeded, its change was made known to the observers first, and whatever they have
assigned to the attribute meanwhile, the last thing that happened was that its own value was
assigned through the target of the attribute's body. So that value is there, if observers of what
it was assigned to leave it alone. -/
theorem set_inverts_last {o : ObjectId} {d : Declared} {e : EngineRef} {name : String}
    {f : FunctionRef} {key : ScopeKey} {g : Function} {base : Path} {x : String} {v : Value}
    (reached : Reachable w) (known : w.declared? o = some d) (engine : d.engine = some e)
    (bound : (w.engine e).bindings.get? name = some (Operator.update.bind f key))
    (code : w.functions[f.index]? = some g)
    (inverts : ∀ s u, Inverts s (.attr base x) u (g.code s (.inverted s u)))
    (changes : ∀ old, w.stored? o name = some old → w.equal old v = false)
    (run : perform n Unit (.setAttr (.object o) name v) w = some (.ok (), w'))
    (kept : (w'.engine e).timesBound name = (w.engine e).timesBound name)
    (unfailed : ∀ failure, w'.log.back? ≠ some (.evaluationFailed o name failure)) :
    ∃ m c u k told target, n = m + 2 ∧
      (Move.assign v).sends o name w = some (c, u) ∧ c.new = v ∧
      notify (perform (m + 1)) d.registry ⟨u.objects.size⟩ (u.announce c) = some (.ok k, told) ∧
      InvertsLast m ⟨.invertedWrite, f, key⟩ o ⟨u.objects.size⟩ v base x (told.engaged e)
        target w' ∧
      ∀ t, target = .object t → w'.registryOf? t ≠ none →
        (∀ e, w'.engineOf? t = some e → (w'.engine e).bindings.contains x = false) →
        w.LeftAlone w' ⟨t, x⟩ →
        ∃ u, w'.stored? t x = some u ∧ (u = v ∨ w'.equal u v = true) := by
  cases n with
  | zero => cases run
  | succ n =>
  replace run : (Move.assign v).run (perform n) o name w = some (.ok (), w') := run
  rcases Move.exists_of_move known (Move.allowed_of_assign known run) run with
    ⟨nothing, _, _⟩ | ⟨c, u, u', sends, sent, leave⟩
  · rcases Move.sends_eq_none.1 nothing with ⟨_, old, same, here, equal⟩ | ⟨same, _⟩
    · cases same
      rw [changes old here] at equal
      cases equal
    · cases same
  have sending := Move.sent_of_sends sends
  have stored : w.Persists u := sending.persists
  have new : c.new = v := by cases sending <;> rfl
  obtain ⟨rfl, rfl⟩ := sending.about
  have observable : u.registryOf? c.owner = some d.registry :=
    stored.registryOf? (by rw [World.registryOf?, known]; rfl)
  obtain ⟨k, told, ended, rest⟩ := exists_of_dispatch observable sent
  have announced := World.Persists.of_notify ended
  have telling : w.Persists told := (stored.trans (u.persists_announce c)).trans announced
  have own : w.engineOf? c.owner = some e := by
    rw [World.engineOf?, known]
    exact engine
  rw [telling.engineOf? own] at rest
  obtain ⟨w₃, wrote, done⟩ := rest
  have free : c.name ∉ (told.engine e).guards := by
    rw [telling.guards, World.guards_of_reachable reached]
    exact List.not_mem_nil
  have writing : told.Persists w' :=
    (((told.around_hold _).persists.trans
      (((World.performing n).writeBinding _ _ _ _).keeps _ _ _ wrote)).trans done.persists).trans
      leave.persists
  -- the attribute was not bound anew before the write, since it was not by the end
  have same : (told.engine e).bindings.get? c.name = some (Operator.update.bind f key) := by
    have early := telling.timesBound e c.name
    have late := writing.timesBound e c.name
    rw [telling.binding e c.name (by omega), bound]
  obtain ⟨m, target, rfl, mirrored⟩ := invertsLast_of_write same (telling.functions code) inverts
    (announced.change? (u.change?_announce c))
    (writesBack_of_free free wrote (done.trans leave)) unfailed
  rw [new] at mirrored
  refine ⟨m, c, u, k, told, target, rfl, sends, new, ended, mirrored, ?_⟩
  rintro t rfl observable unbound alone
  have begin := told.around_engaged e
  generalize told.engaged e = w₄ at begin mirrored
  obtain @⟨w₅, w₆, w₇, last, resolved, assigned, close⟩ := mirrored
  have setting : w₆.Persists w₇ :=
    World.frame_persists.perform (m + 1) (.setAttr (.object t) x v) _ _ _ assigned
  have settled : w₆.Persists w' := setting.trans close.persists
  have asking : w.Persists (w₅.hold v.handles) :=
    (((telling.trans begin.persists).trans (Handler.persists_inverting ..)).trans
      last.persists).trans (w₅.around_hold _).persists
  have resolving : w.Persists w₆ :=
    asking.trans (((World.performing m).resolve _ _).keeps _ _ _ resolved)
  obtain ⟨y, here⟩ := declared_of_assigned settled.toLasts observable assigned
  obtain ⟨u, value, equal⟩ := assigned_of_leftAlone (a := ⟨t, x⟩) here assigned
    (fun e' there => .inr (by
      rw [← close.engine]
      exact unbound e' (close.persists.engineOf? there)))
    (alone.mono resolving.toLasts close.persists.toLasts)
  refine ⟨u, (close.valueOf? ⟨t, x⟩).trans value, ?_⟩
  rwa [close.equal]

namespace clampedMirror

/-- Assigns through the name of another object. -/
def code (_ : Scope) : Arguments → Program Value
  | .inverted s v => do
    Program.request (.invert s (.attr ⟨"target", []⟩ "x") v)
    return .null
  | _ => return .null

def item (name : String) : Blueprint :=
  { typeName := "Item", parent := none, attributes := .ofList [(name, .int 0)], members := []
    constants := .empty, storage := .empty, config := none }

/-- Two objects that are kept. -/
def objects : Program Unit := do
  let t ← .request (.newObject (item "x"))
  .request (.keep "target" (.object t))
  let o ← .request (.newObject (item "b"))
  .request (.keep "item" (.object o))

def function : Function := ⟨"b", ⟨.ofList [("target", .object ⟨0⟩)], .empty⟩, code⟩

/-- `b` is written back to `x`, and an observer assigns 5 to it. -/
def bindings : Program Unit := do
  .request (.bind ⟨1⟩ "b" .update ⟨0⟩ (.given 0))
  let s ← .request (.subscribe ⟨1⟩ "b" fun _ => .request (.setAttr (.object ⟨1⟩) "b" (.int 5)))
  .request (.keep "clamp" (.subscription s))

def placed : World := (objects.run (perform 9) (.initial #[])).elim (.initial #[]) Prod.snd

def coded : World := (placed.addFunction function).1

def start : World := (bindings.run (perform 9) coded).elim coded Prod.snd

theorem reachable : Reachable start := by
  have made : Reachable coded := ((Reachable.start #[]).final 9 objects).ask (n := 1)
    (q := .newFunction function.name function.environment function.code) rfl
  exact made.final 9 bindings

/-- The world after 10 has been assigned to `b`. -/
def assigned : World :=
  (perform 9 Unit (.setAttr (.object ⟨1⟩) "b" (.int 10)) start).elim start Prod.snd

/-- What that makes known, and the world that it is about by then. -/
def ten : Change := ⟨.update, ⟨1⟩, "b", .int 0, .int 10⟩

def stored : World := (start.hold [.object ⟨1⟩]).store ⟨⟨1⟩, "b"⟩ (.int 10)

/-- The world after the observer has heard of it. -/
def told : World := (notify (perform 8) ⟨1⟩ ⟨2⟩ (stored.announce ten)).elim start Prod.snd

def handler : Handler := ⟨.invertedWrite, ⟨0⟩, .given 0⟩

/-- The world in which the body assigns. -/
def inverting : World := handler.inverting ⟨1⟩ ⟨2⟩ (.int 10) (told.engaged ⟨0⟩)

theorem start_bound : placed.functions.size = 0 ∧
    (start.declared? ⟨1⟩).any (fun d =>
      decide (d.engine = some ⟨0⟩ ∧ d.registry = ⟨1⟩)) = true ∧
    start.registryOf? ⟨0⟩ = some ⟨0⟩ ∧ start.objects.size = 2 ∧
    (start.engine ⟨0⟩).bindings.get? "b" = some (Operator.update.bind ⟨0⟩ (.given 0)) ∧
    start.stored? ⟨1⟩ "b" = some (.int 0) ∧ start.equal (.int 0) (.int 10) = false := by
  decide +kernel

/-- Nobody but the observer writes, and the body finds the other object. -/
theorem assigned_unobserved :
    ((perform 9 Unit (.setAttr (.object ⟨1⟩) "b" (.int 10)) start).any fun x => x.1.isOk) = true ∧
    (assigned.engine ⟨0⟩).timesBound "b" = (start.engine ⟨0⟩).timesBound "b" ∧
    (assigned.log.back?.all fun x => decide (x.severity ≠ .error)) = true ∧
    assigned.engineOf? ⟨0⟩ = none ∧ (assigned.registryOf? ⟨0⟩).isSome = true ∧
    (assigned.registry ⟨0⟩).observers "x" = [] ∧
    ((assigned.registry ⟨0⟩).forgotten.all fun p => decide (p.1 ≠ "x")) = true ∧
    (resolve (perform 7) (handler.scopeFor ⟨1⟩ (told.engaged ⟨0⟩)) ⟨"target", []⟩
      (inverting.hold (Value.handles (.int 10)))).map (·.1.toOption) =
        some (some (.object ⟨0⟩)) := by
  decide +kernel

theorem function_start : start.functions[0]? = some function := by
  have here : coded.functions[0]? = some function := by
    show (placed.functions.push function)[0]? = _
    rw [← start_bound.1, Array.getElem?_push_size]
  unfold start
  cases ends : bindings.run (perform 9) coded with
  | none => exact here
  | some x => exact (((World.performing 9).run bindings).keeps _ _ _ ends).functions here

/-- The last that happens is that the other object gets 10, although the observer has assigned 5. -/
theorem mirrors_first :
    (∃ k, notify (perform 8) ⟨1⟩ ⟨2⟩ (stored.announce ten) = some (.ok k, told)) ∧
    InvertsLast 7 handler ⟨1⟩ ⟨2⟩ (.int 10) ⟨"target", []⟩ "x" (told.engaged ⟨0⟩) (.object ⟨0⟩)
      assigned ∧
    ∃ u, assigned.stored? ⟨0⟩ "x" = some u ∧ (u = .int 10 ∨ assigned.equal u (.int 10) = true) := by
  obtain ⟨_, declared, here, size, bound, zero, differs⟩ := start_bound
  obtain ⟨succeeds, kept, silent, free, there, quiet, fresh, resolves⟩ := assigned_unobserved
  obtain ⟨d, known, facts⟩ := (Option.any_eq_true _ _).1 declared
  obtain ⟨engine, registry⟩ := of_decide_eq_true facts
  have inverts (s : Scope) (u : Value) :
      Inverts s (.attr ⟨"target", []⟩ "x") u (function.code s (.inverted s u)) :=
    .last .null fun r => by cases r <;> rfl
  have changes (old : Value) (here : start.stored? ⟨1⟩ "b" = some old) :
      start.equal old (.int 10) = false := by
    cases zero.symm.trans here
    exact differs
  have unfailed (failure : BindError) :
      assigned.log.back? ≠ some (.evaluationFailed ⟨1⟩ "b" failure) := by
    intro logged
    rw [logged] at silent
    cases silent
  have run : perform 9 Unit (.setAttr (.object ⟨1⟩) "b" (.int 10)) start =
      some (.ok (), assigned) := Action.eq_some_of_isOk succeeds
  obtain ⟨m, c, u, k, told', target, same, sends, _, ended, mirrored, ends⟩ :=
    set_inverts_last reachable known engine bound function_start inverts changes run kept unfailed
  obtain rfl : m = 7 := by omega
  have sends' : (Move.assign (.int 10)).sends ⟨1⟩ "b" start = some (ten, stored) := by
    simp only [Move.sends, zero, differs, Bool.false_eq_true, if_false]
    rfl
  cases sends'.symm.trans sends
  have change : (⟨stored.objects.size⟩ : ObjectId) = ⟨2⟩ := by
    rw [← size]
    exact congrArg ObjectId.mk Array.size_modify
  rw [registry, change] at ended
  obtain rfl : told = told' := by rw [told, ended, Option.elim_some]
  rw [change] at mirrored
  have code : (told.engaged ⟨0⟩).functions[0]? = some function :=
    ((((Move.sent_of_sends sends).persists.trans (stored.persists_announce ten)).trans
      (.of_notify ended)).trans
        (told.around_engaged ⟨0⟩).persists).functions function_start
  obtain rfl : target = .object ⟨0⟩ := by
    obtain @⟨w₁, w₂, w₃, last, resolved, _, _⟩ := mirrored
    rw [World.code, code] at last
    have here : w₁ = inverting := by
      cases last with
      | last => rfl
      | @ask _ _ _ r _ _ answer rest => cases r <;> cases rest
    rw [here] at resolved
    unfold handler at resolves
    rw [resolved] at resolves
    cases resolves
    rfl
  refine ⟨⟨k, ended⟩, mirrored, ends ⟨0⟩ rfl (fun none => ?_) (fun e own => ?_) ?_⟩
  · rw [none] at there
    cases there
  · cases free.symm.trans own
  · exact World.leftAlone_of_unobserved here (Registry.appearances_eq_zero quiet fresh)

/-- In the end the attribute and its mirror differ. -/
theorem differs : ((perform 9 Unit (.setAttr (.object ⟨1⟩) "b" (.int 10)) start).any
      fun x => x.1.isOk) = true ∧
    assigned.stored? ⟨1⟩ "b" = some (.int 5) ∧ assigned.stored? ⟨0⟩ "x" = some (.int 10) := by
  decide +kernel

end clampedMirror

/-! ### Updates -/

/-- **An update has the last word.** Whatever is assigned to an attribute while an update of it
evaluates the binding, newer results of nested updates included, what this evaluation made is
there at the end, if observers of the attribute leave it alone. -/
theorem update_assigns_last {o : ObjectId} {d : Declared} {e : EngineRef} {name : String}
    (known : w.declared? o = some d) (engine : d.engine = some e)
    (run : Engine.update (perform n) e o name w = some (.ok (), w')) :
    ∃ r w₁, Engine.read (perform n) e o name (w.hold [.engine e, .object o]) =
        some (.ok r, w₁) ∧
      match r with
      | none => w₁.Around w'
      | some v => w₁.LeftAlone w' ⟨o, name⟩ →
          ∃ u, w'.stored? o name = some u ∧ (u = v ∨ w'.equal u v = true) := by
  obtain ⟨last, inner, literal⟩ := Action.exists_of_holding run
  have leave : last.Around w' := ⟨_, _, _, literal⟩
  clear literal
  rcases Action.exists_of_bind inner with ⟨_, _, same⟩ | ⟨r, w₁, reads, rest⟩
  · cases same
  refine ⟨r, w₁, reads, ?_⟩
  cases r with
  | none =>
    cases rest
    exact leave
  | some v =>
    intro alone
    have reading : w.Persists w₁ := by
      have enter : w.Persists (w.hold [.engine e, .object o]) :=
        World.Around.persists ⟨_, _, _, rfl⟩
      exact enter.trans (((World.performing n).readBinding _ _ _).keeps _ _ _ reads)
    have bound : (w₁.engine e).bindings.contains name = true :=
      reading.bound e name (contains_of_read (w := w.hold [.engine e, .object o]) reads)
    let w₂ := w₁.addEntry (.bindingUpdated o name (w₁.text v))
    obtain ⟨w₃, assigned, restored⟩ := exists_of_guarding
      (show Action.guarding e name (perform n _ (.setAttr (.object o) name v)) w₂ =
        some (.ok (), last) from rest)
    let w₄ := w₂.guard e name
    have up : name ∈ (w₄.engine e).guards :=
      (World.mem_guards_guard (w := w₂) bound).2 (.inl ⟨rfl, rfl⟩)
    have leaves : w₃.Lasts last := by
      rw [restored]
      exact w₂.lasts_unguard w₃ e name
    have value : last.valueOf? ⟨o, name⟩ = w₃.valueOf? ⟨o, name⟩ := by
      rw [restored]
      exact (World.Slips.unguard (n := 0) w₂ w₃ e name).slight.valueOf? _
    cases n with
    | zero => cases assigned
    | succ m =>
    have logged : w₁.Persists w₂ := .still rfl rfl rfl id id
    have raising : w₁.Lasts w₄ := logged.toLasts.trans (w₂.lasts_guard e name)
    have observable : w₄.registryOf? o = some d.registry :=
      (reading.toLasts.trans raising).registryOf? (by rw [World.registryOf?, known]; rfl)
    obtain ⟨y, here, _⟩ := Option.map_eq_some_iff.1 observable
    have setting : w₄.Persists w₃ :=
      ((World.performing m).assign (World.frame_persists.touches o name) _).keeps _ _ _ assigned
    have own : w₃.engineOf? o = some e := by
      refine setting.engineOf? ((reading.toLasts.trans raising).engineOf? ?_)
      rw [World.engineOf?, known]
      exact engine
    have finish : w₃.Lasts w' := leaves.trans leave.persists.toLasts
    obtain ⟨u, here, equal⟩ := assigned_of_leftAlone (a := ⟨o, name⟩) here assigned
      (fun e' there => by
        cases own.symm.trans there
        exact .inl up)
      (alone.mono raising finish)
    refine ⟨u, (leave.valueOf? ⟨o, name⟩).trans (value.trans here), ?_⟩
    rwa [leave.equal, restored, World.equal_unguard]

namespace overlap

/-- Adds two names up. -/
def sum (a b : String) (s : Scope) (_ : Arguments) : Program Value := do
  match ← Program.request (.getName s a), ← Program.request (.getName s b) with
  | .int i, .int j => return .int (i + j)
  | _, _ => return .null

/-- Reads two names and takes the second. -/
def second (a b : String) (s : Scope) (_ : Arguments) : Program Value := do
  let _ ← Program.request (.getName s a)
  .request (.getName s b)

def attach (name : String) (op : Operator) (code : Scope → Arguments → Program Value) :
    Program Unit := do
  let f ← .request (.newFunction name ⟨.empty, .empty⟩ code)
  .request (.bind ⟨0⟩ name op f (.given 0))

/-- `z` adds up `w` and `y`, and `w` is `y`. -/
def setup : Program Unit := do
  let o ← .request (.newObject
    { typeName := "Item", parent := none, members := [], constants := .empty, storage := .empty
      attributes := .ofList [("p", .int 1), ("q", .int 0)], config := none })
  .request (.keep "item" (.object o))
  attach "y" .simple fun s _ => .request (.getName s "p")
  attach "w" .subscribe (second "q" "y")
  attach "z" .subscribe (sum "w" "y")
  let _ ← Program.request (.readAttr o "w")
  let _ ← Program.request (.readAttr o "z")
  .request (.setAttr (.object o) "q" (.int 100))
  .request (.setAttr (.object o) "p" (.int 7))

/-- Giving up `y` brings about an update of `z` inside an evaluation of `z`. -/
def session : Program Unit := do
  setup
  .request (.clear ⟨0⟩ "y")

def finished : World := (session.run (perform 12) (.initial #[])).elim (.initial #[]) Prod.snd

def ready : World := (setup.run (perform 12) (.initial #[])).elim (.initial #[]) Prod.snd

def gone : Change := ⟨.delete, ⟨0⟩, "y", .int 1, .null⟩

/-- The world in which `y` has been given up and the observers are about to hear of it. -/
def cleared : World := (ready.erase ⟨⟨0⟩, "y"⟩).announce gone

/-- The world in which the first of them, a link of `z`, begins to update. -/
def outer : World :=
  ((cleared.notifying ⟨0⟩ ⟨6⟩ gone).tell (.link ⟨3⟩) ⟨6⟩).addEntry
    (.dependencyChanged ⟨0⟩ "z" ⟨0⟩ "y")

/-- The world after the evaluation of this update, and the one after the update. -/
def evaluated : World :=
  (Engine.read (perform 11) ⟨0⟩ ⟨0⟩ "z" (outer.hold [.engine ⟨0⟩, .object ⟨0⟩])).elim outer Prod.snd

def updated : World := (Engine.update (perform 11) ⟨0⟩ ⟨0⟩ "z" outer).elim outer Prod.snd

set_option maxRecDepth 100000 in
theorem overlaps : ready.objects.size = 6 ∧ ready.stored? ⟨0⟩ "y" = some (.int 1) ∧
    cleared.liveObservers (cleared.observersOf ⟨⟨0⟩, "y"⟩) = [.link ⟨3⟩, .link ⟨5⟩] ∧
    cleared.links[3]? = some ⟨⟨0⟩, ⟨0⟩, "z"⟩ ∧ (outer.declared? ⟨0⟩).isSome = true ∧
    outer.engineOf? ⟨0⟩ = some ⟨0⟩ ∧ outer.registryOf? ⟨0⟩ = some ⟨0⟩ ∧
    ((Engine.update (perform 11) ⟨0⟩ ⟨0⟩ "z" outer).any fun x => x.1.isOk) = true ∧
    (Engine.read (perform 11) ⟨0⟩ ⟨0⟩ "z" (outer.hold [.engine ⟨0⟩, .object ⟨0⟩])).map
      (fun x => x.1.toOption) = some (some (some (.int 8))) ∧
    evaluated.stored? ⟨0⟩ "z" = some (.int 14) ∧ (updated.registry ⟨0⟩).observers "z" = [] ∧
    ((updated.registry ⟨0⟩).forgotten.all fun p => decide (p.1 ≠ "z")) = true := by
  decide +kernel

/-- The update that was first to begin stores the 8 that it has read, although `z` has got 14 from
an update that was nested in its evaluation. -/
theorem stores_read : Engine.read (perform 11) ⟨0⟩ ⟨0⟩ "z"
      (outer.hold [.engine ⟨0⟩, .object ⟨0⟩]) = some (.ok (some (.int 8)), evaluated) ∧
    evaluated.stored? ⟨0⟩ "z" = some (.int 14) ∧
    ∃ u, updated.stored? ⟨0⟩ "z" = some u ∧ (u = .int 8 ∨ updated.equal u (.int 8) = true) := by
  obtain ⟨_, _, _, _, known, engine, here, ends, value, newer, silent, fresh⟩ := overlaps
  obtain ⟨d, known⟩ := Option.isSome_iff_exists.1 known
  rw [World.engineOf?, known] at engine
  have run : Engine.update (perform 11) ⟨0⟩ ⟨0⟩ "z" outer = some (.ok (), updated) :=
    Action.eq_some_of_isOk ends
  obtain ⟨r, w₁, reads, stores⟩ := update_assigns_last known engine run
  obtain rfl : evaluated = w₁ := by rw [evaluated, reads, Option.elim_some]
  rw [reads] at value
  cases value
  have reading : outer.Persists evaluated := World.Persists.trans
    (World.Around.persists ⟨_, _, _, rfl⟩)
    (((World.performing 11).readBinding _ _ _).keeps _ _ _ reads)
  exact ⟨reads, newer, stores (World.leftAlone_of_unobserved (reading.registryOf? here)
    (Registry.appearances_eq_zero silent fresh))⟩

set_option maxRecDepth 100000 in
/-- In the end `z` has what the evaluation that began first made of an old `w`: 8, where its body
makes 14. -/
theorem keeps_older : ((session.run (perform 12) (.initial #[])).any fun x => x.1.isOk) = true ∧
    finished.stored? ⟨0⟩ "z" = some (.int 8) ∧
    (perform 12 _ (.readBinding ⟨0⟩ ⟨0⟩ "z") finished).map (fun x => x.1.toOption) =
      some (some (some (.int 14))) := by
  decide +kernel

end overlap

end LiveBinding
