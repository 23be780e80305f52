import LiveBinding.Proofs.Handlers
import LiveBinding.Action.Invert

/-! Reading attributes, one after the other.

Reading an attribute is no more than looking as long as nothing has to be evaluated for it. A
route goes from attribute to attribute in this way; it is the same whenever the attributes on it
have the same values, and reading along it leads to its end. -/
namespace LiveBinding

namespace World
variable {w w' : World} {d : Dependency} {x : Declared} {v : Value} {name : String}

/-! ### Reading one attribute -/

theorem hasReader_eq_isSome {e : EngineRef} (engine : w.engineOf? d.object = some e) :
    (w.engine e).hasReader d.name = (w.handlerOf? d).isSome := by
  rw [handlerOf?, engine, Option.bind_some, Option.isSome_map, Engine.hasReader]
  cases (w.engine e).bindings.get? d.name <;> rfl

theorem valueOf?_of_declared (known : w.declared? d.object = some x) :
    w.valueOf? d = x.values.get? d.name := by
  rw [valueOf?, stored?, known]
  rfl

theorem readAttr_declared (known : w.declared? d.object = some x) (self : Performer) :
    readAttr self d.object d.name w =
      Action.holding [.object d.object] (readDeclared self d.object x d.name) w := by
  have entity := (w.declared?_eq_some).1 known
  simp only [readAttr, Action.read_bind, entity]

theorem readAttr_stored (here : w.valueOf? d = some v) (self : Performer) :
    readAttr self d.object d.name w = some (.ok (some v), w) := by
  obtain ⟨x, known, stored⟩ := Option.bind_eq_some_iff.1 here
  rw [readAttr_declared known, Action.holding, Action.within_apply]
  simp only [readDeclared, stored]
  rfl

theorem readDeclared_free (known : w.declared? d.object = some x)
    (has : x.hasAttribute d.name = true) (unset : w.valueOf? d = none)
    (free : w.handlerOf? d = none) (self : Performer) :
    readDeclared self d.object x d.name w = some (.ok (some .null), w) := by
  have stored : x.values.get? d.name = none := (valueOf?_of_declared known).symm.trans unset
  have last : (do return some ((← Action.read (·.stored? d.object d.name)).getD .null) :
      Action (Option Value)) w = some (.ok (some .null), w) := by
    show some (Except.ok (some ((w.valueOf? d).getD .null)), w) = _
    rw [unset]
    rfl
  cases own : x.engine with
  | none =>
    simp only [readDeclared, stored, has, own]
    exact last
  | some e =>
    have engine : w.engineOf? d.object = some e := by
      rw [engineOf?, known]
      exact own
    have reader : ¬ (w.engine e).hasReader d.name = true := by
      rw [hasReader_eq_isSome engine, free]
      exact Bool.false_ne_true
    simp only [readDeclared, stored, has, own, Bool.not_true, Bool.false_eq_true, if_false,
      Action.read_bind]
    rw [if_neg reader]
    exact last

/-- An attribute that has neither a value nor a read handler counts as null. -/
theorem readAttr_free (is : w.Attribute d) (unset : w.valueOf? d = none)
    (free : w.handlerOf? d = none) (self : Performer) :
    readAttr self d.object d.name w = some (.ok (some .null), w) := by
  obtain ⟨x, known, has⟩ := is
  let w₁ := {w with held := [Handle.object d.object] ++ w.held}
  have read : readDeclared self d.object x d.name w₁ = some (.ok (some .null), w₁) :=
    readDeclared_free (w := w₁) known has unset free self
  rw [readAttr_declared known, Action.holding, Action.within_apply, read]

/-- An attribute that has a read handler and no value is updated first. -/
theorem readAttr_bound {e : EngineRef} {h : Handler} (is : w.Attribute d)
    (unset : w.valueOf? d = none) (handler : w.handlerOf? d = some (e, h)) {Q : World → Prop}
    (updated : Leads {w with held := [.object d.object] ++ w.held}
      (fun self => Engine.update self e d.object d.name) fun r w' =>
        r = .ok () ∧ Q {w' with held := w.held}) :
    Leads w (fun self => readAttr self d.object d.name) fun r w' =>
      r = .ok (some (w'.valuation d)) ∧ Q w' := by
  obtain ⟨x, known, has⟩ := is
  have stored : x.values.get? d.name = none := (valueOf?_of_declared known).symm.trans unset
  obtain ⟨engine, _⟩ := handlerOf?_eq_some.1 handler
  have own : x.engine = some e := by
    rw [engineOf?, known] at engine
    exact engine
  have reader : (w.engine e).hasReader d.name = true := by
    rw [hasReader_eq_isSome engine, handler]
    rfl
  refine Leads.congr (fun self => readAttr_declared known self) (Leads.holding ?_)
  refine Leads.congr (b := fun self => Engine.update self e d.object d.name >>= fun _ => do
    return some ((← Action.read (·.stored? d.object d.name)).getD .null)) (fun self => ?_) ?_
  · simp only [readDeclared, stored, has, own, Bool.not_true, Bool.false_eq_true, if_false,
      Action.read_bind]
    exact if_pos reader ▸ rfl
  · refine Leads.seq (updated.mono ?_)
    rintro r w' ⟨rfl, here⟩
    exact ⟨(), rfl, Leads.of_eq (fun _ => rfl) ⟨rfl, here⟩⟩

theorem getAttr_leads {Q : Value → World → Prop}
    (reads : Leads w (fun self => readAttr self d.object d.name) fun r w' =>
      ∃ v, r = .ok (some v) ∧ Q v w') :
    Leads w (fun self => getAttr self (.object d.object) d.name) fun r w' =>
      ∃ v, r = .ok v ∧ Q v w' := by
  refine Leads.seq (reads.mono ?_)
  rintro r w' ⟨v, rfl, here⟩
  exact ⟨_, rfl, Leads.pure ⟨v, rfl, here⟩⟩

/-! ### Routes -/

/-- What reading an attribute gives, if nothing has to be evaluated for it. -/
inductive Shows (w : World) (d : Dependency) : Value → Prop where
  | stored {v : Value} (here : w.valueOf? d = some v) : Shows w d v
  | free (is : w.Attribute d) (unset : w.valueOf? d = none) (free : w.handlerOf? d = none) :
      Shows w d .null
  | change {c : Change} {v : Value} (known : w.change? d.object = some c)
      (has : c.attribute? d.name = some v) : Shows w d v

theorem Shows.getAttr (shows : w.Shows d v) (self : Performer) :
    getAttr self (.object d.object) d.name w = some (.ok v, w) := by
  have read : readAttr self d.object d.name w = some (.ok (some v), w) := by
    cases shows with
    | stored here => exact readAttr_stored here self
    | free is unset free => exact readAttr_free is unset free self
    | change known has =>
      unfold change? at known
      split at known
      · next entity =>
        cases known
        simp only [readAttr, Action.read_bind, entity, has]
        rfl
      · cases known
  show (readAttr self d.object d.name >>= _) w = _
  rw [Action.bind_apply, read]
  rfl

theorem Shows.unique {u : Value} (one : w.Shows d u) (other : w.Shows d v) : u = v := by
  have same := (one.getAttr fun _ _ _ => none).symm.trans (other.getAttr _)
  cases same
  rfl

theorem Shows.mono (shows : w.Shows d v) (grows : w.Extends w')
    (same : w'.valueOf? d = w.valueOf? d) : w'.Shows d v := by
  cases shows with
  | stored here => exact .stored (same.trans here)
  | free is unset free =>
    exact .free (grows.attribute.2 is) (same.trans unset) ((grows.handlerOf? d).trans free)
  | change known has => exact .change (grows.change? known) has

/-- A tracer that loads the attribute records it. -/
theorem Shows.loadAttr (shows : w.Shows d v) (t : TracerRef) (self : Performer) :
    loadAttr self t (.object d.object) d.name w =
      some (.ok v, w.modifyTracer t (·.record d)) := by
  let w₁ := {w with held := (Handle.tracer t :: (Value.object d.object).handles) ++ w.held}
  have there : w₁.Shows d v := shows.mono (w.slight_progress 0 _ _ _).grows rfl
  unfold LiveBinding.loadAttr
  rw [Action.bind_apply, Action.holding, Action.within_apply, there.getAttr self]
  rfl

/-- Names lead from a value by way of attributes to a value. -/
inductive Route (w : World) : Value → List String → List Dependency → Value → Prop where
  | here (v : Value) : Route w v [] [] v
  | hop {o : ObjectId} {n : String} {v u : Value} {names : List String} {ds : List Dependency}
      (shows : w.Shows ⟨o, n⟩ v) (rest : Route w v names ds u) :
      Route w (.object o) (n :: names) (⟨o, n⟩ :: ds) u

namespace Route
variable {u z : Value} {names others : List String} {ds es : List Dependency}

theorem append (route : w.Route v names ds u) (rest : w.Route u others es z) :
    w.Route v (names ++ others) (ds ++ es) z := by
  induction route with
  | here => exact rest
  | hop shows _ ih => exact .hop shows (ih rest)

theorem unique (one : w.Route v names ds u) (other : w.Route v names es z) : ds = es ∧ u = z := by
  induction one generalizing es with
  | here =>
    cases other
    exact ⟨rfl, rfl⟩
  | hop shows _ ih =>
    cases other with
    | hop shows' rest =>
      cases shows.unique shows'
      obtain ⟨rfl, rfl⟩ := ih rest
      exact ⟨rfl, rfl⟩

theorem mono (route : w.Route v names ds u) (grows : w.Extends w')
    (same : ∀ d ∈ ds, w'.valueOf? d = w.valueOf? d) : w'.Route v names ds u := by
  induction route with
  | here v => exact .here v
  | hop shows _ ih =>
    exact .hop (shows.mono grows (same _ List.mem_cons_self))
      (ih fun d mem => same d (List.mem_cons_of_mem _ mem))

theorem name_mem (route : w.Route v names ds u) (mem : d ∈ ds) : d.name ∈ names := by
  induction route with
  | here => cases mem
  | hop _ _ ih =>
    rcases List.mem_cons.1 mem with rfl | mem
    · exact List.mem_cons_self
    · exact List.mem_cons_of_mem _ (ih mem)

/-- Following a route leads to its end. -/
theorem follow (route : w.Route v names ds u) (self : Performer) (path : Path) :
    LiveBinding.follow self path names v w = some (.ok u, w) := by
  induction route with
  | here => rfl
  | hop shows _ ih =>
    unfold LiveBinding.follow
    rw [Action.bind_apply, Action.attempt_apply, shows.getAttr self]
    exact ih

end Route

end World

/-! ### Reading along a route -/

/-- Reads attributes, one after the other. -/
def getEach : List String → Value → Program Value
  | [], v => pure v
  | n :: rest, v => do getEach rest (← Program.request (.getAttr v n))

/-- Reads attributes, one after the other, and records them. -/
def loadEach (t : TracerRef) : List String → Value → Program Value
  | [], v => pure v
  | n :: rest, v => do loadEach t rest (← Program.request (.loadAttr t v n))

namespace World.Route
variable {w w' : World} {v u : Value} {names : List String} {ds : List Dependency}

theorem getEach_leads (route : w.Route v names ds u) :
    Leads w (fun self => (getEach names v).run self) fun r w' => r = .ok u ∧ w' = w := by
  induction route with
  | here => exact Leads.done ⟨rfl, rfl⟩
  | hop shows _ ih => exact Leads.ask (Leads.request (Leads.of_eq shows.getAttr ih))

theorem loadEach_leads {t : TracerRef} (route : w.Route v names ds u) (slips : w.Slips 0 w')
    (running : t.index < w'.tracers.size) :
    Leads w' (fun self => (loadEach t names v).run self) fun r w'' => r = .ok u ∧
      w'.Slips t.index w'' ∧ ∀ d, d ∈ (w''.tracer t).dependencies ↔
        d ∈ (w'.tracer t).dependencies ∨ d ∈ ds := by
  induction route generalizing w' with
  | here => exact Leads.done ⟨rfl, .refl w', fun d => by simp⟩
  | @hop o n x u names ds shows _ ih =>
    let w₂ := w'.modifyTracer t (·.record ⟨o, n⟩)
    have there : w'.Shows ⟨o, n⟩ x := shows.mono slips.slight.grows (slips.slight.valueOf? _)
    have recorded : w'.Slips t.index w₂ := ⟨w'.slight_record t ⟨o, n⟩, rfl, rfl⟩
    have running₂ : t.index < w₂.tracers.size := Nat.lt_of_lt_of_le running recorded.slight.more
    refine Leads.ask (Leads.request (Leads.of_eq (there.loadAttr t) ((ih (slips.trans
      (recorded.mono (Nat.zero_le _))) running₂).mono ?_)))
    rintro r w'' ⟨rfl, rest, dependencies⟩
    refine ⟨rfl, recorded.trans rest, fun d => ?_⟩
    rw [dependencies, mem_dependencies_record running, List.mem_cons, or_assoc]

end World.Route

/-! ### Names of the module -/

namespace World
variable {w w' : World} {name : String} {o : ObjectId} {v : Value}

/-- No object of an owner chain has an attribute of that name. -/
inductive Lacks (w : World) (name : String) : ObjectId → Prop where
  | declared {o : ObjectId} {d : Declared} (known : w.declared? o = some d)
      (lacks : d.hasAttribute name = false) (parent : ∀ p, d.parent = some p → Lacks w name p) :
      Lacks w name o
  | change {o : ObjectId} {c : Change} (known : w.change? o = some c)
      (lacks : c.attribute? name = none) : Lacks w name o
  | view {o p : ObjectId} {t : Option TracerRef} (known : w.entity? o = some (.view p t))
      (owner : Lacks w name p) : Lacks w name o

theorem Lacks.mono (lacks : w.Lacks name o) (grows : w.Extends w') : w'.Lacks name o := by
  induction lacks with
  | declared known lacks _ ih =>
    obtain ⟨d', there, fixed⟩ := grows.declared known
    refine .declared there ((fixed.attributes name).trans lacks) fun p parent => ih p ?_
    rw [← fixed.parent, parent]
  | change known lacks => exact .change (grows.change? known) lacks
  | view known _ ih => exact .view (grows.entity known rfl) ih

theorem Lacks.within (lacks : w.Lacks name o) (fuel : Nat) :
    w.hasWithin name fuel o = false ∧ w.nearestWithin name fuel o = none := by
  -- an object without the attribute passes the search on to its parent
  have next {o : ObjectId} {fuel : Nat} (none : w.hasWithin name fuel o = false)
      (parent : ∀ p, w.parent? o = some p → w.nearestWithin name fuel p = Option.none) :
      w.nearestWithin name (fuel + 1) o = Option.none := by
    rw [nearestWithin, none, if_neg Bool.false_ne_true]
    split
    · next p found => exact parent p found
    · rfl
  induction lacks generalizing fuel with
  | @declared o d known lacks _ ih =>
    have none (fuel : Nat) : w.hasWithin name fuel o = false := by
      rw [hasWithin_of_declared known, lacks, Bool.and_false]
    refine ⟨none fuel, ?_⟩
    cases fuel with
    | zero => rw [nearestWithin]
    | succ fuel =>
      refine next (none fuel) fun p parent => (ih p ?_ fuel).2
      obtain ⟨found, _⟩ := Option.filter_eq_some_iff.1 parent
      rw [known] at found
      exact found
  | @change o c known lacks =>
    have entity : w.entity? o = some (.change c) := by
      unfold change? at known
      split at known
      · next found =>
        cases known
        exact found
      · cases known
    have none (fuel : Nat) : w.hasWithin name fuel o = false := by
      cases fuel with
      | zero => rw [hasWithin]
      | succ fuel =>
        rw [hasWithin, entity]
        simp only [lacks, Option.isSome_none]
    refine ⟨none fuel, ?_⟩
    cases fuel with
    | zero => rw [nearestWithin]
    | succ fuel =>
      refine next (none fuel) fun p parent => ?_
      rw [parent?, declared?, entity] at parent
      cases parent
  | @view o p t known _ ih =>
    have none (fuel : Nat) : w.hasWithin name fuel o = false := by
      cases fuel with
      | zero => rw [hasWithin]
      | succ fuel =>
        rw [hasWithin, known]
        simp only [(ih fuel).2, Option.isSome_none]
    refine ⟨none fuel, ?_⟩
    cases fuel with
    | zero => rw [nearestWithin]
    | succ fuel =>
      refine next (none fuel) fun p parent => ?_
      rw [parent?, declared?, known] at parent
      cases parent

/-- A name that a scope leaves to its surroundings is looked up there. -/
theorem getName_of_unset {s : Scope} {name : String} (unchanged : s.change = none)
    (plain : ∀ r, Reserved.ofName? name = some r → r = .change ∨ r = .tracer ∧ s.tracer = none)
    (locals : (w.layer s.locals).get? name = none) (self : Performer) :
    getName self s name w = outerName self s name w := by
  have behind {k : Option Value → Action Value} (outer : k none = outerName self s name) :
      (Action.read (fun w => (w.layer s.locals).get? name) >>= k) w = outerName self s name w := by
    rw [Action.read_bind, locals, outer]
  unfold getName
  cases reserved : Reserved.ofName? name with
  | none =>
    dsimp only
    rw [Action.pure_bind]
    exact behind rfl
  | some r =>
    rcases plain r reserved with rfl | ⟨rfl, none⟩
    · dsimp only [reservedValue]
      rw [unchanged, Option.map_none, Action.succeed_bind]
      exact behind rfl
    · dsimp only [reservedValue]
      rw [none, Option.map_none, Action.succeed_bind]
      exact behind rfl

/-- A name that means nothing before the globals means what it means there. A scope of a handler
has no change, so even that name may be one of the globals. -/
theorem Lacks.getName {s : Scope} (lacks : w.Lacks name s.owner) (unchanged : s.change = none)
    (plain : ∀ r, Reserved.ofName? name = some r → r = .change)
    (locals : (w.layer s.locals).get? name = none)
    (known : s.environment.globals.get? name = some v) (self : Performer) :
    getName self s name w = some (.ok v, w) := by
  have near : w.nearest? s.owner name = none := (lacks.within _).2
  rw [getName_of_unset unchanged (fun r here => .inl (plain r here)) locals]
  unfold outerName
  rw [Action.bind_apply, loadName, Action.read_bind, near]
  simp only [known]
  rfl

end World

end LiveBinding
