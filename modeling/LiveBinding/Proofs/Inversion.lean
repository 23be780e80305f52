import LiveBinding.Proofs.Locations

/-! Assigning through the shape of an expression.

A target denotes a place, as long as nothing on the way to it is bound: an attribute, an item of a
list, an entry of a map, or a variable. An assignment through the target puts the value there and
nowhere else, and reading the expression again gives the value back. -/
namespace LiveBinding

/-! ### What a target denotes -/

/-- The place in a container that a key denotes. -/
def World.spot (w : World) : Base → Value → Option Location
  | .value (.list r), .int i => (World.place? i (w.items r).length).map (.item r)
  | .value (.map r), .str key => some (.entry r key)
  | _, _ => none

/-- Whether a value is the function that reads attributes. -/
def World.reads (w : World) : Value → Bool
  | .native f => decide (w.nativeName f = getattrName)
  | _ => false

/-- Whether what a name means can be called to read an attribute. -/
def World.invertible (w : World) : Option Base → Bool
  | some (.value f) => w.reads f
  | _ => false

/-- The attribute that is read by a call with these arguments. -/
def World.given? (w : World) (s : Scope) : List Value → Option Location
  | [o, .str n] => (w.supplierOf? s n (.value o)).map fun p => .attr ⟨p, n⟩
  | _ => none

namespace Target

/-- The place that a target denotes in a scope. -/
def location? (w : World) (s : Scope) : Target → Option Location
  | .name n =>
    if isReserved n then none
    else
      match w.nearest? s.owner n with
      | some o => (w.supplier? o n).map fun p => .attr ⟨p, n⟩
      | none => some (.slot s.locals n)
  | .attr base n => (w.lead s base).2.bind fun b => (w.supplierOf? s n b).map fun p => .attr ⟨p, n⟩
  | .item base key => (w.lead s base).2.bind fun b => w.spot b key
  | .call function args =>
    if w.invertible (w.meaning s function).2 then w.given? s args else none
  | .unsupported _ => none

/-- The attributes that are consulted to find the place. -/
def consulted (w : World) (s : Scope) : Target → List Dependency
  | .attr base _ | .item base _ => (w.lead s base).1
  | .call function _ => (w.meaning s function).1
  | .name _ | .unsupported _ => []

/-- The attributes that an assignment has to do with. -/
def touched (w : World) (s : Scope) (target : Target) : List Dependency :=
  target.consulted w s ++
    match target.location? w s with
    | some (.attr a) => [a]
    | _ => []

/-- Evaluates the expression that a target looks like: a name, a path, an item of what a path leads
to, or an attribute of the object that a call is given. -/
def read (self : Performer) (s : Scope) : Target → Action Value
  | .name n => getName self s n
  | .attr base n => do getAttr self (← resolve self s base) n
  | .item base key => do
    let o ← resolve self s base
    fun w => some (w.getItem o key, w)
  | .call _ [o, .str n] => getAttr self o n
  | .call .. | .unsupported _ => Action.succeed .null

/-- The place is not consulted itself to find the base, and a name is not that of a variable and an
attribute at once. -/
def Apart (w : World) (s : Scope) (ℓ : Location) : Target → Prop
  | .name n => (w.layer s.locals).get? n = none ∨ w.nearest? s.owner n = none
  | .attr base _ | .item base _ => ∀ d ∈ (w.lead s base).1, ℓ ≠ .attr d
  | .call .. | .unsupported _ => True

end Target

namespace World
variable {w w' u : World} {s : Scope} {b : Base} {x v : Value} {ℓ : Location} {name : String}
  {target : Target}

/-- Whoever asks for an assignment holds all that is needed for it. -/
structure Equips (s : Scope) (target : Target) (v : Value) (w : World) :
    Prop extends w.Backs s where
  target : ∀ h ∈ target.handles, h ∈ w.roots
  value : ∀ h ∈ v.handles, h ∈ w.roots

/-! ### Putting the value there -/

/-- A refused access is why no assignment follows. -/
theorem Tries.refused {a : Performer → Action Unit} {place : Option Location}
    (tries : w.Tries u a place v fun e => ∃ c, e = .access c) :
    w.Tries u (fun self => (a self).mapError BindError.refused) place v
      fun e => ∃ f, e = .inversion f := by
  refine Leads.mapError (tries.mono ?_)
  rintro r u' ⟨held, ⟨ℓ, there, takes, rfl, puts⟩ | ⟨⟨e, rfl, ⟨c, rfl⟩, not⟩, surveys⟩⟩
  · exact ⟨held, .inl ⟨ℓ, there, takes, rfl, puts⟩⟩
  · exact ⟨held, .inr ⟨⟨_, rfl, ⟨_, rfl⟩, not⟩, surveys⟩⟩

theorem setAttr_tries (backs : w.Backs s) (surveys : w.Surveys u) (grasps : w.Grasps b)
    (stands : w.Stands u s b x) (near : ∀ h ∈ v.handles, w.isLive h = true)
    (free : ∀ p, w.supplierOf? s name b = some p → w.Free ⟨p, name⟩) :
    w.Tries u (fun self => setAttr self x name v)
      ((w.supplierOf? s name b).map fun p => .attr ⟨p, name⟩) v fun e => ∃ c, e = .access c := by
  cases b with
  | value y =>
    obtain rfl : x = y := stands
    cases x with
    | object o =>
      exact assign_tries backs.descends backs.intact surveys (grasps _ (List.mem_singleton_self _))
        near free
    | _ => exact Leads.read (surveys.fails ⟨_, rfl⟩)
  | around =>
    obtain ⟨o, rfl, entity, young⟩ := stands
    refine Leads.read ?_
    rw [entity]
    refine Leads.read ?_
    rw [(surveys.resembles backs.descends).nearest? backs.descends
      (backs.intact.includes backs.owner) backs.owner]
    simp only [supplierOf?] at free ⊢
    cases near' : w.nearest? s.owner name with
    | none => exact Leads.read (surveys.fails ⟨_, rfl⟩)
    | some q =>
      rw [near'] at free
      refine surveys.tries (fun h mem => .inr (List.mem_singleton.1 mem ▸ young)) fun surveys₁ => ?_
      exact Leads.request (assign_tries backs.descends backs.intact surveys₁
        (isLive_of_nearest? backs.owner near') near free)

theorem setName_tries (backs : w.Backs s) (surveys : w.Surveys u) (plain : isReserved name = false)
    (near : ∀ h ∈ v.handles, w.isLive h = true)
    (free : ∀ p, (Target.name name).location? w s = some (.attr ⟨p, name⟩) → w.Free ⟨p, name⟩) :
    w.Tries u (fun self => setName self s name v) ((Target.name name).location? w s) v
      fun e => ∃ c, e = .access c := by
  simp only [Target.location?, plain, Bool.false_eq_true, if_false] at free ⊢
  unfold setName
  rw [plain]
  refine Leads.read ?_
  rw [(surveys.resembles backs.descends).nearest? backs.descends
    (backs.intact.includes backs.owner) backs.owner]
  cases near' : w.nearest? s.owner name with
  | some o =>
    rw [near'] at free
    refine assign_tries backs.descends backs.intact surveys
      (isLive_of_nearest? backs.owner near') near fun p supplier => free p ?_
    dsimp only
    rw [supplier, Option.map_some]
  | none =>
    have there : s.locals.index < u.layers.size := by
      rw [surveys.layers]
      exact backs.intact.includes (backs.isLive (List.mem_cons_of_mem _ List.mem_cons_self))
    have done : LiveBinding.storeLocal s.locals name v u =
        some (.ok (), u.modifyLayer s.locals (·.insert name v)) := rfl
    exact Leads.of_eq (fun _ => done)
      ⟨rfl, .inl ⟨_, rfl, trivial, rfl, surveys.put_slot near there⟩⟩

theorem place?_lt {i : Int64} {length n : Nat} (place : place? i length = some n) : n < length := by
  obtain ⟨inside, same⟩ := Option.ite_none_right_eq_some.1 place
  cases same
  omega

theorem setItem_tries {key : Value} (backs : w.Backs s) (surveys : w.Surveys u)
    (grasps : w.Grasps b) (stands : w.Stands u s b x) (near : ∀ h ∈ v.handles, w.isLive h = true) :
    w.Tries u (fun _ => LiveBinding.setItem x key v) (w.spot b key) v fun e => ∃ c,
      e = .access c := by
  -- what comes of refusing
  have refuses {e : BindError} (run : u.setItem x key v = .error e) (access : ∃ c, e = .access c) :
      w.Tries u (fun _ => LiveBinding.setItem x key v) none v fun e => ∃ c, e = .access c := by
    refine Leads.congr (fun _ => ?_) (surveys.fails access)
    rw [LiveBinding.setItem, run]
    rfl
  cases b with
  | around =>
    obtain ⟨o, rfl, _⟩ := stands
    exact refuses rfl ⟨_, rfl⟩
  | value y =>
    obtain rfl : x = y := stands
    cases x with
    | list r =>
      cases key with
      | int i =>
        have items : w.items r = u.items r := by rw [World.items, World.items, surveys.lists]
        simp only [spot, items]
        cases place : place? i (u.items r).length with
        | none =>
          refine refuses (e := u.badKey (.list r) (.int i)) ?_ ⟨_, rfl⟩
          simp only [World.setItem, place]
        | some n =>
          have inside := place?_lt place
          rw [Option.map_some]
          have done : LiveBinding.setItem (.list r) (.int i) v u =
              some (.ok (), u.modifyList r (·.set n v)) := by
            simp only [LiveBinding.setItem, World.setItem, place]
          have puts := surveys.put_item near inside
          exact Leads.of_eq (fun _ => done) ⟨rfl, .inl ⟨_, rfl, trivial, rfl, puts⟩⟩
      | _ => exact refuses rfl ⟨_, rfl⟩
    | map r =>
      cases key with
      | str key =>
        have there : r.index < u.maps.size := by
          rw [surveys.maps]
          exact backs.intact.includes (grasps _ (List.mem_singleton_self _))
        have done : LiveBinding.setItem (.map r) (.str key) v u =
            some (.ok (), u.modifyMap r (·.insert key v)) := rfl
        have puts : w.Puts (.entry r key) v _ := surveys.put_entry near there
        exact Leads.of_eq (fun _ => done) ⟨rfl, .inl ⟨_, rfl, trivial, rfl, puts⟩⟩
      | _ => exact refuses rfl ⟨_, rfl⟩
    | _ => exact refuses rfl ⟨_, rfl⟩

theorem Free.quiet {d : Dependency} (free : w.Free d) : w.handlerOf? d = none := by
  rw [handlerOf?, Option.bind_eq_none_iff]
  intro e engine
  rw [free.unbound e engine]
  rfl

/-- The base of a target is found, or there is no assignment. -/
theorem resolve_tries {base : Path} {a : Performer → Value → Action Unit} {place : Option Location}
    (backs : w.Backs s) (surveys : w.Surveys u) (free : ∀ d ∈ (w.lead s base).1, w.Free d)
    (nowhere : (w.lead s base).2 = none → place = none)
    (next : ∀ b x u', (w.lead s base).2 = some b → w.Surveys u' → w.Stands u' s b x →
      w.Tries u' (fun self => a self x) place v fun e => ∃ f, e = .inversion f) :
    w.Tries u (fun self => resolve self s base >>= a self) place v
      fun e => ∃ f, e = .inversion f := by
  refine Leads.bind ((backs.resolve_finds surveys fun d mem => (free d mem).quiet).mono ?_)
  rintro r u₁ ⟨found, surveys₁, held₁⟩
  cases leads : (w.lead s base).2 with
  | none =>
    rw [leads] at found
    obtain ⟨c, rfl⟩ := found
    rw [nowhere leads]
    exact ⟨held₁, .inr ⟨⟨_, rfl, ⟨c, rfl⟩, fun _ there => nomatch there⟩, surveys₁⟩⟩
  | some b =>
    rw [leads] at found
    obtain ⟨x, rfl, stands⟩ := found
    refine (next b x u₁ leads surveys₁ stands).mono ?_
    exact fun r u' ⟨held, tries⟩ => ⟨held.trans held₁, tries⟩

/-- What becomes of an assignment through a call once it is known whether the function reads
attributes. -/
def assignGiven (self : Performer) (v : Value) (function : String) (args : List Value)
    (invertible : Bool) : Action Unit :=
  if invertible then
    match args with
    | [o, .str name] => (setAttr self o name v).mapError BindError.refused
    | _ => Action.throw (.inversion .badArguments)
  else Action.throw (.inversion (.notInvertible function))

/-- A call is assigned to if it reads an attribute of what it is given. -/
theorem assignGiven_tries {function : String} {args : List Value} {invertible : Bool}
    (backs : w.Backs s) (surveys : w.Surveys u)
    (given : ∀ h ∈ args.flatMap Value.handles, w.isLive h = true)
    (near : ∀ h ∈ v.handles, w.isLive h = true)
    (free : ∀ a, (if invertible then w.given? s args else none) = some (.attr a) → w.Free a) :
    w.Tries u (fun self => assignGiven self v function args invertible)
      (if invertible then w.given? s args else none) v fun e => ∃ f, e = .inversion f := by
  cases invertible with
  | false => exact surveys.fails ⟨_, rfl⟩
  | true =>
    simp only [assignGiven, if_true] at free ⊢
    split
    · next o n =>
      have grasps : w.Grasps (.value o) := fun h mem => given h (List.mem_append_left _ mem)
      refine (setAttr_tries backs surveys grasps rfl near fun p supplier => free _ ?_).refused
      rw [given?, supplier, Option.map_some]
    · next other =>
      have nothing : w.given? s args = none := by
        unfold given?
        split
        · next o n => exact absurd rfl (other o n)
        · rfl
      rw [nothing]
      exact surveys.fails ⟨_, rfl⟩

theorem Surveys.invertible (surveys : w.Surveys u) {f : Value} (stands : w.Stands u s b f) :
    u.reads f = w.invertible (some b) := by
  cases b with
  | around =>
    obtain ⟨o, rfl, _⟩ := stands
    rfl
  | value y =>
    obtain rfl : f = y := stands
    cases f with
    | native n => rw [World.invertible, reads, reads, nativeName, nativeName, surveys.natives]
    | _ => rfl

theorem callTarget_tries {function : String} {args : List Value} (backs : w.Backs s)
    (surveys : w.Surveys u) (given : ∀ h ∈ args.flatMap Value.handles, w.isLive h = true)
    (near : ∀ h ∈ v.handles, w.isLive h = true)
    (way : ∀ d ∈ (w.meaning s function).1, w.Free d)
    (free : ∀ a, (Target.call function args).location? w s = some (.attr a) → w.Free a) :
    w.Tries u (fun self => assignTarget self s v (.call function args))
      ((Target.call function args).location? w s) v fun e => ∃ f, e = .inversion f := by
  rw [Target.location?] at free ⊢
  have quiet : ∀ d ∈ (w.meaning s function).1, w.handlerOf? d = none := fun d mem =>
    (way d mem).quiet
  refine Leads.bind (Leads.mapError ((backs.getName_finds surveys quiet).mono ?_))
  rintro r u₁ ⟨found, surveys₁, held₁⟩
  cases means : (w.meaning s function).2 with
  | none =>
    rw [means] at found
    subst found
    exact ⟨held₁, .inr ⟨⟨_, rfl, ⟨_, rfl⟩, fun _ there => nomatch there⟩, surveys₁⟩⟩
  | some b =>
    rw [means] at found free
    obtain ⟨f, rfl, stands⟩ := found
    rw [← surveys₁.invertible stands] at free ⊢
    refine Leads.read (Leads.mono (a := fun self => assignGiven self v function args (u₁.reads f))
      (assignGiven_tries backs surveys₁ given near free) ?_)
    exact fun r u' ⟨held, tries⟩ => ⟨held.trans held₁, tries⟩

/-- An assignment through a target puts the value in the place that the target denotes, or it fails
and says why. -/
theorem assignTarget_tries (equips : w.Equips s target v)
    (free : ∀ d ∈ target.touched w s, w.Free d) (surveys : w.Surveys u) :
    w.Tries u (fun self => assignTarget self s v target) (target.location? w s) v
      fun e => ∃ f, e = .inversion f := by
  have backs := equips.toBacks
  have near : ∀ h ∈ v.handles, w.isLive h = true := fun h mem =>
    isLive_of_mem_roots (equips.value h mem)
  -- the place itself is free, and so is all that is consulted to find it
  have place (a : Dependency) (there : target.location? w s = some (.attr a)) : w.Free a := by
    refine free a (List.mem_append_right _ ?_)
    rw [there]
    exact List.mem_singleton_self _
  have way (d : Dependency) (mem : d ∈ target.consulted w s) : w.Free d :=
    free d (List.mem_append_left _ mem)
  cases target with
  | name n =>
    cases reserved : isReserved n with
    | true =>
      rw [Target.location?, reserved]
      refine Leads.congr (fun self => ?_) (surveys.fails ⟨.reserved n, rfl⟩)
      rw [assignTarget, reserved]
      rfl
    | false =>
      refine Leads.congr (fun self => ?_)
        (setName_tries backs surveys reserved near fun p => place ⟨p, n⟩).refused
      rw [assignTarget, reserved]
      rfl
  | attr base n =>
    have location {b : Base} (leads : (w.lead s base).2 = some b) :
        (Target.attr base n).location? w s = (w.supplierOf? s n b).map fun p => .attr ⟨p, n⟩ := by
      rw [Target.location?, leads]
      rfl
    refine resolve_tries backs surveys way (fun leads => ?_) fun b x u₁ leads surveys₁ stands => ?_
    · rw [Target.location?, leads]
      rfl
    · rw [location leads] at place ⊢
      refine (setAttr_tries backs surveys₁ (backs.grasps_of_lead leads) stands near
        fun p supplier => place _ ?_).refused
      rw [supplier, Option.map_some]
  | item base key =>
    have location {b : Base} (leads : (w.lead s base).2 = some b) :
        (Target.item base key).location? w s = w.spot b key := by
      rw [Target.location?, leads]
      rfl
    refine resolve_tries backs surveys way (fun leads => ?_) fun b x u₁ leads surveys₁ stands => ?_
    · rw [Target.location?, leads]
      rfl
    · rw [location leads]
      exact (setItem_tries backs surveys₁ (backs.grasps_of_lead leads) stands near).refused
  | call function args =>
    have given : ∀ h ∈ args.flatMap Value.handles, w.isLive h = true := fun h mem =>
      isLive_of_mem_roots (equips.target h mem)
    exact callTarget_tries backs surveys given near way place
  | unsupported shape => exact surveys.fails ⟨_, rfl⟩

/-- Something is logged. -/
theorem Surveys.log (surveys : w.Surveys u) (e : LogEntry) : w.Surveys (u.addEntry e) :=
  ⟨⟨surveys.confines.roots, surveys.confines.edges⟩, surveys.roots, surveys.edges, surveys.entity,
    surveys.new, surveys.lists, surveys.maps, surveys.layers, surveys.natives, surveys.registries,
    surveys.engines, surveys.desk⟩

theorem invert_tries (equips : w.Equips s target v) (free : ∀ d ∈ target.touched w s, w.Free d) :
    w.Tries w (fun self => self Unit (.invert s target v)) (target.location? w s) v
      fun e => ∃ f, e = .inversion f := by
  have near : ∀ h ∈ target.handles ++ v.handles, w.isLive h = true ∨ w.Young h := by
    intro h mem
    exact .inl (isLive_of_mem_roots
      ((List.mem_append.1 mem).elim (equips.target h) (equips.value h)))
  have assigns := (Surveys.refl w).tries near fun surveys => assignTarget_tries equips free surveys
  refine Leads.request (Leads.seq (Leads.attempt (assigns.mono ?_)))
  rintro r u ⟨held, tries⟩
  refine ⟨r, rfl, ?_⟩
  rcases tries with ⟨ℓ, there, takes, rfl, puts⟩ | ⟨⟨e, rfl, why⟩, surveys⟩
  · exact Leads.pure ⟨held, .inl ⟨ℓ, there, takes, rfl, puts⟩⟩
  · exact Leads.read (Leads.log (Leads.throw ⟨held, .inr ⟨⟨e, rfl, why⟩, surveys.log _⟩⟩))

/-! ### Reading it back -/

/-- What is held after an assignment is there. -/
theorem Puts.backs (backs : w.Backs s) (puts : w.Puts ℓ v u) (descends : u.Descends)
    (held : u.held = w.held) : u.Backs s where
  descends := descends
  intact h held' := by
    have roots : u.roots = w.roots := by rw [World.roots, World.roots, held, puts.desk]
    have before : w.Includes h := by
      rcases held' with root | ⟨g, edge⟩
      · exact backs.intact h (.inl (roots ▸ root))
      · rcases puts.confines.edges edge with edge | live
        · exact backs.intact h (.inr ⟨g, edge⟩)
        · exact backs.intact.includes live
    cases h with
    | object o => exact Nat.lt_of_lt_of_le before puts.objects
    | map r => exact Nat.lt_of_lt_of_eq before puts.maps.symm
    | layer l => exact Nat.lt_of_lt_of_eq before puts.layers.symm
    | _ => trivial
  held h mem := puts.roots h (backs.held h mem)

/-- An assignment by which no parent is lost leaves everything to be found where it was. -/
theorem Puts.resembles (descends : w.Descends) (puts : w.Puts ℓ v u)
    (kept : ∀ o p, w.isLive (.object o) = true → w.parent? o = some p → u.parent? o = some p) :
    w.Resembles u where
  object := puts.object
  parent {o} old live := by
    cases parent : w.parent? o with
    | some p => exact kept o p live parent
    | none =>
      have same : (u.declared? o).bind Declared.parent = (w.declared? o).bind Declared.parent := by
        have object := puts.object old
        simp only [World.declared?]
        generalize w.entity? o = x, u.entity? o = x' at object
        cases object with
        | same x => rfl
        | declared fixed => exact fixed.parent
      rw [parent?, same]
      rw [parent?] at parent
      cases declared : (w.declared? o).bind Declared.parent with
      | none => rfl
      | some p =>
        -- the parent was gone before, and it does not come back
        obtain ⟨d, known, older⟩ := Option.bind_eq_some_iff.1 declared
        rw [declared, Option.filter_some] at parent
        have gone : ¬ w.isLive (.object p) = true := by
          intro live
          rw [if_pos live] at parent
          cases parent
        have younger := descends.parent known older
        have away : u.Dropped (.object p) := by
          refine puts.confines.dropped ?_ fun young => ?_
          · by_contra stays
            exact gone (isLive_iff.2 stays)
          · exact absurd (Nat.lt_trans younger old) (Nat.not_lt_of_le young)
        rw [Option.filter_some, if_neg fun live => isLive_iff.1 live away]

/-- A read binding would have been there before. -/
theorem Puts.handlerOf? (puts : w.Puts ℓ v u) {d : Dependency}
    (old : d.object.index < w.objects.size) : u.handlerOf? d = w.handlerOf? d := by
  have engine : u.engineOf? d.object = w.engineOf? d.object := by
    have object := puts.object old
    simp only [World.engineOf?, World.declared?]
    generalize w.entity? d.object = x, u.entity? d.object = x' at object
    cases object with
    | same x => rfl
    | declared fixed => exact fixed.engine
  simp only [World.handlerOf?, engine, World.engine, puts.engines]

/-- What has been put somewhere is there, or something equal. -/
theorem Puts.exists_content (puts : w.Puts ℓ v u) :
    ∃ x, u.content ℓ = some x ∧ (x = v ∨ u.equal x v = true) := by
  rcases puts.here with here | ⟨same, old, before, equal⟩
  · exact ⟨v, here, .inl rfl⟩
  · exact ⟨old, same.trans before, .inr equal⟩

end World

/-! ### Reading the expression -/

namespace World
variable {w w' : World} {s : Scope} {b : Base} {x : Value} {ℓ : Location} {name : String}
  {p : ObjectId}

/-- A value is consulted where it has been put. -/
theorem consult_of_content (supplier : w.supplierOf? s name b = some p)
    (here : w.content (.attr ⟨p, name⟩) = some x) : w.consult s b name = some (⟨p, name⟩, x) := by
  rw [consult, supplier, Option.bind_some, glance_of_valueOf? (a := ⟨p, name⟩) here,
    Option.map_some]

/-- What is put somewhere is read from there. -/
structure Rereads (s : Scope) (w w' : World) (ℓ : Location) (x : Value) : Prop where
  before : w.Backs s
  after : w'.Backs s
  alike : w.Resembles w'
  others : ∀ ℓ', ℓ' ≠ ℓ → w'.content ℓ' = w.content ℓ'
  here : w'.content ℓ = some x

namespace Rereads
variable (rereads : Rereads s w w' ℓ x)
include rereads

theorem getName (plain : isReserved name = false)
    (location : (Target.name name).location? w s = some ℓ) (apart : (Target.name name).Apart w s ℓ)
    (quiet : ∀ d, ℓ = .attr d → w'.handlerOf? d = none) :
    Leads w' (fun self => LiveBinding.getName self s name) fun r _ => r = .ok x := by
  have ordinary : (Reserved.ofName? name).bind s.base? = none := by
    rw [isReserved, Option.isSome_eq_false_iff, Option.isNone_iff_eq_none] at plain
    rw [plain, Option.bind_none]
  -- the value is the meaning of the name, and no binding is asked for it
  have means : (w'.meaning s name).2 = some (.value x) ∧
      ∀ d ∈ (w'.meaning s name).1, w'.handlerOf? d = none := by
    simp only [Target.location?, plain, Bool.false_eq_true, if_false] at location
    unfold meaning
    rw [ordinary]
    cases near : w.nearest? s.owner name with
    | none =>
      rw [near] at location
      cases location
      have stored : (w'.layer s.locals).get? name = some x := rereads.here
      rw [stored]
      exact ⟨rfl, List.forall_mem_nil _⟩
    | some o =>
      rw [near] at location
      obtain ⟨p, supplier, rfl⟩ := Option.map_eq_some_iff.1 location
      have unset : (w'.layer s.locals).get? name = none := by
        refine (rereads.others (.slot s.locals name) (by simp)).trans ?_
        rcases apart with unset | missing
        · exact unset
        · cases near.symm.trans missing
      have around : w'.supplierOf? s name .around = some p := by
        rw [rereads.alike.supplierOf? (b := .around) rereads.before rereads.after.descends trivial,
          supplierOf?, near]
        exact supplier
      rw [unset]
      dsimp only
      rw [consult_of_content around rereads.here]
      exact ⟨rfl, fun d mem => List.mem_singleton.1 mem ▸ quiet _ rfl⟩
  refine (rereads.after.getName_finds (Surveys.refl w') means.2).mono ?_
  rintro r u ⟨found, _⟩
  rw [means.1] at found
  obtain ⟨y, rfl, rfl⟩ := found
  rfl

theorem supplierOf? (grasps : w.Grasps b) : w'.supplierOf? s name b = w.supplierOf? s name b :=
  rereads.alike.supplierOf? rereads.before rereads.after.descends grasps

/-- A path leads where it did. -/
theorem lead {base : Path} (apart : ∀ d ∈ (w.lead s base).1, ℓ ≠ .attr d)
    (stored : ∀ l n, ℓ ≠ .slot l n) : w'.lead s base = w.lead s base := by
  refine rereads.alike.lead rereads.before rereads.after.descends ?_ fun d mem => ?_
  · exact rereads.others (.slot s.locals base.root) (stored _ _).symm
  · exact rereads.others (.attr d) (apart d mem).symm

theorem resolve {base : Path} (leads : (w.lead s base).2 = some b)
    (same : w'.lead s base = w.lead s base)
    (quiet : ∀ d ∈ (w.lead s base).1, w'.handlerOf? d = none) :
    Leads w' (fun self => LiveBinding.resolve self s base) fun r u =>
      ∃ y, r = .ok y ∧ w'.Stands u s b y ∧ w'.Surveys u := by
  rw [← same] at quiet leads
  refine (rereads.after.resolve_finds (Surveys.refl w') quiet).mono ?_
  rintro r u ⟨found, surveys, _⟩
  rw [leads] at found
  obtain ⟨y, rfl, stands⟩ := found
  exact ⟨y, rfl, stands, surveys⟩

/-- The attribute of a base shows what has been put there. -/
theorem getAttr {u : World} {y : Value} (surveys : w'.Surveys u) (grasps : w'.Grasps b)
    (stands : w'.Stands u s b y) (supplier : w'.supplierOf? s name b = some p)
    (location : ℓ = .attr ⟨p, name⟩) (quiet : w'.handlerOf? ⟨p, name⟩ = none) :
    Leads u (fun self => LiveBinding.getAttr self y name) fun r _ => r = .ok x := by
  have looks : w'.Looks name (w'.supplierOf? s name b) := by
    intro q found _
    rw [supplier] at found
    cases found
    exact quiet
  refine (rereads.after.getAttr_finds surveys grasps stands looks).mono ?_
  rintro r u' ⟨gives, _⟩
  have here := rereads.here
  rw [location] at here
  rw [supplier, look, Option.bind_some, glance_of_valueOf? (a := ⟨p, name⟩) here] at gives
  exact gives

/-- Replacing an item does not make a list longer or shorter. -/
theorem length_items {r : ListRef} {n : Nat} (location : ℓ = .item r n)
    (inside : n < (w.items r).length) : (w'.items r).length = (w.items r).length := by
  have inside' : n < (w'.items r).length := by
    have here := rereads.here
    rw [location] at here
    exact (List.getElem?_eq_some_iff.1 here).1
  have same (m : Nat) : (w'.items r).length ≤ m ↔ (w.items r).length ≤ m := by
    by_cases this : m = n
    · rw [this]
      exact iff_of_false (Nat.not_le_of_lt inside') (Nat.not_le_of_lt inside)
    · have other := rereads.others (.item r m) fun same => this (by
        rw [location] at same
        cases same
        rfl)
      have other : (w'.items r)[m]? = (w.items r)[m]? := other
      rw [← List.getElem?_eq_none_iff, other, List.getElem?_eq_none_iff]
  have first := same (w'.items r).length
  have second := same (w.items r).length
  omega

theorem getItem {u : World} {y key : Value} (surveys : w'.Surveys u) (stands : w'.Stands u s b y)
    (location : w.spot b key = some ℓ) : u.getItem y key = .ok x := by
  have here := rereads.here
  unfold spot at location
  split at location
  · next r i =>
    obtain ⟨n, place, rfl⟩ := Option.map_eq_some_iff.1 location
    obtain rfl : y = .list r := stands
    have items : u.items r = w'.items r := by rw [World.items, World.items, surveys.lists]
    have there : (w'.items r)[n]? = some x := here
    simp only [World.getItem, items, rereads.length_items rfl (place?_lt place), place,
      Option.bind_some, there]
  · next r k =>
    cases location
    obtain rfl : y = .map r := stands
    have entries : u.entries r = w'.entries r := by rw [World.entries, World.entries, surveys.maps]
    have there : (w'.entries r).get? k = some x := here
    simp only [World.getItem, entries, there]
  · cases location

/-- What is put where an expression denotes is what the expression evaluates to. -/
theorem read {target : Target} (location : target.location? w s = some ℓ)
    (apart : target.Apart w s ℓ) (given : ∀ h ∈ target.handles, w.isLive h = true ∧
      w'.isLive h = true)
    (quiet : ∀ d ∈ target.touched w s, w'.handlerOf? d = none) :
    Leads w' (fun self => target.read self s) fun r _ => r = .ok x := by
  have way {d : Dependency} (mem : d ∈ target.consulted w s) : w'.handlerOf? d = none :=
    quiet d (List.mem_append_left _ mem)
  have place {d : Dependency} (same : ℓ = .attr d) : w'.handlerOf? d = none := by
    refine quiet d (List.mem_append_right _ ?_)
    rw [location, same]
    exact List.mem_singleton_self _
  cases target with
  | name n =>
    refine rereads.getName ?_ location apart fun d => place
    rw [Target.location?] at location
    split at location
    · cases location
    · next plain => exact Bool.eq_false_iff.2 plain
  | attr base n =>
    obtain ⟨b, leads, location⟩ := Option.bind_eq_some_iff.1 location
    obtain ⟨p, supplier, rfl⟩ := Option.map_eq_some_iff.1 location
    have same := rereads.lead apart fun _ _ same => nomatch same
    refine Leads.seq ((rereads.resolve leads same fun d => way).mono ?_)
    rintro r u ⟨y, rfl, stands, surveys⟩
    have grasps := rereads.before.grasps_of_lead leads
    have supplier' := (rereads.supplierOf? grasps).trans supplier
    rw [← same] at leads
    exact ⟨y, rfl, rereads.getAttr surveys (rereads.after.grasps_of_lead leads) stands supplier' rfl
      (place rfl)⟩
  | item base key =>
    obtain ⟨b, leads, location⟩ := Option.bind_eq_some_iff.1 location
    have same := rereads.lead apart fun l n same => by
      subst same
      unfold spot at location
      split at location
      · obtain ⟨_, _, other⟩ := Option.map_eq_some_iff.1 location
        cases other
      · cases location
      · cases location
    refine Leads.seq ((rereads.resolve leads same fun d => way).mono ?_)
    rintro r u ⟨y, rfl, stands, surveys⟩
    have got := rereads.getItem surveys stands location
    exact ⟨y, rfl, Leads.of_eq (fun _ => congrArg (fun r => some (r, u)) got) rfl⟩
  | call function args =>
    obtain ⟨_, location⟩ := Option.ite_none_right_eq_some.1 location
    unfold given? at location
    split at location
    · next o n _ =>
      obtain ⟨p, supplier, rfl⟩ := Option.map_eq_some_iff.1 location
      have grasps : w.Grasps (.value o) := fun h mem => (given h (List.mem_append_left _ mem)).1
      have grasps' : w'.Grasps (.value o) := fun h mem => (given h (List.mem_append_left _ mem)).2
      have supplier' := (rereads.supplierOf? grasps).trans supplier
      exact rereads.getAttr (Surveys.refl w') grasps' rfl supplier' rfl (place rfl)
    · cases location
  | unsupported shape => cases location

end Rereads

theorem Puts.quiet {v : Value} (puts : w.Puts ℓ v w') {d : Dependency}
    (quiet : w.handlerOf? d = none) : w'.handlerOf? d = none := by
  by_cases old : d.object.index < w.objects.size
  · rw [puts.handlerOf? old, quiet]
  · rw [World.handlerOf?, engineOf?, puts.new (Nat.le_of_not_lt old)]
    rfl

theorem intact_iff : w.Intact ↔
    (∀ h ∈ w.roots, w.Includes h) ∧ ∀ g ∈ w.holders, ∀ h ∈ w.holds g, w.Includes h := by
  constructor
  · exact fun intact => ⟨fun h root => intact h (.inl root),
      fun g there h held => intact h (.inr ⟨g, there, held⟩)⟩
  · rintro ⟨roots, edges⟩ h (root | ⟨g, there, held⟩)
    · exact roots h root
    · exact edges g there h held

end World

/-- **An assignment through an expression changes one place, and the expression then has the
value.** Whoever assigns holds the scope, the target and the value, and nothing that the target has
to do with is bound or observed. Then the assignment comes to an end. Either it succeeds: nothing
has another value than before except for the place that the target denoted, and there is the value,
or one that equals it. Or it is refused with the reason why there is no inverse, and everything has
the value it had. After a success the expression evaluates to what is in that place, provided that
the place does not decide itself what the base of the target is, that a name is not both a variable
and an attribute, and that no object that is held loses its parent: a parent is gone when the value
that has been replaced was the last to hold it. -/
theorem inversion_is_an_assignment {w : World} {s : Scope} {target : Target} {v : Value}
    (equips : w.Equips s target v) (free : ∀ d ∈ target.touched w s, w.Free d) :
    Leads w (fun self => self Unit (.invert s target v)) fun r w' =>
      (r = .ok () ∧ ∃ ℓ x, target.location? w s = some ℓ ∧ w.Takes ℓ ∧ w'.content ℓ = some x ∧
        (x = v ∨ w'.equal x v = true) ∧ (∀ ℓ', ℓ' ≠ ℓ → w'.content ℓ' = w.content ℓ') ∧
        ((∀ o p, w.isLive (.object o) = true → w.parent? o = some p → w'.parent? o = some p) →
          target.Apart w s ℓ → Leads w' (fun self => target.read self s) fun r _ => r = .ok x)) ∨
      (∃ f, r = .error (.inversion f)) ∧ (∀ ℓ, target.location? w s = some ℓ → ¬w.Takes ℓ) ∧
        ∀ ℓ, w'.content ℓ = w.content ℓ := by
  have keeps := (World.invert_tries equips free).keeps fun n =>
    World.frame_descends.perform n (.invert s target v) w
  refine keeps.mono ?_
  rintro r w' ⟨⟨held, tries⟩, -, descends⟩
  rcases tries with ⟨ℓ, location, takes, rfl, puts⟩ | ⟨⟨e, rfl, ⟨f, rfl⟩, nowhere⟩, surveys⟩
  · obtain ⟨x, here, same⟩ := puts.exists_content
    refine .inl ⟨rfl, ℓ, x, location, takes, here, same, puts.others, fun kept apart => ?_⟩
    have backs := equips.toBacks
    have rereads : World.Rereads s w w' ℓ x :=
      ⟨backs, puts.backs backs (descends backs.descends) held, puts.resembles backs.descends kept,
        puts.others, here⟩
    refine rereads.read location apart (fun h mem => ?_) fun d mem => puts.quiet (free d mem).quiet
    have root := equips.target h mem
    exact ⟨World.isLive_of_mem_roots root, World.isLive_of_mem_roots (puts.roots h root)⟩
  · exact .inr ⟨⟨f, rfl⟩, nowhere, surveys.content⟩

namespace lastScore

/-- A player has a game, which keeps its scores in a list. -/
def session : Program Unit := do
  let scores ← .request (.newList [.int 1, .int 2, .int 3])
  let game ← .request (.newObject
    { typeName := "Game", parent := none, attributes := .ofList [("scores", scores)], members := []
      constants := .empty, storage := .empty, config := none })
  let player ← .request (.newObject
    { typeName := "Player", parent := none, attributes := .ofList [("game", .object game)]
      members := [], constants := .empty, storage := .empty, config := none })
  let l ← .request (.newLayer .empty)
  .request (.keep "round" (.scope ⟨player, l, ⟨.empty, .empty⟩, none, none⟩))

def start : World := (session.run (perform 12) (.initial #[])).elim (.initial #[]) Prod.snd

theorem reachable : Reachable start := (Reachable.start #[]).final 12 session

def scope : Scope := ⟨⟨1⟩, ⟨0⟩, ⟨.empty, .empty⟩, none, none⟩

/-- The last of the scores. -/
def target : Target := .item ⟨"game", ["scores"]⟩ (.int (-1))

theorem aims_at_third : target.location? start scope = some (.item ⟨0⟩ 2) ∧
    target.touched start scope = [⟨⟨1⟩, "game"⟩, ⟨⟨0⟩, "scores"⟩] ∧
    (∀ d ∈ target.touched start scope,
      start.engineOf? d.object = none ∧ start.liveObservers (start.observersOf d) = []) ∧
    (∀ h ∈ scope.handles, h ∈ start.roots) ∧ start.content (.item ⟨0⟩ 0) = some (.int 1) ∧
    start.objects.size = 2 ∧ ∀ i < 2, start.parent? ⟨i⟩ = none := by
  decide +kernel

theorem equips : start.Equips scope target (.int 9) where
  descends := World.descends_of_reachable reachable
  intact := World.intact_iff.2 (by decide +kernel)
  held := by
    obtain ⟨-, -, -, held, -⟩ := aims_at_third
    exact held
  target _ mem := nomatch mem
  value _ mem := nomatch mem

theorem parents (o : ObjectId) : start.parent? o = none := by
  obtain ⟨-, -, -, -, -, size, parentless⟩ := aims_at_third
  by_cases there : o.index < 2
  · exact parentless o.index there
  · have unknown := start.declared?_of_size_le (o := o) (by rw [size]; omega)
    rw [World.parent?, unknown]
    rfl

/-- Another number becomes the last score, the first stays what it is, and the expression has the
number as its value. -/
theorem reads_nine : Leads start (fun self => self Unit (.invert scope target (.int 9))) fun r w' =>
    r = .ok () ∧ w'.content (.item ⟨0⟩ 0) = some (.int 1) ∧
      ∃ x, w'.content (.item ⟨0⟩ 2) = some x ∧ (x = .int 9 ∨ w'.equal x (.int 9) = true) ∧
        Leads w' (fun self => target.read self scope) fun r _ => r = .ok x := by
  obtain ⟨location, touched, free, _, first, _⟩ := aims_at_third
  have inverts := inversion_is_an_assignment equips fun d mem =>
    ⟨fun e engine => (nomatch (free d mem).1.symm.trans engine), (free d mem).2⟩
  refine inverts.mono ?_
  rintro r w' (⟨ok, ℓ, x, there, _, here, same, others, reads⟩ | ⟨_, nowhere, _⟩)
  · cases location.symm.trans there
    refine ⟨ok, (others _ (by decide)).trans first, x, here, same, reads ?_ ?_⟩
    · exact fun o p _ parent => nomatch (parents o).symm.trans parent
    · exact fun d _ same => nomatch same
  · exact absurd trivial (nowhere _ location)

end lastScore

namespace orphan

/-- A parent that only its own attribute holds, and a child that somebody holds. -/
def session : Program Unit := do
  let p ← .request (.newObject
    { typeName := "Item", parent := none, attributes := .ofList [("x", .int 0)], members := []
      constants := .empty, storage := .empty, config := none })
  .request (.keep "p" (.object p))
  .request (.setAttr (.object p) "x" (.object p))
  let o ← .request (.newObject
    { typeName := "Item", parent := some p, attributes := .empty, members := []
      constants := .empty, storage := .empty, config := none })
  .request (.release .objects "p")
  let l ← .request (.newLayer .empty)
  .request (.keep "s" (.scope ⟨o, l, ⟨.empty, .empty⟩, none, none⟩))

def start : World := (session.run (perform 12) (.initial #[])).elim (.initial #[]) Prod.snd

theorem reachable : Reachable start := (Reachable.start #[]).final 12 session

def scope : Scope := ⟨⟨2⟩, ⟨0⟩, ⟨.empty, .empty⟩, none, none⟩

def after : World := (perform 12 _ (.invert scope (.name "x") (.int 5)) start).elim start Prod.snd

theorem assigned_but_unread : (Target.name "x").touched start scope = [⟨⟨0⟩, "x"⟩] ∧
    start.engineOf? ⟨0⟩ = none ∧ start.liveObservers (start.observersOf ⟨⟨0⟩, "x"⟩) = [] ∧
    (∀ h ∈ scope.handles, h ∈ start.roots) ∧
    (Target.name "x").location? start scope = some (.attr ⟨⟨0⟩, "x"⟩) ∧
    (start.layer scope.locals).get? "x" = none ∧
    (perform 12 _ (.invert scope (.name "x") (.int 5)) start).map (·.1.isOk) = some true ∧
    after.content (.attr ⟨⟨0⟩, "x"⟩) = some (.int 5) ∧
    ((Target.name "x").read (perform 12) scope after).map
      (·.1 matches .error (.nameResolution "x")) = some true := by
  decide +kernel

/-- A name is assigned to that is an attribute of the owner's parent and no variable, and neither
bound nor observed. With the value that is replaced, the parent goes, and the name means nothing. -/
theorem means_nothing : start.Equips scope (.name "x") (.int 5) ∧
    (∀ d ∈ (Target.name "x").touched start scope, start.Free d) ∧
    (Target.name "x").location? start scope = some (.attr ⟨⟨0⟩, "x"⟩) ∧
    (Target.name "x").Apart start scope (.attr ⟨⟨0⟩, "x"⟩) ∧
    (perform 12 _ (.invert scope (.name "x") (.int 5)) start).map (·.1.isOk) = some true ∧
    after.content (.attr ⟨⟨0⟩, "x"⟩) = some (.int 5) ∧
    ((Target.name "x").read (perform 12) scope after).map
      (·.1 matches .error (.nameResolution "x")) = some true := by
  obtain ⟨touched, unbound, unobserved, held, location, unset, assigned, stored, unread⟩ :=
    assigned_but_unread
  have equips : start.Equips scope (.name "x") (.int 5) :=
    { descends := World.descends_of_reachable reachable
      intact := World.intact_iff.2 (by decide +kernel)
      held := held
      target := fun _ mem => nomatch mem
      value := fun _ mem => nomatch mem }
  refine ⟨equips, ?_, location, .inl unset, assigned, stored, unread⟩
  rw [touched]
  intro d mem
  cases List.mem_singleton.1 mem
  exact ⟨fun e engine => (nomatch unbound.symm.trans engine), unobserved⟩

end orphan

end LiveBinding
