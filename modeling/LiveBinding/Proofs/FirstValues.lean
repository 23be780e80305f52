import LiveBinding.Proofs.Assignment
import LiveBinding.Proofs.Filling

/-! First values.

An attribute without a value gets one when it is updated for the first time: its body is called
once, what the body has recorded is linked if the attribute is traced, and the value is stored
and made known. Nothing but watchers can be observing the attribute by then. -/
namespace LiveBinding.Scheme
variable {M : Dependency → Type} {S : Scheme M} {w w' w₁ w₂ w₃ : World} {x d : Dependency}
  {e : EngineRef} {h : Handler} {u : Value} {s : Scope} {n k : Nat}

/-! ### Calling a body -/

/-- The body of `x` has been called, and has come to what `x` means. -/
structure Comes (S : Scheme M) (s : Scope) (n : Nat) (x : Dependency) (w : World) (u : Value)
    (w' : World) : Prop where
  means : S.means w' x u (S.meaning x)
  advances : S.Advances n (S.rank x) [x] w w'
  recorded : S.Recorded s (S.records x S.meaning) w w'
  set : ∀ d ∈ S.records x S.meaning, S.start.Bound d → (w'.valueOf? d).isSome

/-- It does not matter what slips by before and after, as long as the tracer is the same. -/
theorem Comes.between (sound : S.Sound) (enter : w.Slips n w₁) (comes : S.Comes s n x w₁ u w₂)
    (leave : w₂.Slips n w₃)
    (before : ∀ t, s.tracer = some t → (w₁.tracer t).dependencies = (w.tracer t).dependencies)
    (behind : ∀ t, s.tracer = some t → (w₃.tracer t).dependencies = (w₂.tracer t).dependencies) :
    S.Comes s n x w u w₃ where
  means := sound.mono leave.slight.grows comes.means
  advances := (comes.advances.after enter).trans (.of_slips sound comes.advances.inv leave)
  recorded t tracer d there := by
    rw [behind t tracer, comes.recorded t tracer d there, before t tracer]
  set d mem bound := by
    rw [leave.slight.valueOf?]
    exact comes.set d mem bound

/-- A call of the body of an attribute counts as one. -/
theorem Advances.calling (sound : S.Sound) (inv : S.Inv w)
    (handler : S.start.handlerOf? x = some (e, h)) {g : Function}
    (code : S.start.functions[h.function.index]? = some g) (owner : s.owner = x.object)
    (kind : s.tracer.isSome ↔ h.kind = .tracedRead)
    (advances : S.Advances n k [] (w.calling h.function s.arguments s) w') :
    S.Advances n k [x] w {w' with depth := w'.depth - 1, held := w.held} := by
  have enter : w.Slight n (w.calling h.function s.arguments s) := w.slight_calling ..
  have leave := w'.slight_progress n (w'.depth - 1) w'.limit w.held
  have count : s.arguments.count = if h.kind = .tracedRead then 1 else 0 := by
    unfold Scope.arguments
    cases tracer : s.tracer with
    | none =>
      rw [tracer] at kind
      rw [if_neg fun traced => Bool.false_ne_true (kind.2 traced)]
      rfl
    | some t =>
      rw [tracer] at kind
      rw [if_pos (kind.1 rfl)]
      rfl
  have entered := World.calls_calling inv.grows handler code owner count
  obtain ⟨xs, ⟨nodup, gained⟩, calls⟩ := advances.called
  exact {
    inv := advances.inv.slight sound leave
    grows := enter.grows.trans (advances.grows.trans leave.grows)
    stored := fun here => advances.stored ((enter.valueOf? _).trans here)
    kept := fun out => (advances.kept out).trans (enter.valueOf? _)
    tracers := fun t new old => (advances.tracers t new old).trans (enter.tracers t old)
    more := Nat.le_trans enter.more advances.more
    depth := by
      show w'.depth - 1 = w.depth
      rw [advances.depth]
      rfl
    called := by
      refine ⟨xs, ⟨nodup, fun y => ?_⟩, ?_⟩
      · rw [gained, enter.valueOf?]
        rfl
      · show w'.calls = _
        rw [calls, entered, List.nil_append, List.append_assoc, ← List.filterMap_append] }

/-- **A call of the body of an attribute comes to what the attribute means**, if whatever is of
lower rank can be evaluated. -/
theorem call_body_leads (sound : S.Sound) (ready : S.Evaluable (S.rank x)) (inv : S.Inv w)
    (handler : S.start.handlerOf? x = some (e, h)) {c : Surroundings}
    (found : S.start.surroundings? x = some c) (opens : w.Opens c s)
    (kind : s.tracer.isSome ↔ h.kind = .tracedRead) (recent : S.Recent s n w) {limit : Nat}
    (given : w.limit = some limit) (enough : S.start.sites.length ≤ limit)
    (room : w.depth + S.rank x < S.start.sites.length) :
    Leads w (fun self => callFunction self h.function s.arguments s) fun r w' =>
      ∃ u, r = .ok u ∧ S.Comes s n x w u w' := by
  have bound : S.start.Bound x := ⟨e, h, handler⟩
  obtain ⟨g, c', code, found', follows⟩ := sound.realized handler
  cases found.symm.trans found'
  obtain ⟨owner, y, known⟩ := Network.owner_of_surroundings found
  have lower (d : Dependency) (mem : d ∈ S.reads x S.meaning) (is : S.start.Bound d) :
      S.rank d < S.rank x := sound.rank_lt ⟨bound, is, _, mem⟩
  have does := (follows S.meaning s opens.owner opens.environment opens.unchanged kind).does sound
    ready (.refl _) known lower (n := n)
  let w₁ := w.calling h.function s.arguments s
  have enter : w.Slight n w₁ := w.slight_calling ..
  refine callFunction_leads given (by omega) (Leads.congr (fun self => ?_)
    ((does (inv.grows.trans enter.grows) (inv.slight sound enter)
      (opens.mono enter.grows enter.more) (recent.mono enter.more) ?_).mono ?_))
  · rw [World.code, inv.grows.functions code]
  · show w.depth + 1 + _ ≤ _
    omega
  rintro r w' ⟨⟨u, rfl, means⟩, ran⟩
  have leave := w'.slight_progress n (w'.depth - 1) w'.limit w.held
  refine ⟨u, rfl, ?_, ran.advances.calling sound inv handler code (opens.owner.trans owner) kind,
    ran.recorded, fun d mem is => ran.set d (.inr mem) is⟩
  rw [sound.meaning_of_bound bound]
  exact sound.mono leave.grows means

/-! ### Evaluating an attribute -/

/-- After an evaluation of `x`, which has no value yet, has been linked, everything is still in
order. -/
theorem Inv.relinked (sound : S.Sound) (inv : S.Inv w)
    (handler : S.start.handlerOf? x = some (e, h)) (unset : w.valueOf? x = none)
    {consulted : List Dependency} {t : TracerRef} {ls : List LinkRef}
    (relinked : w.Relinked w' e x.name ⟨x.object, consulted, w.links.size⟩ t ls)
    (ledger : w'.Ledger) (set : ∀ d ∈ consulted, S.start.Bound d → (w.valueOf? d).isSome) :
    S.Inv w' where
  grows := inv.grows.trans relinked.grows
  tracers := relinked.size ▸ inv.tracers
  ledger := ledger
  linked bound found some := by
    rw [relinked.valueOf?]
    rcases relinked.listed ledger found some with old | ⟨_, mem, _⟩
    · rw [relinked.linked.registryOf?] at found
      exact inv.linked bound found old
    · exact set _ mem bound
  free not := (relinked.valueOf? _).trans (inv.free not)
  means bound here := by
    rw [relinked.valueOf?] at here
    exact sound.mono relinked.grows (inv.means bound here)
  noted {y e' h'} handler' kind there := by
    rw [relinked.valueOf?] at there
    have other : y ≠ x := by
      rintro rfl
      rw [unset] at there
      cases there
    obtain ⟨v, latest, rest⟩ := inv.noted handler' kind there
    exact ⟨v, (relinked.of_ne sound.reachable handler other handler').1.trans latest, rest⟩

/-- An attribute without a value has been evaluated. -/
structure Evaluates (S : Scheme M) (x : Dependency) (e : EngineRef) (h : Handler) (w : World)
    (u : Value) (w' : World) : Prop where
  means : S.means w' x u (S.meaning x)
  advances : S.Advances w.tracers.size (S.rank x) [x] w w'
  noted : h.kind = .tracedRead → S.Noted w' e x

theorem Evaluates.slips (sound : S.Sound) (evaluates : S.Evaluates x e h w u w₁)
    (slips : w₁.Slips w.tracers.size w') : S.Evaluates x e h w u w' where
  means := sound.mono slips.slight.grows evaluates.means
  advances := evaluates.advances.trans (.of_slips sound evaluates.advances.inv slips)
  noted kind := by
    obtain ⟨v, latest, rest⟩ := evaluates.noted kind
    exact ⟨v, (slips.slight.still.latest _ _).trans latest, rest⟩

/-- What the body has recorded is put on record and linked. -/
theorem Comes.relink (sound : S.Sound) (handler : S.start.handlerOf? x = some (e, h))
    (unset : w.valueOf? x = none) (tracer : s.tracer = some ⟨w.tracers.size⟩)
    (comes : S.Comes s w.tracers.size x w u w₁) :
    ∃ w', (do Engine.conclude e x.object x.name ⟨w.tracers.size⟩
              Engine.relink e x.object x.name ⟨w.tracers.size⟩ : Action Unit) w₁ =
        some (.ok (), w') ∧ S.Evaluates x e h w u w' := by
  have inv := comes.advances.inv
  have bound : (w₁.engine e).bindings.contains x.name = true := by
    obtain ⟨b, binding, _⟩ := Option.bind_eq_some_iff.1 (World.handlerOf?_eq_some.1 handler).2
    rw [inv.grows.bindings, Dict.contains, binding]
    rfl
  have unset₁ : w₁.valueOf? x = none :=
    (comes.advances.kept fun _ => Nat.le_refl _).trans unset
  have consulted (d : Dependency) (there : S.start.has d.object = true) :
      d ∈ (w₁.tracer ⟨w.tracers.size⟩).dependencies.filter (fun d => w₁.has d.object) ↔
        d ∈ S.records x S.meaning := by
    rw [List.mem_filter, comes.recorded _ tracer d there, w.dependencies_next]
    simp [inv.grows.has there]
  obtain ⟨w', ls, run, ledger, relinked⟩ := inv.ledger.relink x.object ⟨w.tracers.size⟩ bound
  have inv' := inv.relinked sound handler unset₁ relinked ledger fun d mem is => by
    obtain ⟨e', h', handler'⟩ := is
    obtain ⟨y, known, _⟩ := sound.declared ⟨e', h', handler'⟩
    have there : S.start.has d.object = true := by
      rw [← World.entity?_isSome, (S.start.declared?_eq_some).1 known]
      rfl
    exact comes.set d ((consulted d there).1 mem) ⟨e', h', handler'⟩
  obtain ⟨_, _, _, _, _, rest⟩ := relinked.rest
  have latest := relinked.latest x.name
  rw [if_pos rfl] at latest
  refine ⟨w', run, sound.mono relinked.grows comes.means, comes.advances.trans ?_,
    fun _ => ⟨_, latest, rfl, consulted⟩⟩
  exact {
      inv := inv'
      grows := relinked.grows
      stored := fun here => (relinked.valueOf? _).trans here
      kept := fun _ => relinked.valueOf? _
      tracers := fun t _ old => relinked.tracers t fun same => by
        rw [← same] at old
        exact Nat.lt_irrefl _ old
      more := Nat.le_of_eq relinked.size.symm
      depth := by rw [rest]
      called := ⟨[], .nil relinked.valueOf?, relinked.calls.trans (List.append_nil _).symm⟩ }

/-- A handler without a tracer comes to what its attribute means. -/
theorem readStandard_leads (sound : S.Sound) (ready : S.Evaluable (S.rank x)) (inv : S.Inv w)
    (handler : S.start.handlerOf? x = some (e, h)) (standard : h.kind = .standardRead) {limit : Nat}
    (given : w.limit = some limit) (enough : S.start.sites.length ≤ limit)
    (room : w.depth + S.rank x < S.start.sites.length) :
    Leads w (fun self => h.read self x.object x.name) fun r w' =>
      ∃ u, r = .ok u ∧ S.Evaluates x e h w u w' := by
  have untraceable : h.kind ≠ .tracedRead := by simp [standard]
  obtain ⟨g, c, code, found, _⟩ := sound.realized handler
  refine Handler.read_leads (n := w.tracers.size) inv.grows standard code
    ((World.surroundings?_of_handlerOf handler).symm.trans found)
    fun {w₁ s} slips limited owner locals environment unchanged untraced => ?_
  have never {P : TracerRef → Prop} (t : TracerRef) (tracer : s.tracer = some t) : P t := by
    rw [untraced] at tracer
    cases tracer
  have called := call_body_leads sound ready (inv.slight sound slips.slight) handler found
    ⟨owner, locals, environment, unchanged, never⟩ (by simp [untraced, standard])
    ⟨slips.slight.more, never⟩ (limited.trans given) enough (slips.depth ▸ room)
  rw [Scope.arguments, untraced] at called
  refine called.mono ?_
  rintro r w' ⟨u, rfl, comes⟩
  have ends := comes.between sound slips (.progress w' w'.limit w.held) never never
  exact ⟨u, rfl, ends.means, ends.advances, fun traced => absurd traced untraceable⟩

/-- A handler with a tracer comes to what its attribute means, and has it recorded. -/
theorem readTraced_leads (sound : S.Sound) (ready : S.Evaluable (S.rank x)) (inv : S.Inv w)
    (handler : S.start.handlerOf? x = some (e, h)) (traced : h.kind = .tracedRead) {limit : Nat}
    (given : w.limit = some limit) (enough : S.start.sites.length ≤ limit)
    (room : w.depth + S.rank x < S.start.sites.length) :
    Leads w (fun self => h.readTraced self x.object x.name) fun r w' =>
      ∃ u, r = .ok (u, ⟨w.tracers.size⟩) ∧ ∃ s : Scope, s.tracer = some ⟨w.tracers.size⟩ ∧
        S.Comes s w.tracers.size x w u w' := by
  obtain ⟨g, c, code, found, _⟩ := sound.realized handler
  refine Handler.readTraced_leads inv.grows traced code
    ((World.surroundings?_of_handlerOf handler).symm.trans found) fun {w₁ s} opened => ?_
  obtain ⟨slips, limited, inside, unchanged, blank⟩ := opened
  have its {t : TracerRef} (tracer : s.tracer = some t) : t = ⟨w.tracers.size⟩ :=
    Option.some.inj (tracer.symm.trans inside.tracer)
  have called := call_body_leads sound ready (inv.slight sound slips.slight) handler found
    ⟨inside.owner, inside.locals, inside.environment, unchanged, fun t tracer =>
      its tracer ▸ inside.running⟩ (by simp [inside.tracer, traced])
    ⟨slips.slight.more, fun t tracer => its tracer ▸ ⟨inv.tracers, Nat.le_refl _, inside.running⟩⟩
    (limited.trans given) enough (slips.depth ▸ room)
  rw [Scope.arguments, inside.tracer] at called
  refine called.mono ?_
  rintro r w' ⟨u, rfl, comes⟩
  refine ⟨u, rfl, s, inside.tracer, comes.between sound slips (.progress w' w'.limit w.held)
    (fun t tracer => ?_) fun _ _ => rfl⟩
  rw [its tracer, blank, w.dependencies_next]

/-- **Reading a bound attribute for the first time calls its body once.** -/
theorem read_first (sound : S.Sound) (ready : S.Evaluable (S.rank x)) (inv : S.Inv w)
    (handler : S.start.handlerOf? x = some (e, h)) (unset : w.valueOf? x = none)
    (room : w.depth + S.rank x < S.start.sites.length) :
    Leads w (fun self => Engine.read self e x.object x.name) fun r w' =>
      ∃ u, r = .ok (some u) ∧ S.Evaluates x e h w u w' := by
  obtain ⟨engine, reader⟩ := World.handlerOf?_eq_some.1 handler
  let limit := (w.engine e).config.maxDepth
  have enough : S.start.sites.length ≤ limit := by
    show _ ≤ (w.engine e).config.maxDepth
    rw [inv.grows.config]
    exact sound.limited engine
  let w₀ := {w with limit := some limit}
  have enter : w.Slips w.tracers.size w₀ := .progress w (some limit) w.held
  have inv₀ := inv.slight sound enter.slight
  have leave (w' : World) : w'.Slips w.tracers.size {w' with limit := w.limit} :=
    .progress w' w.limit w'.held
  have reader' : ((w.engine e).bindings.get? x.name).bind Binding.read = some h := by
    rw [inv.grows.bindings]
    exact reader
  by_cases kind : h.kind = .tracedRead
  · refine Engine.read_leads reader' kind
      ((readTraced_leads sound ready inv₀ handler kind rfl enough room).mono ?_)
    rintro r w₁ ⟨u, rfl, s, tracer, comes⟩
    obtain ⟨w₂, run, evaluates⟩ :=
      (comes.between sound enter (.refl w₁) (fun _ _ => rfl) fun _ _ => rfl).relink sound handler
        unset tracer
    exact ⟨u, _, rfl, w₂, run, evaluates.slips sound (leave w₂)⟩
  · have standard : h.kind = .standardRead := by
      obtain ⟨b, binding, read⟩ := Option.bind_eq_some_iff.1 reader
      obtain ⟨f, key, rfl | rfl⟩ := sound.binds engine binding
      · cases read
        rfl
      · cases read
        exact absurd rfl kind
    refine Engine.readStandard_leads reader' kind
      ((readStandard_leads sound ready inv₀ handler standard rfl enough room).mono ?_)
    rintro r w₁ ⟨u, rfl, evaluates⟩
    have ends := evaluates.slips sound (leave w₁)
    exact ⟨u, rfl, ends.means, ends.advances.after enter, ends.noted⟩

/-! ### Storing a first value -/

/-- The value of an evaluation is stored; then the attribute has gained it. -/
theorem Evaluates.store (sound : S.Sound) (handler : S.start.handlerOf? x = some (e, h))
    (unset : w.valueOf? x = none) (evaluates : S.Evaluates x e h w u w') :
    S.Advances w.tracers.size (S.rank x + 1) [] w (w'.store x u) := by
  obtain ⟨means, advances, noted⟩ := evaluates
  have inv := advances.inv
  have bound : S.start.Bound x := ⟨e, h, handler⟩
  have is := inv.grows.attribute.2 (sound.declared bound)
  have value (d : Dependency) := World.valueOf?_store is u d
  have still := w'.still_store x u
  have unset' : w'.valueOf? x = none := (advances.kept fun _ => Nat.le_refl _).trans unset
  have same {d : Dependency} (other : x ≠ d) : (w'.store x u).valueOf? d = w'.valueOf? d :=
    (value d).trans (if_neg other)
  have fresh : (w'.store x u).valueOf? x = some u := (value x).trans (if_pos rfl)
  obtain ⟨xs, ⟨nodup, gained⟩, calls⟩ := advances.called
  exact {
    inv := {
      grows := inv.grows.trans (World.extends_store is u)
      tracers := inv.tracers
      ledger := still.ledger inv.ledger
      linked := fun {d r l} bound found some => by
        rw [still.registryOf?] at found
        rw [still.appearances] at some
        by_cases this : x = d
        · rw [← this, fresh]
          rfl
        · rw [same this]
          exact inv.linked bound found some
      free := fun {d} not => by
        refine (same ?_).trans (inv.free not)
        rintro rfl
        exact not bound
      means := fun {y v} bound here => by
        refine sound.mono (World.extends_store is u) ?_
        by_cases this : x = y
        · subst this
          cases fresh.symm.trans here
          exact means
        · exact inv.means bound ((same this).symm.trans here)
      noted := fun {y e' h'} handler' kind set => by
        have before : S.Noted w' e' y := by
          by_cases this : x = y
          · subst this
            cases handler.symm.trans handler'
            exact noted kind
          · rw [same this] at set
            exact inv.noted handler' kind set
        obtain ⟨v, latest, rest⟩ := before
        exact ⟨v, (still.latest _ _).trans latest, rest⟩ }
    grows := advances.grows.trans (World.extends_store is u)
    stored := fun {d v} here => by
      refine (same ?_).trans (advances.stored here)
      rintro rfl
      cases unset.symm.trans here
    kept := fun {d} out => by
      refine (same ?_).trans (advances.kept fun is => Nat.le_of_succ_le (out is))
      rintro rfl
      exact Nat.not_succ_le_self _ (out bound)
    tracers := advances.tracers
    more := advances.more
    depth := advances.depth
    called := by
      refine ⟨x :: xs, ⟨List.nodup_cons.2 ⟨fun mem => ?_, nodup⟩, fun y => ?_⟩, calls⟩
      · have set := ((gained x).1 mem).2.2
        rw [unset'] at set
        cases set
      · rw [List.mem_cons, gained]
        by_cases this : x = y
        · subst this
          rw [fresh]
          exact ⟨fun _ => ⟨bound, unset, rfl⟩, fun _ => .inl rfl⟩
        · rw [same this]
          exact ⟨fun either => either.resolve_left (Ne.symm this), .inr⟩ }

/-- No link observes a bound attribute that has no value. -/
theorem Inv.unobserved (inv : S.Inv w) (bound : S.start.Bound x) (unset : w.valueOf? x = none)
    (l : LinkRef) : .link l ∉ w.observersOf x := by
  intro observes
  obtain ⟨r, found, appears⟩ := World.exists_of_observes observes
  have set := inv.linked bound found appears
  rw [unset] at set
  cases set

/-- Nobody writes back. -/
theorem write_leads (sound : S.Sound) (start : S.start.Extends w) {o : ObjectId}
    (engine : w.engineOf? o = some e) (name : String) (change : ObjectId) :
    Leads w (fun self => Engine.write self e o name change) fun r w' =>
      r = .ok () ∧ w.Slips n w' := by
  refine World.write_leads ?_ o change
  rw [start.bindings]
  rw [start.engineOf?] at engine
  cases binding : (S.start.engine e).bindings.get? name with
  | none => rfl
  | some b => obtain ⟨f, key, rfl | rfl⟩ := sound.binds engine binding <;> rfl

/-- A change of what no link observes passes without anybody taking note but watchers. -/
theorem dispatch_quiet (sound : S.Sound) (inv : S.Inv w) (is : S.start.Attribute x)
    (quiet : ∀ l, .link l ∉ w.observersOf x) (kind : ChangeKind) (old new : Value) :
    Leads w (fun self => dispatch self x.object kind x.name old new) fun r w' =>
      r = .ok () ∧ w.Slips w.tracers.size w' := by
  obtain ⟨y, known, _⟩ := inv.grows.attribute.2 is
  refine World.dispatch_leads (Q := fun w' => w.Slips w.tracers.size w')
    (fun slips => (sound.grounded.mono (inv.grows.trans slips.slight.grows)).tethered) known kind
    old new (fun slips before => before.trans slips) (fun slips before => before.trans slips)
    (fun notified => ?_) fun {w₁} slips _ _ => ?_
  · refine (World.deliver_watchers (n := w.tracers.size)
      (sound.watched.mono (inv.grows.trans notified.slips.slight.grows))
      (fun l mem => quiet l (notified.observing mem)) _).mono ?_
    rintro r w' ⟨rfl, slips⟩
    exact ⟨rfl, notified.slips.trans slips⟩
  · cases engine : w₁.engineOf? x.object with
    | none => exact slips
    | some e =>
      refine (write_leads (n := w.tracers.size) sound (inv.grows.trans slips.slight.grows) engine
        x.name _).mono ?_
      rintro r w₂ ⟨rfl, next⟩
      exact ⟨rfl, slips.trans next⟩

/-- **A bound attribute that has no value gets one.** -/
theorem update_first (sound : S.Sound) (ready : S.Evaluable (S.rank x)) (inv : S.Inv w)
    (handler : S.start.handlerOf? x = some (e, h)) (unset : w.valueOf? x = none)
    (room : w.depth + S.rank x < S.start.sites.length) :
    Leads w (fun self => Engine.update self e x.object x.name) fun r w' =>
      r = .ok () ∧ S.Advances w.tracers.size (S.rank x + 1) [] w w' ∧ (w'.valueOf? x).isSome := by
  have bound : S.start.Bound x := ⟨e, h, handler⟩
  have assignable :=
    World.assignable_of_unset sound.reachable (sound.declared bound) (sound.unset bound)
  have stable {m : Nat} (more : w.tracers.size ≤ m) {w₁ w₂ : World} (slips : w₁.Slips m w₂)
      (here : S.Advances w.tracers.size (S.rank x + 1) [] w w₁ ∧ (w₁.valueOf? x).isSome) :
      S.Advances w.tracers.size (S.rank x + 1) [] w w₂ ∧ (w₂.valueOf? x).isSome := by
    rw [slips.slight.valueOf?]
    exact ⟨here.1.trans (.of_slips sound here.1.inv (slips.mono more)), here.2⟩
  refine World.update_leads (n := w.tracers.size) e (stable (Nat.le_refl _)) ?_
  rintro w₁ ⟨enter, -⟩
  refine (read_first sound ready (inv.slight sound enter.slight) handler
    ((enter.slight.valueOf? x).trans unset) (enter.depth ▸ room)).mono ?_
  rintro r w₂ ⟨u, rfl, evaluates⟩
  refine ⟨u, rfl, ?_⟩
  rintro w₃ ⟨guarded, -⟩ -
  have read : S.Evaluates x e h w u w₂ :=
    ⟨evaluates.means, (evaluates.advances.mono enter.slight.more (Nat.le_refl _)).after enter,
      evaluates.noted⟩
  have read₃ := read.slips sound guarded
  have unset₃ : w₃.valueOf? x = none := (read₃.advances.kept fun _ => Nat.le_refl _).trans unset
  have more := read₃.advances.more
  refine World.assign_leads (assignable.mono read₃.advances.inv.grows) (stable more)
    (fun old _ here _ => ?_) ?_
  · rw [unset₃] at here
    cases here
  rintro w₄ kind old ⟨slips, -⟩ - -
  have read₄ := read₃.slips sound (slips.mono more)
  have stored := read₄.store sound handler unset
  have unset₄ : w₄.valueOf? x = none := (slips.slight.valueOf? x).trans unset₃
  have quiet (l : LinkRef) : .link l ∉ (w₄.store x u).observersOf x := by
    rw [World.observersOf, (w₄.still_store x u).registryOf?]
    exact read₄.advances.inv.unobserved bound unset₄ l
  refine (dispatch_quiet sound stored.inv (sound.declared bound) quiet kind old u).mono ?_
  rintro r w' ⟨rfl, last⟩
  refine ⟨rfl, stable stored.more last ⟨stored, ?_⟩⟩
  rw [World.valueOf?_store (read₄.advances.inv.grows.attribute.2 (sound.declared bound)),
    if_pos rfl]
  rfl

/-- **Whatever is read for the first time is evaluated.** -/
theorem evaluable (sound : S.Sound) (k : Nat) : S.Evaluable k := by
  induction k using Nat.strong_induction_on with
  | _ k ih =>
    intro y e h w handler lower inv unset room
    refine (update_first sound (ih _ lower) inv handler unset room).mono ?_
    rintro r w' ⟨rfl, advances, set⟩
    exact ⟨rfl, advances.mono (Nat.le_refl _) lower, set⟩

end LiveBinding.Scheme
