import LiveBinding.Proofs.Delegation

/-! Following a path.

An update of a delegated attribute loads the path, links the attribute to whatever is on it, and
assigns what was found at its end. A write goes the other way, and comes back by a link. -/
namespace LiveBinding

namespace Delegation
variable {D : Delegation} {w w' w₁ w₂ : World} {ds es : List Dependency} {o : ObjectId}
  {a d : Dependency} {v : Value} {n k j : Nat}

/-! ### What happens on the way -/

/-- How often the body has been called to write. -/
def pushes (D : Delegation) (w : World) : Nat :=
  w.calls.count (D.start.functionName D.function, D.site.object, 2)

/-- The body has been called a number of times to write, and everything is in order. -/
structure Passes (D : Delegation) (k : Nat) (w w' : World) : Prop where
  inv : D.Inv w'
  grows : w.Extends w'
  depth : w'.depth = w.depth
  pushes : D.pushes w' = D.pushes w + k

namespace Passes

theorem of_slips (sound : D.Sound) (inv : D.Inv w) (slips : w.Slips n w') : D.Passes 0 w w' where
  inv := inv.slight sound slips.slight
  grows := slips.slight.grows
  depth := slips.depth
  pushes := congrArg (List.count _) slips.calls

theorem trans (first : D.Passes j w w₁) (next : D.Passes k w₁ w₂) : D.Passes (j + k) w w₂ where
  inv := next.inv
  grows := first.grows.trans next.grows
  depth := next.depth.trans first.depth
  pushes := by
    rw [next.pushes, first.pushes, Nat.add_assoc]

theorem stable (sound : D.Sound) (passes : D.Passes k w w₁) (slips : w₁.Slips n w₂) :
    D.Passes k w w₂ := passes.trans (.of_slips sound passes.inv slips)

theorem after (first : D.Passes 0 w w₁) (next : D.Passes k w₁ w₂) : D.Passes k w w₂ := by
  simpa only [Nat.zero_add] using first.trans next

end Passes

/-- The latest evaluation went along the path, and the delegated attribute agrees with what is at
its end. -/
structure Settled (D : Delegation) (w : World) (ds : List Dependency) (o : ObjectId) : Prop where
  opened : D.Open w ds o
  consulted : D.Consulted w (ds ++ [D.goal o])
  agrees : D.Agrees w o

theorem Consulted.keep (consulted : D.Consulted w es) (grows : w.Extends w')
    (latest : (w'.engine D.engine).latest D.site.name = (w.engine D.engine).latest D.site.name) :
    D.Consulted w' es := by
  obtain ⟨v, found, owner, recorded⟩ := consulted
  refine ⟨v, latest.trans found, owner, fun d mem is => ?_⟩
  exact recorded d mem (grows.attribute.1 is)

theorem Consulted.slight (consulted : D.Consulted w es) (slight : w.Slight n w') :
    D.Consulted w' es := consulted.keep slight.grows (slight.still.latest _ _)

theorem Consulted.alter (consulted : D.Consulted w es) (alters : World.Alters a w w') :
    D.Consulted w' es := consulted.keep alters.grows (alters.still.latest _ _)

/-- The value at the end of a path exists. -/
theorem Inv.known_goal (inv : D.Inv w) (o : ObjectId) : w.Known (w.valuation (D.goal o)) := by
  rw [World.valuation]
  cases value : w.valueOf? (D.goal o) with
  | none => exact trivial
  | some v => exact inv.known value

theorem Agrees.slight (inv : D.Inv w) (agrees : D.Agrees w o) (slight : w.Slight n w') :
    D.Agrees w' o := by
  intro v here
  rw [slight.valueOf?] at here
  have same : w'.valuation (D.goal o) = w.valuation (D.goal o) := by
    rw [World.valuation, World.valuation, slight.valueOf?]
  rw [same]
  exact (agrees v here).mono slight.grows inv.whole (inv.known here) (inv.known_goal o)

theorem Settled.slight (inv : D.Inv w) (settled : D.Settled w ds o) (slight : w.Slight n w') :
    D.Settled w' ds o :=
  ⟨settled.opened.slight slight, settled.consulted.slight slight,
    settled.agrees.slight inv slight⟩

/-- What has happened so far, and that everything is settled by now. -/
def Settles (D : Delegation) (ds : List Dependency) (o : ObjectId) (k : Nat) (w w' : World) :
    Prop := D.Passes k w w' ∧ D.Settled w' ds o

theorem Settles.stable (sound : D.Sound) (settles : D.Settles ds o k w w₁)
    (slips : w₁.Slips n w₂) : D.Settles ds o k w w₂ :=
  ⟨settles.1.stable sound slips, settles.2.slight settles.1.inv slips.slight⟩

theorem Settles.after (passes : D.Passes 0 w w₁) (settles : D.Settles ds o k w₁ w₂) :
    D.Settles ds o k w w₂ := ⟨passes.after settles.1, settles.2⟩

/-- The delegated attribute has been updated, and no other attribute has another value. -/
structure Updated (D : Delegation) (ds : List Dependency) (o : ObjectId) (w w' : World) :
    Prop where
  settles : D.Settles ds o 0 w w'
  set : (w'.valueOf? D.site).isSome
  others : ∀ d, d ≠ D.site → w'.valueOf? d = w.valueOf? d

namespace Updated

theorem stable (sound : D.Sound) (updated : D.Updated ds o w w₁) (slips : w₁.Slips n w₂) :
    D.Updated ds o w w₂ where
  settles := updated.settles.stable sound slips
  set := by
    rw [slips.slight.valueOf?]
    exact updated.set
  others d other := (slips.slight.valueOf? d).trans (updated.others d other)

theorem after (passes : D.Passes 0 w w₁) (same : ∀ d, w₁.valueOf? d = w.valueOf? d)
    (updated : D.Updated ds o w₁ w₂) : D.Updated ds o w w₂ where
  settles := updated.settles.after passes
  set := updated.set
  others d other := (updated.others d other).trans (same d)

end Updated

/-! ### Evaluating -/

theorem pushes_calling (sound : D.Sound) (grows : D.start.Extends w) (args : Arguments)
    {s : Scope} (owner : s.owner = D.site.object) :
    D.pushes (w.calling D.function args s) = D.pushes w + if args.count = 2 then 1 else 0 := by
  obtain ⟨g, code, _⟩ := sound.code
  have entry : LogEntry.call? (.callStarted (w.functionName D.function) s.owner args.count) =
      some (D.start.functionName D.function, D.site.object, args.count) := by
    rw [grows.functionName code, owner]
    rfl
  show (World.calls (w.addEntry _)).count _ = _
  rw [World.calls_addEntry, entry, List.count_append, Option.toList_some, List.count_singleton]
  congr 1
  simp

theorem getName_root (sound : D.Sound) (grows : D.start.Extends w) {c : Surroundings}
    (found : D.start.surroundingsFor? D.site.object ⟨.tracedRead, D.function, D.key⟩ = some c)
    {s : Scope} (owner : s.owner = D.site.object)
    (locals : w.layers[s.locals.index]? = some c.locals)
    (environment : s.environment = c.environment)
    (unchanged : s.change = none) (self : Performer) :
    getName self s D.path.root w = some (.ok (.object D.root), w) := by
  obtain ⟨c', found', free, known⟩ := sound.surroundings
  cases found.symm.trans found'
  refine World.Lacks.getName ?_ unchanged sound.plain ?_ ?_ self
  · rw [owner]
    exact sound.lacks.mono grows
  · rw [World.layer, locals]
    exact free
  · rw [environment]
    exact known

theorem load_leads (sound : D.Sound) (grows : D.start.Extends w) (opened : D.Open w ds o)
    {c : Surroundings} {s : Scope} {t : TracerRef}
    (found : D.start.surroundingsFor? D.site.object ⟨.tracedRead, D.function, D.key⟩ = some c)
    (inside : Inside w c s t) (owner : s.owner = D.site.object) (unchanged : s.change = none) :
    Leads w (fun self => (D.load s t).run self) fun r w' =>
      r = .ok (w.valuation (D.goal o)) ∧ w.Slips t.index w' ∧
        ∀ d, d ∈ (w'.tracer t).dependencies ↔
          d ∈ (w.tracer t).dependencies ∨ d ∈ ds ++ [D.goal o] := by
  have root := getName_root sound grows found owner inside.locals inside.environment unchanged
  exact Leads.ask (Leads.request (Leads.of_eq root
    (opened.full.loadEach_leads (.refl w) inside.running)))

/-- The handler that reads the delegated attribute. -/
def reader (D : Delegation) : Handler := ⟨.tracedRead, D.function, D.key⟩

/-- The handler that writes the delegated attribute back. -/
def writer (D : Delegation) : Handler := ⟨.invertedWrite, D.function, D.key⟩

theorem owner_of_surroundings {h : Handler} {c : Surroundings}
    (found : w.surroundingsFor? o h = some c) : c.owner = o := by
  obtain ⟨_, _, rfl⟩ := Option.map_eq_some_iff.1 found
  rfl

/-- The body has been evaluated, and its tracer has recorded the path. -/
theorem readTraced_leads (sound : D.Sound) (inv : D.Inv w) (opened : D.Open w ds o) {limit : Nat}
    (given : w.limit = some limit) (room : w.depth < limit) :
    Leads w (fun self => D.reader.readTraced self D.site.object D.site.name) fun r w' =>
      ∃ u, r = .ok (u, ⟨w.tracers.size⟩) ∧ u = w.valuation (D.goal o) ∧
        w.Slight w.tracers.size w' ∧ w'.depth = w.depth ∧ D.pushes w' = D.pushes w ∧
          ∀ d, d ∈ (w'.tracer ⟨w.tracers.size⟩).dependencies ↔ d ∈ ds ++ [D.goal o] := by
  obtain ⟨g, code, loads, _⟩ := sound.code
  obtain ⟨c, found, _⟩ := sound.surroundings
  have owner := owner_of_surroundings found
  let t : TracerRef := ⟨w.tracers.size⟩
  refine Handler.readTraced_leads (x := D.site) inv.grows rfl code found fun {w₁ s} begun => ?_
  have slips := begun.slips
  let w₂ := w₁.calling D.function (.traced t) s
  have enter : w₁.Slight (t.index + 1) w₂ := w₁.slight_calling D.function _ s
  have grows := (inv.grows.trans slips.slight.grows).trans enter.grows
  have owned : s.owner = D.site.object := begun.inside.owner.trans owner
  have opened₂ : D.Open w₂ ds o := (opened.slight slips.slight).slight enter
  have loaded := load_leads sound grows opened₂ found (begun.inside.mono enter.grows enter.more)
    owned begun.unchanged
  refine callFunction_leads (begun.limit.trans given) (by rw [slips.depth]; exact room) ?_
  refine Leads.congr (b := fun self => (D.load s t).run self) (fun self => ?_) (loaded.mono ?_)
  · show (w₁.code D.function s (.traced t)).run self w₂ = _
    rw [World.code, (inv.grows.trans slips.slight.grows).functions code]
    exact congrArg (fun p => p.run self w₂) (loads s t)
  rintro r w₃ ⟨rfl, ran, recorded⟩
  have leave : w₃.Slight (t.index + 1) {w₃ with depth := w₃.depth - 1, held := w.held} :=
    w₃.slight_progress _ (w₃.depth - 1) w₃.limit w.held
  have value : w₂.valuation (D.goal o) = w.valuation (D.goal o) := by
    rw [World.valuation, World.valuation, enter.valueOf?, slips.slight.valueOf?]
  refine ⟨_, rfl, value, ?_, ?_, ?_, fun d => ?_⟩
  · exact slips.slight.trans ((enter.mono (Nat.le_succ _)).trans
      (ran.slight.trans (leave.mono (Nat.le_succ _))))
  · show w₃.depth - 1 = w.depth
    rw [ran.depth]
    exact slips.depth
  · show D.pushes w₃ = D.pushes w
    have called := pushes_calling sound (inv.grows.trans slips.slight.grows) (.traced t) owned
    calc D.pushes w₃ = D.pushes w₂ := congrArg (List.count _) ran.calls
      _ = D.pushes w₁ := called
      _ = D.pushes w := congrArg (List.count _) slips.calls
  · rw [leave.tracers t (Nat.lt_succ_self _), recorded, enter.tracers t (Nat.lt_succ_self _),
      begun.blank]
    simp

/-- **Reading a delegated attribute gives what is at the end of the path and links the attribute
to the path.** -/
theorem read_leads (sound : D.Sound) (inv : D.Inv w) (opened : D.Open w ds o)
    (room : w.depth < 2) :
    Leads w (fun self => Engine.read self D.engine D.site.object D.site.name) fun r w' =>
      ∃ u, r = .ok (some u) ∧ u = w.valuation (D.goal o) ∧ D.Passes 0 w w' ∧
        (∀ d, w'.valueOf? d = w.valueOf? d) ∧ D.Consulted w' (ds ++ [D.goal o]) := by
  let limit := (w.engine D.engine).config.maxDepth
  have enough : w.depth < limit := by
    refine Nat.lt_of_lt_of_le room ?_
    show 2 ≤ (w.engine D.engine).config.maxDepth
    rw [inv.grows.config]
    exact sound.limited
  have binding : (w.engine D.engine).bindings.get? D.site.name =
      some (Operator.delegate.bind D.function D.key) := by
    rw [inv.grows.bindings]
    exact sound.bound
  let w₁ := {w with limit := some limit}
  have enter : w.Slight w.tracers.size w₁ := w.slight_progress _ w.depth (some limit) w.held
  refine Engine.read_leads (x := D.site) (h := D.reader) (by rw [binding]; rfl) rfl
    ((readTraced_leads sound (inv.slight sound enter) (opened.slight enter)
      (show w₁.limit = some limit from rfl) enough).mono ?_)
  rintro r w₂ ⟨_, rfl, rfl, evaluated, depth, pushes, recorded⟩
  have inv₂ := (inv.slight sound enter).slight sound evaluated
  have bound : (w₂.engine D.engine).bindings.contains D.site.name = true := by
    rw [inv₂.grows.bindings, Dict.contains, sound.bound]
    rfl
  obtain ⟨w₃, ls, run, ledger, relinked⟩ :=
    inv₂.ledger.relink D.site.object ⟨w.tracers.size⟩ bound
  have inv₃ := inv₂.relinked relinked ledger
  have leave : w₃.Slips 0 {w₃ with limit := w.limit} := .progress w₃ w.limit w₃.held
  obtain ⟨_, _, _, _, _, rest⟩ := relinked.rest
  refine ⟨_, _, rfl, w₃, run, rfl, ?_, fun d => ?_, ?_⟩
  · refine .stable sound ⟨inv₃, ?_, ?_, ?_⟩ leave
    · exact (enter.grows.trans evaluated.grows).trans relinked.grows
    · rw [rest]
      exact depth
    · calc D.pushes w₃ = D.pushes w₂ := congrArg (List.count _) relinked.calls
        _ = D.pushes w + 0 := pushes
  · rw [leave.slight.valueOf?, relinked.valueOf?, evaluated.valueOf?, enter.valueOf?]
  · have latest := relinked.latest D.site.name
    rw [if_pos rfl] at latest
    refine Consulted.slight ⟨_, latest, rfl, fun d mem is => ?_⟩ leave.slight
    obtain ⟨y, known, _⟩ := relinked.grows.attribute.1 is
    refine List.mem_filter.2 ⟨(recorded d).2 mem, ?_⟩
    rw [← World.entity?_isSome, (w₂.declared?_eq_some).1 known]
    rfl

/-! ### Updating -/

theorem Sound.assignable (sound : D.Sound) : D.start.Assignable D.site :=
  World.assignable_of_unset sound.reachable sound.declared sound.unset

/-- The links of the delegated attribute are held, since the host keeps the object. -/
theorem Inv.tethered (sound : D.Sound) (inv : D.Inv w) : w.Tethered := by
  intro p e name l engine held
  obtain rfl := inv.only held
  have kept : w.isLive (.object D.site.object) = true := by
    refine World.isLive_of_mem_roots (List.mem_append_left _ ?_)
    rw [inv.grows.kept]
    exact sound.kept
  have live := World.isLive_engine_of_object kept ((inv.grows.engineOf? _).trans sound.engine)
  exact World.isLive_of_linksOf live held

/-- A link among the observers of an attribute is one of the delegated attribute. -/
theorem Inv.link (inv : D.Inv w) {l : LinkRef} (observes : .link l ∈ w.observersOf d) :
    w.links[l.index]? = some D.link ∧ d ≠ D.site := by
  obtain ⟨r, found, appears⟩ := World.exists_of_observes observes
  exact inv.linked found appears

/-- A change of the delegated attribute is made known to watchers and then written back. -/
theorem announce_leads (sound : D.Sound) (inv : D.Inv w) (kind : ChangeKind) (old new : Value)
    {Q : World → Prop} (stable : ∀ {w₁ w₂}, w₁.Slips w.tracers.size w₂ → Q w₁ → Q w₂)
    (written : ∀ {w₁}, w.Slips w.tracers.size w₁ → w.SameGuards w₁ →
      w₁.change? ⟨w.objects.size⟩ = some ⟨kind, D.site.object, D.site.name, old, new⟩ →
        Leads w₁ (fun self =>
          Engine.write self D.engine D.site.object D.site.name ⟨w.objects.size⟩) fun r w' =>
            r = .ok () ∧ Q w') :
    Leads w (fun self => dispatch self D.site.object kind D.site.name old new) fun r w' =>
      r = .ok () ∧ Q w' := by
  obtain ⟨x, known, _⟩ := inv.grows.attribute.2 sound.declared
  refine World.dispatch_leads (Q := fun w' => w.Slips w.tracers.size w')
    (fun slips => (inv.slight sound slips.slight).tethered sound) known kind old new
    (fun next slips => slips.trans next) stable ?_ ?_
  · intro w₁ live notified
    have watched := sound.watched.mono (inv.grows.trans notified.slips.slight.grows)
    refine (World.deliver_watchers (n := w.tracers.size) watched (fun l mem => ?_) _).mono ?_
    · exact (inv.link (notified.observing mem)).2 rfl
    · rintro r w₂ ⟨rfl, slips⟩
      exact ⟨rfl, notified.slips.trans slips⟩
  · intro w₁ slips guards there
    have engine : w₁.engineOf? D.site.object = some D.engine := by
      rw [(inv.grows.trans slips.slight.grows).engineOf?]
      exact sound.engine
    rw [engine]
    exact written slips guards there

/-- A value has been stored in the delegated attribute. -/
theorem Passes.store (sound : D.Sound) (inv : D.Inv w) (known : w.Known v) :
    D.Passes 0 w (w.store D.site v) := by
  have is := inv.grows.attribute.2 sound.declared
  have alters := World.alters_store is v
  refine ⟨inv.alter alters fun u here => ?_, alters.grows, rfl, rfl⟩
  rw [World.valueOf?_store is, if_pos rfl] at here
  cases here
  exact known.mono alters.grows

/-- The path does not notice what becomes of the delegated attribute. -/
theorem Open.alter (opened : D.Open w ds o) (alters : World.Alters D.site w w') :
    D.Open w' ds o :=
  opened.keep alters.grows fun _ mem =>
    alters.others _ (opened.ne_site (List.mem_append_left _ mem))

theorem Open.valuation (opened : D.Open w ds o) (alters : World.Alters D.site w w') :
    w'.valuation (D.goal o) = w.valuation (D.goal o) := by
  rw [World.valuation, World.valuation, alters.others _ (opened.ne_site Open.goal_mem)]

/-- What has been read at the end of the path is assigned, and not written back. -/
theorem accept_leads (sound : D.Sound) (inv : D.Inv w) (opened : D.Open w ds o)
    (consulted : D.Consulted w (ds ++ [D.goal o]))
    (up : D.site.name ∈ (w.engine D.engine).guards) :
    Leads w (fun self => setAttr self (.object D.site.object) D.site.name
      (w.valuation (D.goal o))) fun r w' => r = .ok () ∧ D.Updated ds o w w' := by
  refine World.assign_leads (sound.assignable.mono inv.grows)
    (fun slips updated => updated.stable sound slips) ?_ ?_
  · intro w₁ old slips here equal
    have settled : D.Settled w ds o := by
      refine ⟨opened, consulted, fun v there => .inr ?_⟩
      cases here.symm.trans there
      exact equal
    refine .stable sound ⟨⟨.of_slips sound inv (n := 0) (.refl w), settled⟩, ?_, fun _ _ => rfl⟩
      slips
    rw [here]
    rfl
  · rintro w₁ kind old ⟨slips, -⟩ guards _
    have passes : D.Passes 0 w w₁ := .of_slips sound inv slips
    have is := passes.inv.grows.attribute.2 sound.declared
    let u := w.valuation (D.goal o)
    let w₂ := w₁.store D.site u
    have alters : World.Alters D.site w₁ w₂ := World.alters_store is u
    have stored : D.Passes 0 w₁ w₂ :=
      .store sound passes.inv ((inv.known_goal o).mono slips.slight.grows)
    have here : w₂.valueOf? D.site = some u := by
      rw [World.valueOf?_store is, if_pos rfl]
    have opened₁ := opened.slight slips.slight
    have value : w₂.valuation (D.goal o) = u := by
      rw [opened₁.valuation alters, World.valuation, slips.slight.valueOf?]
      rfl
    have settled : D.Settled w₂ ds o := by
      refine ⟨opened₁.alter alters, (consulted.slight slips.slight).alter alters, fun v there => ?_⟩
      cases here.symm.trans there
      exact .inl value.symm
    have updated : D.Updated ds o w w₂ := by
      refine ⟨⟨passes.after stored, settled⟩, ?_, fun d other => ?_⟩
      · rw [here]
        rfl
      · rw [alters.others d other, slips.slight.valueOf?]
    refine announce_leads sound stored.inv kind old u
      (fun next updated => updated.stable sound next) fun told same _ => ?_
    refine (World.suppressed_leads (n := 0) ?_ _ _).mono ?_
    · rw [same]
      show D.site.name ∈ (w₁.engine D.engine).guards
      rw [guards]
      exact up
    · rintro r w₄ ⟨rfl, last⟩
      exact ⟨rfl, (updated.stable sound told).stable sound last⟩

/-- **An update makes the delegated attribute agree with the one at the end of the path.** -/
theorem update_leads (sound : D.Sound) (inv : D.Inv w) (opened : D.Open w ds o)
    (room : w.depth < 2) :
    Leads w (fun self => Engine.update self D.engine D.site.object D.site.name) fun r w' =>
      r = .ok () ∧ D.Updated ds o w w' := by
  refine World.update_leads (n := 0) (x := D.site) D.engine
    (fun slips updated => updated.stable sound slips) ?_
  rintro w₁ ⟨enter, -⟩
  have entered : D.Passes 0 w w₁ := .of_slips sound inv enter
  have opened₁ := opened.slight enter.slight
  refine (read_leads sound entered.inv opened₁ (by rw [enter.depth]; exact room)).mono ?_
  rintro r w₂ ⟨u, rfl, rfl, read, same, consulted⟩
  refine ⟨_, rfl, ?_⟩
  rintro w₃ ⟨guarded, -⟩ up
  have opened₂ := opened₁.keep read.grows fun d _ => same d
  have bound : (w₂.engine D.engine).bindings.contains D.site.name = true := by
    rw [read.inv.grows.bindings, Dict.contains, sound.bound]
    rfl
  have value : w₃.valuation (D.goal o) = w₁.valuation (D.goal o) := by
    rw [World.valuation, World.valuation, guarded.slight.valueOf?, same]
  have passes₃ : D.Passes 0 w w₃ := (entered.after read).stable sound guarded
  rw [← value]
  refine (accept_leads sound passes₃.inv (opened₂.slight guarded.slight)
    (consulted.slight guarded.slight) (up bound)).mono ?_
  rintro r w' ⟨rfl, updated⟩
  refine ⟨rfl, updated.after passes₃ fun d => ?_⟩
  rw [guarded.slight.valueOf?, same, enter.slight.valueOf?]

/-! ### Hearing of a change -/

theorem link_leads (sound : D.Sound) (inv : D.Inv w) (opened : D.Open w ds o) (room : w.depth < 2)
    {change : ObjectId} {l : LinkRef} {c : Change} (made : w.links[l.index]? = some D.link)
    (known : w.change? change = some c) :
    Leads w (fun self => inform self change (.link l)) fun r w' =>
      r = .ok () ∧ D.Settles ds o 0 w w' := by
  let w₀ := w.tell (.link l) change
  have reacts (self : Performer) : react self change (.link l) w₀ = refresh self D.link c w₀ := by
    have made₀ : w₀.links[l.index]? = some D.link := made
    have known₀ : w₀.change? change = some c := known
    simp only [react, made₀, known₀]
  have told : w.Slips 0 w₀ := .tell w _ change
  have owner : w₀.isLive (.object D.site.object) = true := by
    refine World.isLive_of_mem_roots (List.mem_append_left _ ?_)
    rw [told.slight.grows.kept, inv.grows.kept]
    exact sound.kept
  have engine : w₀.isLive (.engine D.engine) = true :=
    World.isLive_engine_of_object owner ((inv.grows.engineOf? _).trans sound.engine)
  refine Leads.update (Leads.congr (w := w₀) reacts ?_)
  unfold refresh
  refine Leads.read (Leads.read ?_)
  simp only [link, owner, engine, Bool.and_self, if_true]
  refine Leads.log ?_
  have logged : w.Slips 0 (w₀.addEntry
      (.dependencyChanged D.site.object D.site.name c.owner c.name)) := told.trans (.log w₀ rfl)
  have entered : D.Passes 0 w _ := .of_slips sound inv logged
  refine Leads.seq (Leads.attempt ((update_leads sound entered.inv (opened.slight logged.slight)
    room).mono ?_))
  rintro r w' ⟨rfl, updated⟩
  exact ⟨_, rfl, Leads.pure ⟨rfl, updated.settles.after entered⟩⟩

/-- A change is delivered. If there is a link among the observers, everything is settled in the
end. -/
theorem deliver_leads (sound : D.Sound) {change : ObjectId} {xs : List Observer} (inv : D.Inv w)
    (opened : D.Open w ds o) (room : w.depth < 2) (known : ∃ c, w.change? change = some c)
    (links : ∀ l, .link l ∈ xs → w.links[l.index]? = some D.link)
    (settled : (∃ l, .link l ∈ xs) ∨ D.Settled w ds o) :
    Leads w (fun self => deliver self change xs) fun r w' =>
      r = .ok () ∧ D.Settles ds o 0 w w' := by
  induction xs generalizing w with
  | nil =>
    refine Leads.of_eq (fun _ => rfl) ⟨rfl, .of_slips sound inv (n := 0) (.refl w), ?_⟩
    rcases settled with ⟨l, mem⟩ | settled
    · cases mem
    · exact settled
  | cons x rest ih =>
    have others {w₁ : World} (passes : D.Passes 0 w w₁) (opened₁ : D.Open w₁ ds o)
        (settled₁ : (∃ l, .link l ∈ rest) ∨ D.Settled w₁ ds o) :
        Leads w₁ (fun self => deliver self change rest) fun r w' =>
          r = .ok () ∧ D.Settles ds o 0 w w' := by
      obtain ⟨c, found⟩ := known
      refine (ih passes.inv opened₁ (by rw [passes.depth]; exact room)
        ⟨c, passes.grows.change? found⟩ (fun l mem => ?_) settled₁).mono ?_
      · exact passes.grows.links (links l (List.mem_cons_of_mem _ mem))
      · rintro r w' ⟨rfl, settles⟩
        exact ⟨rfl, settles.after passes⟩
    cases x with
    | watcher c =>
      refine Leads.seq ((World.watcher_leads (n := 0) (sound.watched.mono inv.grows) change
        c).mono ?_)
      rintro r w₁ ⟨rfl, slips⟩
      refine ⟨(), rfl, others (.of_slips sound inv slips) (opened.slight slips.slight) ?_⟩
      rcases settled with ⟨l, mem⟩ | settled
      · rcases List.mem_cons.1 mem with same | mem
        · cases same
        · exact .inl ⟨l, mem⟩
      · exact .inr (settled.slight inv slips.slight)
    | link l =>
      have made := links l List.mem_cons_self
      obtain ⟨c, found⟩ := id known
      refine Leads.seq ((link_leads sound inv opened room made found).mono ?_)
      rintro r w₁ ⟨rfl, settles⟩
      exact ⟨(), rfl, others settles.1 settles.2.opened (.inr settles.2)⟩

/-- **A change of an attribute that was on the path reaches the delegated attribute.** -/
theorem change_leads (sound : D.Sound) (inv : D.Inv w) (opened : D.Open w ds o)
    (consulted : D.Consulted w es) (mem : a ∈ es) (is : w.Attribute a) (other : a ≠ D.site)
    (unwritten : ∀ {e}, w.engineOf? a.object = some e →
      ((w.engine e).bindings.get? a.name).bind Binding.write = none)
    (room : w.depth < 2) (kind : ChangeKind) (old new : Value) :
    Leads w (fun self => dispatch self a.object kind a.name old new) fun r w' =>
      r = .ok () ∧ D.Settles ds o 0 w w' := by
  obtain ⟨v, latest, owner, recorded⟩ := consulted
  have traced : (w.engine D.engine).config.traceSubscriptions = true := by
    rw [inv.grows.config]
    exact sound.traced
  have apart : ¬(a.object = v.owner ∧ a.name = D.site.name) := by
    rintro ⟨object, name⟩
    rw [owner] at object
    exact other (by cases a; cases object; cases name; rfl)
  obtain ⟨l, held, observes⟩ := inv.ledger.exists_link latest traced (recorded a mem is) is apart
    inv.fresh
  obtain ⟨x, known, _⟩ := is
  refine World.dispatch_leads (Q := D.Settles ds o 0 w)
    (fun slips => (inv.slight sound slips.slight).tethered sound) known kind old new
    (fun slips settles => settles.stable sound slips)
    (fun slips settles => settles.stable sound slips) ?_ ?_
  · intro w₁ live notified
    have slips := notified.slips
    have engine := (inv.grows.engineOf? D.site.object).trans sound.engine
    have passes : D.Passes 0 w w₁ := .of_slips sound inv slips
    refine (deliver_leads sound passes.inv (opened.slight slips.slight)
      (by rw [slips.depth]; exact room) notified.change (fun k mem => ?_)
      (.inl ⟨l, notified.live engine held observes⟩)).mono ?_
    · exact slips.slight.grows.links (inv.link (notified.observing mem)).1
    · rintro r w' ⟨rfl, settles⟩
      exact ⟨rfl, settles.after passes⟩
  · intro w₁ settles _ _
    cases engine : w₁.engineOf? a.object with
    | none => exact settles
    | some e =>
      rw [settles.1.grows.engineOf?] at engine
      refine (World.write_leads (n := 0) ?_ _ _).mono ?_
      · rw [settles.1.grows.bindings]
        exact unwritten engine
      · rintro r w₂ ⟨rfl, slips⟩
        exact ⟨rfl, settles.stable sound slips⟩

end Delegation

end LiveBinding
