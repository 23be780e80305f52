import LiveBinding.Proofs.Evaluation

/-! Links of a network.

An evaluation that succeeds is put on record and linked anew. The new links lead from what it
consulted to what was evaluated, so they go up in rank; all other links are as they were. -/
namespace LiveBinding

namespace World
variable {w w' : World} {e : EngineRef} {name : String} {v : Evaluation} {t : TracerRef}
  {ls : List LinkRef}

theorem Relinked.grows (relinked : w.Relinked w' e name v t ls) : w.Extends w' := by
  have engine {α : Type} (f : Engine → α)
      (same : f {w.engine e with
        links := (w.engine e).links.insert name ls
        history := .evaluated name v.owner v.consulted v.since :: (w.engine e).history} =
          f (w.engine e)) (e' : EngineRef) : f (w'.engine e') = f (w.engine e') := by
    by_cases this : e = e'
    · subst this
      rw [relinked.here, same]
    · rw [relinked.others e' this]
  have links {i : Nat} {k : Link} (found : w.links[i]? = some k) : w'.links[i]? = some k :=
    relinked.linked.links found
  obtain ⟨_, _, _, _, _, rfl⟩ := relinked.rest
  exact {links := links, config := engine _ rfl, bindings := engine _ rfl}

theorem Relinked.valueOf? (relinked : w.Relinked w' e name v t ls) (d : Dependency) :
    w'.valueOf? d = w.valueOf? d := by
  rw [World.valueOf?, World.valueOf?, stored?, stored?, relinked.linked.declared?]

theorem Relinked.latest (relinked : w.Relinked w' e name v t ls) (a : String) :
    (w'.engine e).latest a = if name = a then some v else (w.engine e).latest a := by
  rw [relinked.here]
  rfl

theorem Relinked.linksOf (relinked : w.Relinked w' e name v t ls) (a : String) :
    (w'.engine e).linksOf a = if name = a then ls else (w.engine e).linksOf a := by
  rw [relinked.here]
  show (((w.engine e).links.insert name ls).get? a).getD [] = _
  rw [Dict.get?_insert]
  split <;> rfl

/-- The latest evaluations and the links of the other attributes are as they were. -/
theorem Relinked.of_ne {start : World} (reachable : Reachable start) {x y : Dependency}
    {h : Handler} (handler : start.handlerOf? x = some (e, h))
    (relinked : w.Relinked w' e x.name v t ls) (other : y ≠ x) {e' : EngineRef} {h' : Handler}
    (handler' : start.handlerOf? y = some (e', h')) :
    (w'.engine e').latest y.name = (w.engine e').latest y.name ∧
      (w'.engine e').linksOf y.name = (w.engine e').linksOf y.name := by
  by_cases same : e = e'
  · subst same
    have names : x.name ≠ y.name := by
      intro names
      -- objects do not share engines
      have objects := (idle_of_reachable reachable).owned.apart (handlerOf?_eq_some.1 handler).1
        (handlerOf?_eq_some.1 handler').1
      cases x
      cases y
      cases names
      cases objects
      exact other rfl
    rw [relinked.latest, relinked.linksOf, if_neg names, if_neg names]
    exact ⟨rfl, rfl⟩
  · rw [relinked.others e' same]
    exact ⟨rfl, rfl⟩

/-- Nobody's body is called to link an evaluation. -/
theorem Relinked.calls (relinked : w.Relinked w' e name v t ls) : w'.calls = w.calls := by
  rcases relinked.log with same | ⟨k, more⟩
  · rw [World.calls, World.calls, same]
  · rw [World.calls, World.calls, more, Array.toList_push, List.filterMap_append]
    exact List.append_nil _

/-- What links are made for is something else that was consulted. -/
theorem of_mem_due {d : Dependency} (due : d ∈ w.due e name v) :
    d ∈ v.consulted ∧ ¬(d.object = v.owner ∧ d.name = name) := by
  unfold World.due at due
  split at due
  · obtain ⟨consulted, follows⟩ := List.mem_filter.1 due
    rw [World.follows, Bool.and_eq_true, Bool.not_eq_true', decide_eq_false_iff_not] at follows
    exact ⟨consulted, follows.1⟩
  · cases due

/-- A new link is in the place of something else that was consulted. -/
theorem Relinked.placed (relinked : w.Relinked w' e name v t ls) (ledger : w'.Ledger)
    {l : LinkRef} (mem : l ∈ ls) :
    ∃ d ∈ v.consulted, ¬(d.object = v.owner ∧ d.name = name) ∧ w'.Placed e name v l d := by
  have held : l ∈ (w'.engine e).linksOf name := by
    rw [relinked.linksOf, if_pos rfl]
    exact mem
  obtain ⟨v', latest, d, due, placed⟩ := ledger.exists_placed held
  rw [relinked.latest, if_pos rfl] at latest
  cases latest
  exact ⟨d, (of_mem_due due).1, (of_mem_due due).2, placed⟩

/-- Whatever link is on a list was there before, or is new and in its place. -/
theorem Relinked.listed (relinked : w.Relinked w' e name v t ls) (ledger : w'.Ledger)
    {d : Dependency} {r : RegistryRef} {l : LinkRef} (found : w'.registryOf? d.object = some r)
    (appears : 0 < (w'.registry r).appearances d.name (.link l)) :
    0 < (w.registry r).appearances d.name (.link l) ∨
      w'.links[l.index]? = some ⟨e, v.owner, name⟩ ∧ d ∈ v.consulted ∧
        ¬(d.object = v.owner ∧ d.name = name) := by
  by_cases old : l.index < w.links.size
  · rw [relinked.linked.appearances old] at appears
    exact .inl appears
  · have mem := relinked.new l (Nat.le_of_not_lt old) (ledger.tidy.made appears)
    obtain ⟨c, recorded, other, placed⟩ := relinked.placed ledger mem
    obtain rfl := placed.tells ledger.tidy found appears
    exact .inr ⟨placed.made, recorded, other⟩

/-- A link that did not exist yet cannot have been forgotten. -/
theorem Relinked.fresh (relinked : w.Relinked w' e name v t ls) (since : v.since = w.links.size)
    (tidy : w.Tidy) (ledger : w'.Ledger) {e' : EngineRef}
    (fresh : ∀ {a l r b}, l ∈ (w.engine e').linksOf a → (b, .link l) ∉ (w.registry r).forgotten)
    {a b : String} {l : LinkRef} {r : RegistryRef} (held : l ∈ (w'.engine e').linksOf a) :
    (b, .link l) ∉ (w'.registry r).forgotten := by
  intro gone
  rw [relinked.linked.forgotten] at gone
  by_cases same : e = e'
  · subst same
    rw [relinked.linksOf] at held
    split at held
    · obtain ⟨c, _, _, placed⟩ := relinked.placed ledger held
      have nowhere := tidy.nowhere (since ▸ placed.later) r b
      have count : 0 < (w.registry r).forgotten.count (b, .link l) := List.count_pos_iff.2 gone
      unfold Registry.appearances at nowhere
      omega
    · exact fresh held gone
  · rw [relinked.others e' same] at held
    exact fresh held gone

/-- What the latest evaluation consulted is observed by one of its links. -/
theorem Ledger.exists_link (ledger : w.Ledger) {d : Dependency}
    (latest : (w.engine e).latest name = some v)
    (traced : (w.engine e).config.traceSubscriptions = true) (mem : d ∈ v.consulted)
    (is : w.Attribute d) (other : ¬(d.object = v.owner ∧ d.name = name))
    (fresh : ∀ {l r b}, l ∈ (w.engine e).linksOf name → (b, .link l) ∉ (w.registry r).forgotten) :
    ∃ l ∈ (w.engine e).linksOf name, .link l ∈ w.observersOf d := by
  obtain ⟨x, known, _⟩ := is
  have due : d ∈ w.due e name v := by
    rw [World.due, if_pos traced]
    refine List.mem_filter.2 ⟨mem, ?_⟩
    rw [World.follows, World.registryOf?, known, Bool.and_eq_true, Bool.not_eq_true',
      decide_eq_false_iff_not]
    exact ⟨other, rfl⟩
  have answers := ledger.answers e name
  unfold World.Answers at answers
  rw [latest] at answers
  obtain ⟨l, held, placed⟩ := World.exists_partner answers.flip due
  obtain ⟨r, found, count⟩ := placed.registered
  have never : (w.registry r).forgotten.count (d.name, .link l) = 0 :=
    List.count_eq_zero.2 (fresh held)
  rw [Registry.appearances, never, Nat.add_zero] at count
  refine ⟨l, held, ?_⟩
  rw [World.observersOf, found]
  exact List.count_pos_iff.1 (count ▸ Nat.one_pos)

end World

namespace Network
variable {N : Network} {w w' : World} {P : Dependency → Prop} {x y : Dependency}
  {e : EngineRef} {h : Handler}

/-- Objects do not share engines. -/
theorem Sound.apart (sound : N.Sound) {o p : ObjectId} (here : N.start.engineOf? o = some e)
    (there : N.start.engineOf? p = some e) : o = p :=
  (World.idle_of_reachable sound.reachable).owned.apart here there

/-- After an evaluation of `x` has been linked, `x` is the only attribute that may not be
current. -/
theorem Inv.relinked (sound : N.Sound) (inv : N.Inv w P)
    (handler : N.start.handlerOf? x = some (e, h)) {consulted : List Dependency} {t : TracerRef}
    {ls : List LinkRef}
    (relinked : w.Relinked w' e x.name ⟨x.object, consulted, w.links.size⟩ t ls)
    (ledger : w'.Ledger) (lower : ∀ d ∈ consulted, N.start.Bound d →
      (w.valueOf? d).isSome ∧ N.rank d < N.rank x) :
    N.Inv w' fun y => P y ∨ y = x := by
  have linked := relinked.linked
  constructor
  · exact inv.grows.trans relinked.grows
  · obtain ⟨_, _, _, _, _, rest⟩ := relinked.rest
    rw [rest]
    exact ⟨inv.whole.items, inv.whole.entries⟩
  · exact ledger
  · intro d v is here
    rw [relinked.valueOf?] at here
    exact sound.fitsMono relinked.grows (inv.fits is here)
  · intro d free none
    rw [relinked.valueOf?] at none
    exact inv.unset free none
  · intro d r l found some
    rw [relinked.valueOf?]
    rcases relinked.listed ledger found some with old | ⟨made, consulted, _⟩
    · rw [linked.registryOf?] at found
      obtain ⟨k, h', made, handler', above⟩ := inv.linked found old
      exact ⟨k, h', linked.links made, handler', above⟩
    · exact ⟨_, h, made, handler, lower d consulted⟩
  · exact fun engine => relinked.fresh rfl inv.ledger.tidy ledger (inv.fresh engine)
  · intro y v bound here done
    rw [relinked.valueOf?] at here
    obtain ⟨u, ds, alike, current⟩ := inv.current bound here fun pending => done (.inl pending)
    refine ⟨u, ds, alike.mono relinked.grows, ?_⟩
    exact current.keep sound inv.grows relinked.grows (fun d _ => relinked.valueOf? d)
      fun handler' => (relinked.of_ne sound.reachable handler
        (fun same => done (.inr same)) handler').1

/-! ### What is spared -/

/-- Nothing outside `A` has another value, another latest evaluation or other links than before,
and old links observe what they did. The bodies that were called are those of `zs`, in `A`. -/
structure Spares (N : Network) (A : Dependency → Prop) (zs : List Dependency) (w w' : World) :
    Prop where
  valueOf? : ∀ {d}, ¬ A d → w'.valueOf? d = w.valueOf? d
  latest : ∀ {y e h}, N.start.handlerOf? y = some (e, h) → ¬ A y →
    (w'.engine e).latest y.name = (w.engine e).latest y.name
  linksOf : ∀ {y e h}, N.start.handlerOf? y = some (e, h) → ¬ A y →
    (w'.engine e).linksOf y.name = (w.engine e).linksOf y.name
  appearances : ∀ {r b l}, l.index < w.links.size →
    (w'.registry r).appearances b (.link l) = (w.registry r).appearances b (.link l)
  more : w.links.size ≤ w'.links.size
  calls : w'.calls = w.calls ++ zs.filterMap N.start.bodyCall?
  inside : ∀ z ∈ zs, N.start.Bound z ∧ A z

namespace Spares
variable {A : Dependency → Prop} {zs zs' : List Dependency} {w₁ : World}

theorem of_slight {n : Nat} (slight : w.Slight n w')
    (calls : w'.calls = w.calls ++ zs.filterMap N.start.bodyCall?)
    (inside : ∀ z ∈ zs, N.start.Bound z ∧ A z) :
    N.Spares A zs w w' where
  valueOf? _ := slight.valueOf? _
  latest _ _ := slight.still.latest _ _
  linksOf _ _ := slight.linksOf _ _
  appearances _ := slight.still.appearances ..
  more := Nat.le_of_eq (by rw [slight.still.links])
  calls := calls
  inside := inside

theorem of_slips {n : Nat} (slips : w.Slips n w') : N.Spares A [] w w' :=
  of_slight slips.slight (slips.calls.trans (List.append_nil _).symm) nofun

theorem trans (first : N.Spares A zs w w₁) (next : N.Spares A zs' w₁ w') :
    N.Spares A (zs ++ zs') w w' where
  valueOf? out := (next.valueOf? out).trans (first.valueOf? out)
  latest handler out := (next.latest handler out).trans (first.latest handler out)
  linksOf handler out := (next.linksOf handler out).trans (first.linksOf handler out)
  appearances old := (next.appearances (Nat.lt_of_lt_of_le old first.more)).trans
    (first.appearances old)
  more := Nat.le_trans first.more next.more
  calls := by rw [next.calls, first.calls, List.filterMap_append, List.append_assoc]
  inside z mem := (List.mem_append.1 mem).elim (first.inside z) (next.inside z)

theorem slips {n : Nat} (first : N.Spares A zs w w₁) (next : w₁.Slips n w') :
    N.Spares A zs w w' := by
  have both := first.trans (of_slips next)
  rwa [List.append_nil] at both

theorem mono {B : Dependency → Prop} (spares : N.Spares A zs w w') (more : ∀ d, A d → B d) :
    N.Spares B zs w w' where
  valueOf? out := spares.valueOf? fun is => out (more _ is)
  latest handler out := spares.latest handler fun is => out (more _ is)
  linksOf handler out := spares.linksOf handler fun is => out (more _ is)
  appearances := spares.appearances
  more := spares.more
  calls := spares.calls
  inside z mem := (spares.inside z mem).imp_right (more z)

end Spares

/-- Linking an evaluation spares everything but the attribute. -/
theorem Spares.of_relinked (sound : N.Sound) (handler : N.start.handlerOf? x = some (e, h))
    {v : Evaluation} {t : TracerRef} {ls : List LinkRef}
    (relinked : w.Relinked w' e x.name v t ls) : N.Spares (· = x) [] w w' where
  valueOf? _ := relinked.valueOf? _
  latest handler' other := (relinked.of_ne sound.reachable handler other handler').1
  linksOf handler' other := (relinked.of_ne sound.reachable handler other handler').2
  appearances := relinked.linked.appearances
  more := relinked.linked.grown
  calls := relinked.calls.trans (List.append_nil _).symm
  inside := nofun

/-! ### Reading a bound attribute -/

/-- A bound attribute has been evaluated and linked. -/
structure Renewed (N : Network) (P : Dependency → Prop) (x : Dependency) (w : World) (u : Value)
    (ds : List Dependency) (w' : World) : Prop where
  advances : N.Advances w.tracers.size (N.rank x) (fun y => P y ∨ y = x) w w'
  current : N.Current w w' x u ds
  fits : N.fits w' x u
  /-- No other body has been called if everything has a value. -/
  calm : N.Evaluated w → N.Spares (· = x) [x] w w'

theorem Evaluates.renewed (sound : N.Sound) (handler : N.start.handlerOf? x = some (e, h))
    {u : Value} {ds : List Dependency} {w₁ : World}
    (evaluates : N.Evaluates x ⟨w.tracers.size⟩ P w u ds w₁) :
    ∃ w', (do Engine.conclude e x.object x.name ⟨w.tracers.size⟩
              Engine.relink e x.object x.name ⟨w.tracers.size⟩ : Action Unit) w₁ =
        some (.ok (), w') ∧ N.Renewed P x w u ds w' := by
  have inv := evaluates.advances.inv
  have bound : (w₁.engine e).bindings.contains x.name = true := by
    obtain ⟨_, reader⟩ := World.handlerOf?_eq_some.1 handler
    obtain ⟨b, binding, _⟩ := Option.bind_eq_some_iff.1 reader
    rw [inv.grows.bindings, Dict.contains, binding]
    rfl
  have dependencies (d : Dependency) :
      d ∈ (w₁.tracer ⟨w.tracers.size⟩).dependencies ↔ d ∈ ds := by
    rw [evaluates.recorded, w.dependencies_next]
    simp
  obtain ⟨w', ls, run, ledger, relinked⟩ :=
    inv.ledger.relink x.object ⟨w.tracers.size⟩ bound
  refine ⟨w', run, ?_⟩
  have inv' := inv.relinked sound handler relinked ledger fun d mem bound => by
    have consulted := (dependencies d).1 (List.mem_filter.1 mem).1
    exact ⟨evaluates.yields.stored d consulted bound, evaluates.yields.lower d consulted bound⟩
  have fills : N.Fills w.tracers.size (N.rank x) w₁ w' :=
    { grows := relinked.grows
      stored := fun here => (relinked.valueOf? _).trans here
      kept := fun _ => relinked.valueOf? _
      tracers := fun t old => relinked.tracers t fun same => by
        rw [← same] at old
        exact Nat.lt_irrefl _ old
      more := Nat.le_of_eq relinked.size.symm }
  obtain ⟨_, _, _, _, _, rest⟩ := relinked.rest
  constructor
  · refine ⟨evaluates.advances.fills.trans fills, inv', ?_⟩
    rw [rest]
    exact evaluates.advances.depth
  · have latest := relinked.latest x.name
    rw [if_pos rfl] at latest
    refine ⟨evaluates.yields.keep sound inv.grows relinked.grows fun d _ => relinked.valueOf? d,
      e, h, _, handler, latest, rfl, fun d mem is => ?_⟩
    · obtain ⟨y, known, _⟩ := inv.grows.attribute.2 is
      refine List.mem_filter.2 ⟨(dependencies d).2 mem, ?_⟩
      rw [← World.entity?_isSome, (w₁.declared?_eq_some).1 known]
      rfl
  · exact sound.fitsMono relinked.grows evaluates.fits
  · intro evaluated
    obtain ⟨slight, calls⟩ := evaluates.calm evaluated
    refine (Spares.of_slight slight calls fun z mem => ?_).trans
      (.of_relinked sound handler relinked)
    obtain rfl := List.mem_singleton.1 mem
    exact ⟨⟨e, h, handler⟩, rfl⟩

/-- **Reading a bound attribute evaluates its body and links the attribute anew.** -/
theorem readBinding_leads (sound : N.Sound) (evaluable : N.Evaluable (N.rank x))
    (inv : N.Inv w P) (handler : N.start.handlerOf? x = some (e, h))
    (room : N.Roomy N.room (N.rank x) w) :
    Leads w (fun self => Engine.read self e x.object x.name) fun r w' =>
      ∃ u ds, r = .ok (some u) ∧ N.Renewed P x w u ds w' := by
  obtain ⟨engine, reader⟩ := World.handlerOf?_eq_some.1 handler
  let limit := (w.engine e).config.maxDepth
  have enough : N.room < limit := by
    show _ < (w.engine e).config.maxDepth
    rw [inv.grows.config]
    exact sound.limited engine
  rw [← inv.grows.bindings] at reader
  let w₁ := {w with limit := some limit}
  have enter : w.Slight w.tracers.size w₁ := w.slight_progress _ w.depth (some limit) w.held
  have evaluated := readTraced_leads sound evaluable (inv.slight sound enter) handler
    (show w₁.limit = some limit from rfl) enough room
  refine (Engine.read_leads (Q := fun u w' => ∃ ds, N.Renewed P x w u ds w') reader
    (kind_of_handlerOf sound handler) (evaluated.mono ?_)).mono ?_
  · rintro r w₂ ⟨u, rfl, ds, evaluates⟩
    obtain ⟨w₃, run, renewed⟩ := evaluates.renewed sound handler
    have leave := w₃.slight_progress w.tracers.size w₃.depth w.limit w₃.held
    refine ⟨u, _, rfl, w₃, run, ds, ?_⟩
    constructor
    · exact ((Advances.of_slight sound (inv.mono fun _ _ => .inl) enter rfl).trans
        renewed.advances).trans (.of_slight sound renewed.advances.inv leave rfl)
    · exact (renewed.current.slight sound renewed.advances.inv.grows leave).since enter.grows
    · exact sound.fitsMono leave.grows renewed.fits
    · intro evaluated
      have entered : N.Evaluated w₁ := evaluated
      exact ((Spares.of_slips (n := 0) (.progress w _ _)).trans (renewed.calm entered)).slips
        (n := 0) (.progress w₃ w.limit w₃.held)
  · rintro r w' ⟨u, rfl, ds, renewed⟩
    exact ⟨u, ds, rfl, renewed⟩

end Network

end LiveBinding
