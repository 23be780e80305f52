import LiveBinding.Proofs.Consistency

/-! What a change reaches.

When every bound attribute has a value, a change evaluates those that have what has changed on
record, their changes evaluate those that have them on record, and so on. Links are replaced in
the meantime, and a notification in progress still tells links that have been replaced; but those
are links of attributes that were to be evaluated anyway. -/
namespace LiveBinding

namespace World
variable {w w' : World} {A : Dependency → Prop}

/-- The latest evaluation of a bound attribute has recorded an attribute. -/
def Recorded (w : World) (x d : Dependency) : Prop :=
  ∃ e h v, w.handlerOf? x = some (e, h) ∧ (w.engine e).latest x.name = some v ∧ d ∈ v.consulted

/-- An attribute can be reached from a bound one by what latest evaluations have recorded. -/
def Depends (w : World) (x d : Dependency) : Prop := Relation.TransGen w.Recorded x d

/-- The attribute that an observer evaluates. -/
def siteOf? (w : World) : Observer → Option Dependency
  | .watcher _ => none
  | .link l => (w.links[l.index]?).map Link.site

/-- The links that something in progress holds are for attributes in `A`. -/
def Ties (w : World) (A : Dependency → Prop) : Prop :=
  ∀ ⦃l : LinkRef⦄, .link l ∈ w.held → ∃ k, w.links[l.index]? = some k ∧ A k.site

/-- A bound attribute has the same links, and they observe what they did. -/
def SameWiring (w w' : World) (e : EngineRef) (name : String) : Prop :=
  (w'.engine e).linksOf name = (w.engine e).linksOf name ∧
    ∀ l ∈ (w.engine e).linksOf name, ∀ d,
      (w'.observersOf d).count (.link l) = (w.observersOf d).count (.link l)

theorem Ties.mono (tied : w.Ties A) (grows : w.Extends w')
    (held : ∀ {l}, .link l ∈ w'.held → .link l ∈ w.held) : w'.Ties A := by
  intro l mem
  obtain ⟨k, made, inside⟩ := tied (held mem)
  exact ⟨k, grows.links made, inside⟩

end World

namespace Network
variable {N : Network} {w w' w₀ w₁ w₂ : World} {A : Dependency → Prop} {x y a d : Dependency}
  {v : Value} {e : EngineRef} {h : Handler} {zs zs' zs₀ : List Dependency} {n : Nat}

/-- No body reads a bound attribute. -/
def Flat (N : Network) : Prop := ∀ x y, ¬ N.Reads x y

theorem Flat.rank (flat : N.Flat) (x : Dependency) : N.rank x = 0 := by
  classical
  rw [Network.rank, Finset.card_eq_zero, Finset.filter_eq_empty_iff]
  intro y _ way
  cases way with
  | single reads => exact flat _ _ reads
  | tail _ reads => exact flat _ _ reads

/-! ### Outcomes -/

/-- A change spreads: it proceeds, and spares whatever is not in `A`. -/
structure Spreads (N : Network) (A : Dependency → Prop) (zs : List Dependency) (w w' : World) :
    Prop extends N.Proceeds (fun _ => True) w w', N.Spares A zs w w'

namespace Spreads

theorem trans (first : N.Spreads A zs w w₁) (next : N.Spreads A zs' w₁ w') :
    N.Spreads A (zs ++ zs') w w' :=
  ⟨first.toProceeds.trans next.toProceeds, first.toSpares.trans next.toSpares⟩

theorem of_slips (sound : N.Sound) (inv : N.Inv w fun _ => True) (slips : w.Slips n w') :
    N.Spreads A [] w w' := ⟨.of_slips sound inv slips, .of_slips slips⟩

theorem slips (sound : N.Sound) (first : N.Spreads A zs w w₁) (next : w₁.Slips n w') :
    N.Spreads A zs w w' :=
  ⟨first.toProceeds.stable sound next, first.toSpares.slips next⟩

theorem spacious (rest : N.AtRest w₀) (before : N.Spreads A zs w₀ w) : N.Spacious w :=
  rest.spacious.proceed before.toProceeds

theorem evaluated (rest : N.AtRest w₀) (before : N.Spreads A zs w₀ w) : N.Evaluated w :=
  rest.set.mono before.stored

/-- **A live observer of something in `A` is for an attribute in `A`**: either it is a link that
an engine has, so that the attribute has on record what is observed, or a notification in progress
holds it. -/
theorem inside_of_live (start : N.start.Extends w₀)
    (closed : ∀ {x d}, w₀.Recorded x d → A d → A x) (before : N.Spreads A zs w₀ w)
    (tied : w.Ties A) (source : A d) {change : ObjectId} {live : List Observer}
    (notified : World.Notified d w w' change live) {l : LinkRef} (mem : .link l ∈ live) :
    ∃ k h, w.links[l.index]? = some k ∧ N.start.handlerOf? k.site = some (k.engine, h) ∧
      A k.site ∧ (N.start.Bound d → N.rank d < N.rank k.site) := by
  have observes := notified.observing mem
  obtain ⟨k, h, made, handler, above⟩ := before.inv.link observes
  refine ⟨k, h, made, handler, ?_, fun bound => (above bound).2⟩
  rcases notified.tied mem with held | ⟨e, name, linked⟩
  · obtain ⟨k', made', inside⟩ := tied held
    cases made.symm.trans made'
    exact inside
  · obtain ⟨v, latest, c, due, placed⟩ := before.inv.ledger.exists_placed linked
    cases made.symm.trans placed.made
    obtain ⟨r, found, appears⟩ := World.exists_of_observes observes
    obtain rfl := placed.tells before.inv.ledger.tidy found appears
    by_contra out
    refine out (closed ⟨e, h, v, (start.handlerOf? _).trans handler, ?_, (World.of_mem_due due).1⟩
      source)
    exact (before.latest handler out).symm.trans latest

end Spreads

theorem Renewed.spreads {P : Dependency → Prop} {u : Value} {ds : List Dependency}
    (renewed : N.Renewed P x w u ds w') (evaluated : N.Evaluated w) (inside : A x) :
    N.Spreads A [x] w w' where
  inv := renewed.advances.inv.mono fun _ _ _ => trivial
  grows := renewed.advances.fills.grows
  stored := renewed.advances.fills.isSome
  depth := renewed.advances.depth
  toSpares := (renewed.calm evaluated).mono fun _ same => same ▸ inside

/-! ### Deliveries -/

/-- An update of an attribute in `A` evaluates it, and spreads. -/
def Rerunnable (N : Network) (w₀ : World) (A : Dependency → Prop) (y : Dependency) : Prop :=
  ∀ ⦃e h zs w⦄, N.start.handlerOf? y = some (e, h) → A y → N.Spreads A zs w₀ w → w.Ties A →
    Leads w (fun self => Engine.update self e y.object y.name) fun r w' =>
      r = .ok () ∧ ∃ zs', y ∈ zs' ∧ N.Spreads A zs' w w' ∧ (N.Flat → zs' = [y])

/-- The links among some observers are for attributes in `A` that can be updated. -/
def Tellable (N : Network) (w₀ w : World) (A : Dependency → Prop) (xs : List Observer) : Prop :=
  ∀ l, .link l ∈ xs → ∃ k h, w.links[l.index]? = some k ∧
    N.start.handlerOf? k.site = some (k.engine, h) ∧ A k.site ∧ N.Rerunnable w₀ A k.site

theorem inform_spreads (sound : N.Sound) (before : N.Spreads A zs₀ w₀ w) (tied : w.Ties A)
    {change : ObjectId} (known : ∃ c, w.change? change = some c) {x : Observer}
    (tellable : N.Tellable w₀ w A [x]) :
    Leads w (fun self => inform self change x) fun r w' => r = .ok () ∧ ∃ zs,
      (∀ y, w.siteOf? x = some y → y ∈ zs) ∧ N.Spreads A zs w w' ∧
        (N.Flat → zs = (w.siteOf? x).toList) := by
  cases x with
  | watcher c =>
    refine (World.watcher_leads (n := w.tracers.size) (sound.watched.mono before.inv.grows) change
      c).mono ?_
    rintro r w₁ ⟨rfl, slips⟩
    exact ⟨rfl, [], nofun, .of_slips sound before.inv slips, fun _ => rfl⟩
  | link l =>
    obtain ⟨k, h, made, handler, inside, rerunnable⟩ := tellable l List.mem_cons_self
    obtain ⟨c, found⟩ := known
    have site : w.siteOf? (.link l) = some k.site := by
      rw [World.siteOf?, made]
      rfl
    rw [site]
    refine link_leads sound before.inv.grows made found handler fun {w₁} logged => ?_
    have entered : N.Spreads A [] w w₁ := .of_slips sound before.inv logged.toSlips
    refine (rerunnable handler inside (before.slips sound logged.toSlips)
      (tied.mono logged.slight.grows logged.held)).mono ?_
    rintro r w₂ ⟨rfl, zs, mem, spreads, once⟩
    refine ⟨rfl, zs, fun y same => ?_, entered.trans spreads, once⟩
    cases same
    exact mem

/-- Every link among the observers evaluates its attribute. -/
theorem deliver_spreads (sound : N.Sound) {change : ObjectId} {xs : List Observer}
    (before : N.Spreads A zs₀ w₀ w) (tied : w.Ties A)
    (known : ∃ c, w.change? change = some c) (tellable : N.Tellable w₀ w A xs) :
    Leads w (fun self => deliver self change xs) fun r w' => r = .ok () ∧ ∃ zs,
      (∀ y ∈ xs.filterMap w.siteOf?, y ∈ zs) ∧ N.Spreads A zs w w' ∧
        (N.Flat → zs = xs.filterMap w.siteOf?) := by
  induction xs generalizing w zs₀ with
  | nil =>
    refine Leads.of_eq (fun _ => rfl)
      ⟨rfl, [], nofun, .of_slips (n := 0) sound before.inv (.refl w), fun _ => rfl⟩
  | cons x rest ih =>
    have first := inform_spreads sound before tied known (x := x) fun l mem =>
      tellable l (List.mem_singleton.1 mem ▸ List.mem_cons_self)
    refine Leads.seq ((first.keeps (R := World.Kept) fun n =>
      ((World.frame_kept.performing n).inform World.frame_kept change x).keeps _).mono ?_)
    rintro r w₁ ⟨⟨rfl, zs, told, spreads, once⟩, kept⟩
    obtain ⟨c, found⟩ := known
    -- links are where they were
    have sites : rest.filterMap w₁.siteOf? = rest.filterMap w.siteOf? := by
      refine List.filterMap_congr fun z mem => ?_
      cases z with
      | watcher c => rfl
      | link l =>
        obtain ⟨k, _, made, _⟩ := tellable l (List.mem_cons_of_mem _ mem)
        rw [World.siteOf?, World.siteOf?, made, spreads.grows.links made]
    refine ⟨(), rfl, (ih (before.trans spreads)
      (tied.mono spreads.grows fun mem => kept.progress.1 ▸ mem)
      ⟨c, spreads.grows.change? found⟩ fun l mem => ?_).mono ?_⟩
    · obtain ⟨k, h, made, others⟩ := tellable l (List.mem_cons_of_mem _ mem)
      exact ⟨k, h, spreads.grows.links made, others⟩
    · rintro r w' ⟨rfl, zs', told', spreads', once'⟩
      rw [sites] at told' once'
      refine ⟨rfl, zs ++ zs', fun y mem => ?_, spreads.trans spreads', fun flat => ?_⟩
      · obtain ⟨z, listed, site⟩ := List.mem_filterMap.1 mem
        rcases List.mem_cons.1 listed with rfl | later
        · exact List.mem_append_left _ (told y site)
        · exact List.mem_append_right _ (told' y (List.mem_filterMap.2 ⟨z, later, site⟩))
      · rw [once flat, once' flat]
        cases site : w.siteOf? x with
        | none => rw [List.filterMap_cons_none site]; rfl
        | some y => rw [List.filterMap_cons_some site]; rfl

/-! ### Changes -/

/-- What a change of `d` evaluates: whatever has `d` on record. If no body reads a bound attribute,
nothing is evaluated twice, and a change of a bound attribute evaluates nothing. -/
structure Reruns (N : Network) (w : World) (d : Dependency) (zs : List Dependency) : Prop where
  every : ∀ {y e h v}, N.start.handlerOf? y = some (e, h) → (w.engine e).latest y.name = some v →
    v.owner = y.object → d ∈ v.consulted → d ≠ y → y ∈ zs
  once : N.Flat → (∀ l, Handle.link l ∉ w.held) → zs.Nodup
  idle : N.Flat → N.start.Bound d → zs = []

/-- Two links that engines have, for one attribute and observing one thing, are the same. -/
theorem eq_of_siteOf {P : Dependency → Prop} (inv : N.Inv w P) {l l' : LinkRef}
    (linked : ∃ e name, l ∈ (w.engine e).linksOf name)
    (linked' : ∃ e name, l' ∈ (w.engine e).linksOf name)
    (observes : .link l ∈ w.observersOf d) (observes' : .link l' ∈ w.observersOf d)
    (site : w.siteOf? (.link l) = some y) (site' : w.siteOf? (.link l') = some y) : l' = l := by
  obtain ⟨e, name, linked⟩ := linked
  obtain ⟨e', name', linked'⟩ := linked'
  have place {e : EngineRef} {name : String} {l : LinkRef}
      (linked : l ∈ (w.engine e).linksOf name) (observes : .link l ∈ w.observersOf d)
      (site : w.siteOf? (.link l) = some y) :
      (∃ h, N.start.handlerOf? y = some (e, h)) ∧ name = y.name ∧
        ∃ v, (w.engine e).latest name = some v ∧ d ∈ w.due e name v ∧ w.Placed e name v l d := by
    obtain ⟨v, latest, c, due, placed⟩ := inv.ledger.exists_placed linked
    obtain ⟨r, found, appears⟩ := World.exists_of_observes observes
    obtain rfl := placed.tells inv.ledger.tidy found appears
    obtain ⟨k, h, made, handler, _⟩ := inv.link observes
    cases made.symm.trans placed.made
    rw [World.siteOf?, made] at site
    cases site
    exact ⟨⟨h, handler⟩, rfl, v, latest, due, placed⟩
  obtain ⟨⟨h, handler⟩, rfl, v, latest, due, placed⟩ := place linked observes site
  obtain ⟨⟨h', handler'⟩, rfl, v', latest', due', placed'⟩ := place linked' observes' site'
  cases handler.symm.trans handler'
  cases latest.symm.trans latest'
  have answers := inv.ledger.answers e y.name
  unfold World.Answers at answers
  rw [latest] at answers
  have nodup : (w.due e y.name v).Nodup := by
    unfold World.due
    split
    · exact (inv.ledger.nodup latest).filter _
    · exact List.nodup_nil
  obtain ⟨l₀, _, _, only⟩ := World.exists_unique_partner (fun l b c first second => by
    obtain ⟨r, found, count⟩ := second.registered
    exact first.tells inv.ledger.tidy found (count ▸ Nat.one_pos)) answers nodup due
  rw [only l linked placed, only l' linked' placed']

/-- No attribute is among those of the links that are told twice, if engines have the links. -/
theorem nodup_sites {P : Dependency → Prop} (inv : N.Inv w P)
    {change : ObjectId} {live : List Observer} (notified : World.Notified d w w' change live)
    (quiet : ∀ l, Handle.link l ∉ w.held) : (live.filterMap w.siteOf?).Nodup := by
  rw [List.nodup_iff_count_le_one]
  intro y
  rw [List.count_filterMap]
  by_cases none : ∃ x ∈ live, w.siteOf? x = some y
  · obtain ⟨x, mem, site⟩ := none
    cases x with
    | watcher c => cases site
    | link l =>
      have linked {l : LinkRef} (mem : .link l ∈ live) := (notified.tied mem).resolve_left (quiet l)
      have only : ∀ x ∈ live, (w.siteOf? x == some y) = true → (x == .link l) = true := by
        intro x mem' site'
        rw [beq_iff_eq] at site' ⊢
        cases x with
        | watcher c => cases site'
        | link l' =>
          rw [eq_of_siteOf inv (linked mem) (linked mem') (notified.observing mem)
            (notified.observing mem') site site']
      obtain ⟨r, found, appears⟩ := World.exists_of_observes (notified.observing mem)
      obtain ⟨e, name, held⟩ := linked mem
      obtain ⟨v, latest, c, due, placed⟩ := inv.ledger.exists_placed held
      obtain rfl := placed.tells inv.ledger.tidy found appears
      obtain ⟨r', found', count⟩ := placed.registered
      cases found.symm.trans found'
      calc live.countP (w.siteOf? · == some y)
        _ ≤ live.count (.link l) := List.countP_mono_left only
        _ ≤ (w.observersOf c).count (.link l) := notified.sublist.count_le _
        _ ≤ (w.registry r).appearances c.name (.link l) := by
          rw [World.observersOf, found]
          exact Nat.le_add_right _ _
        _ ≤ 1 := Nat.le_of_eq count
  · rw [Nat.le_one_iff_eq_zero_or_eq_one, List.countP_eq_zero]
    refine .inl fun x mem site => none ⟨x, mem, eq_of_beq site⟩

/-- A change of something in `A` evaluates what has it on record. -/
theorem change_spreads (sound : N.Sound) (start : N.start.Extends w₀)
    (closed : ∀ {x d}, w₀.Recorded x d → A d → A x) (before : N.Spreads A zs₀ w₀ w)
    (tied : w.Ties A) (source : A d) (is : N.start.Attribute d) (kind : ChangeKind)
    (old new : Value)
    (rerunnable : ∀ {y}, (N.start.Bound d → N.rank d < N.rank y) → N.Rerunnable w₀ A y) :
    Leads w (fun self => dispatch self d.object kind d.name old new) fun r w' =>
      r = .ok () ∧ ∃ zs, N.Spreads A zs w w' ∧ N.Reruns w d zs := by
  obtain ⟨x, known, _⟩ := before.inv.grows.attribute.2 is
  refine dispatch_leads sound before.inv.grows known kind old new ?_ ?_ ?_
  · rintro w₁ w₂ slips ⟨zs, spreads, reruns⟩
    exact ⟨zs, spreads.slips sound slips, reruns⟩
  · rintro w' ⟨zs, spreads, _⟩
    exact spreads.inv.grows
  · intro w₁ change live notified
    have slips := notified.slips
    have entered : N.Spreads A [] w w₁ := .of_slips sound before.inv slips
    have sites : live.filterMap w₁.siteOf? = live.filterMap w.siteOf? :=
      List.filterMap_congr fun z _ => by
        cases z with
        | watcher c => rfl
        | link l => rw [World.siteOf?, World.siteOf?, slips.slight.still.links]
    have inside {l : LinkRef} (mem : .link l ∈ live) :=
      before.inside_of_live start closed tied source notified mem
    refine (deliver_spreads sound (before.slips sound slips) (fun l mem => ?_) notified.change
      fun l mem => ?_).mono ?_
    · rcases notified.held mem with old | told
      · obtain ⟨k, made, within⟩ := tied old
        exact ⟨k, slips.slight.grows.links made, within⟩
      · obtain ⟨k, h, made, _, within, _⟩ := inside told
        exact ⟨k, slips.slight.grows.links made, within⟩
    · obtain ⟨k, h, made, handler, within, above⟩ := inside mem
      exact ⟨k, h, slips.slight.grows.links made, handler, within, rerunnable above⟩
    · rintro r w' ⟨rfl, zs, told, spreads, flat⟩
      rw [sites] at told flat
      refine ⟨rfl, zs, entered.trans spreads, fun {y e h v} handler latest owner mem other => ?_,
        fun flattened quiet => ?_, fun flattened bound => ?_⟩
      · obtain ⟨e', h', l, handler', held, observes⟩ :=
          before.inv.awaits_of_latest sound handler latest owner is mem other
        obtain ⟨k, made, site⟩ := before.inv.site sound handler' held observes
        have engine := (before.inv.grows.engineOf? y.object).trans
          (World.handlerOf?_eq_some.1 handler').1
        refine told y (List.mem_filterMap.2 ⟨_, notified.live engine held observes, ?_⟩)
        rw [World.siteOf?, made]
        exact congrArg some site
      · rw [flat flattened]
        exact nodup_sites before.inv notified quiet
      · rw [flat flattened, List.filterMap_eq_nil_iff]
        intro z mem
        cases z with
        | watcher c => rfl
        | link l =>
          obtain ⟨k, _, _, _, _, above⟩ := inside mem
          have higher := above bound
          rw [flattened.rank, flattened.rank] at higher
          exact absurd higher (Nat.lt_irrefl 0)

/-! ### Assignments -/

theorem Spares.store (is : w.Attribute d) (inside : A d) (v : Value) :
    N.Spares A [] w (w.store d v) where
  valueOf? {c} out := by
    rw [World.valueOf?_store is, if_neg]
    rintro rfl
    exact out inside
  latest _ _ := rfl
  linksOf _ _ := rfl
  appearances _ := rfl
  more := Nat.le_refl _
  calls := (List.append_nil _).symm
  inside := nofun

/-- An assignment of another value evaluates what has the attribute on record. -/
theorem assign_spreads (sound : N.Sound) (start : N.start.Extends w₀)
    (closed : ∀ {x d}, w₀.Recorded x d → A d → A x) (before : N.Spreads A zs₀ w₀ w)
    (tied : w.Ties A) (source : A d) (assignable : N.start.Assignable d) (fit : N.fits w d v)
    (now : N.start.Bound d → ∃ ds, N.Current N.start w d v ds)
    (rerunnable : ∀ {y}, (N.start.Bound d → N.rank d < N.rank y) → N.Rerunnable w₀ A y) :
    Leads w (fun self => setAttr self (.object d.object) d.name v) fun r w' =>
      r = .ok () ∧ ∃ zs, N.Spreads A zs w w' ∧ (N.Flat → N.start.Bound d → zs = []) ∧
        ((∀ old, w.valueOf? d = some old → w.equal old v = false) → N.Reruns w d zs) := by
  have is := assignable.attribute
  refine World.assign_leads (assignable.mono before.inv.grows) ?_ ?_ ?_
  · rintro w₁ w₂ slips ⟨zs, spreads, rest⟩
    exact ⟨zs, spreads.slips sound slips, rest⟩
  · intro w₁ old slips here equal
    refine ⟨[], .of_slips sound before.inv slips, fun _ _ => rfl, fun differs => ?_⟩
    rw [differs old here] at equal
    cases equal
  · intro w₁ kind old eases _ _
    have slips := eases.toSlips
    have entered : N.Spreads A [] w w₁ := .of_slips sound before.inv slips
    have is₁ := entered.inv.grows.attribute.2 is
    have inv₂ : N.Inv (w₁.store d v) fun _ => True := by
      refine ((entered.inv.mono fun _ _ => .inl).store sound is
        (sound.fitsMono slips.slight.grows fit) fun bound => ?_).mono fun _ _ _ => trivial
      obtain ⟨ds, current⟩ := now bound
      exact ⟨ds, current.slight sound before.inv.grows slips.slight⟩
    have stored : N.Spreads A [] w₁ (w₁.store d v) := {
      inv := inv₂
      grows := World.extends_store is₁ v
      stored := fun {c} set => by
        rw [World.valueOf?_store is₁]
        split
        · rfl
        · exact set
      depth := rfl
      toSpares := .store is₁ source v }
    refine (change_spreads sound start closed (before.trans (entered.trans stored))
      (tied.mono (entered.grows.trans stored.grows) eases.held) source is kind old v
        rerunnable).mono ?_
    rintro r w' ⟨rfl, zs, spreads, reruns⟩
    refine ⟨rfl, zs, (entered.trans stored).trans spreads, reruns.idle, fun _ => ?_⟩
    exact {
      every := fun handler latest =>
        reruns.every handler ((slips.slight.still.latest _ _).trans latest)
      once := fun flat quiet => reruns.once flat fun l mem => quiet l (eases.held mem)
      idle := reruns.idle }

/-- **Whatever is in `A` is evaluated by an update**, which spreads to what has a higher rank. -/
theorem rerunnable (sound : N.Sound) (rest : N.AtRest w₀)
    (closed : ∀ {x d}, w₀.Recorded x d → A d → A x) (y : Dependency) : N.Rerunnable w₀ A y := by
  intro e h zs w handler inside before tied
  have bound : N.start.Bound y := ⟨e, h, handler⟩
  refine World.update_leads (n := w.tracers.size) e ?_ fun {w₁} enter => ?_
  · rintro w₁ w₂ slips ⟨zs', mem, spreads, flat⟩
    exact ⟨zs', mem, spreads.slips sound slips, flat⟩
  · have entered : N.Spreads A [] w w₁ := .of_slips sound before.inv enter.toSlips
    have before₁ := before.trans entered
    have reads := readBinding_leads sound (evaluable sound _) entered.inv handler
      (before₁.spacious rest).roomy
    refine (reads.keeps (R := World.Kept) fun n =>
      ((World.frame_kept.performing n).readBinding e y.object y.name).keeps _).mono ?_
    rintro r w₂ ⟨⟨u, ds, rfl, renewed⟩, kept⟩
    refine ⟨u, rfl, fun {w₃} guarded _ => ?_⟩
    have spreads : N.Spreads A [y] w w₃ :=
      (entered.trans (renewed.spreads (before₁.evaluated rest) inside)).slips sound guarded.toSlips
    have tied₃ : w₃.Ties A :=
      tied.mono spreads.grows fun mem => enter.held (kept.progress.1 ▸ guarded.held mem)
    refine (assign_spreads sound rest.inv.grows closed (before.trans spreads) tied₃ inside
      (sound.assignable bound) (sound.fitsMono guarded.slight.grows renewed.fits)
      (fun _ => ⟨ds, ?_⟩) fun {z} above => ?_).mono ?_
    · exact (renewed.current.slight sound renewed.advances.inv.grows guarded.slight).since
        entered.inv.grows
    · have higher := above bound
      exact rerunnable sound rest closed z
    · rintro r w' ⟨rfl, zs', next, idle, _⟩
      refine ⟨rfl, [y] ++ zs', List.mem_cons_self, spreads.trans next, fun flat => ?_⟩
      rw [idle flat bound]
      rfl
termination_by N.start.sites.length - N.rank y
decreasing_by
  have room := N.rank_le z
  omega

/-! ### Assigning from outside -/

/-- Functions are the ones there were from the start. -/
theorem bodyCall?_eq (sound : N.Sound) (start : N.start.Extends w) (x : Dependency) :
    N.start.bodyCall? x = w.bodyCall? x := by
  rw [World.bodyCall?, World.bodyCall?, start.handlerOf?]
  cases handler : N.start.handlerOf? x with
  | none => rfl
  | some y =>
    obtain ⟨g, code, _⟩ := sound.code (e := y.1) (h := y.2) handler
    rw [Option.map_some, Option.map_some, start.functionName code]

/-- What is spared keeps its links, and they observe what they did. -/
theorem Spreads.sameWiring (inv : N.Inv w fun _ => True) (spreads : N.Spreads A zs w w')
    (handler : N.start.handlerOf? d = some (e, h)) (out : ¬ A d) : w.SameWiring w' e d.name := by
  have linksOf := spreads.linksOf handler out
  obtain ⟨engine, _⟩ := World.handlerOf?_eq_some.1 handler
  refine ⟨linksOf, fun l mem c => ?_⟩
  have count {u : World} (inv : N.Inv u fun _ => True) {r : RegistryRef}
      (mem : l ∈ (u.engine e).linksOf d.name) :
      ((u.registry r).observers c.name).count (.link l) =
        (u.registry r).appearances c.name (.link l) := by
    rw [Registry.appearances, List.count_eq_zero.2 (inv.fresh engine mem), Nat.add_zero]
  obtain ⟨v, _, _, _, placed⟩ := inv.ledger.exists_placed mem
  have old : l.index < w.links.size := (Array.getElem?_eq_some_iff.1 placed.made).1
  rw [World.observersOf, World.observersOf, spreads.grows.registryOf?]
  cases w.registryOf? c.object with
  | none => rfl
  | some r =>
    exact (count spreads.inv (linksOf ▸ mem)).trans
      ((spreads.appearances old).trans (count inv mem).symm)

/-- **A change reaches its dependents, and nothing else.** In a network that has been initialized,
an assignment of another value to an attribute that is not bound runs every body whose latest
evaluation has recorded the attribute. It only runs bodies from which the attribute can be reached
by what was recorded before, and whatever it cannot be reached from keeps its value and its links.
If no body reads a bound attribute, each direct dependent is run once. An equal value changes
nothing. -/
theorem Sound.reaches_dependents (sound : N.Sound) (ample : N.start.sites.length ≤ N.room)
    {os : List ObjectId} (every : ∀ {o d}, N.start.declared? o = some d → o ∈ os)
    (course : N.Course (populateEach os) w) (quiet : Linkless w.held)
    (assignable : N.start.Assignable a) (free : ¬ N.start.Bound a) (fit : N.fits w a v) :
    Leads w (fun self => (Operation.set a v).program.run self) fun r w' => r = .ok () ∧
      ((∃ old, w.valueOf? a = some old ∧ w.equal old v = true) → w' = w) ∧
      ((∀ old, w.valueOf? a = some old → w.equal old v = false) → ∃ zs : List Dependency,
        w'.calls = w.calls ++ zs.filterMap w.bodyCall? ∧
        (∀ x, w.Recorded x a → x ∈ zs) ∧ (∀ z ∈ zs, w.Depends z a) ∧
        (N.Flat → ∀ x, w.Recorded x a → zs.count x = 1) ∧
        ∀ d, d ≠ a → ¬ w.Depends d a → w'.valueOf? d = w.valueOf? d ∧
          ∀ e h, w.handlerOf? d = some (e, h) → w.SameWiring w' e d.name) := by
  have rest : N.AtRest w := course.atRest sound (sound.begins ample every)
  have start := rest.inv.grows
  have inv : N.Inv w fun _ => True := rest.inv.mono fun _ _ _ => trivial
  by_cases equals : ∃ old, w.valueOf? a = some old ∧ w.equal old v = true
  · obtain ⟨old, here, same⟩ := equals
    have run := World.setAttr_of_equal (assignable.mono start) here same
    refine Leads.ask (Leads.request
      (Leads.of_eq run (Leads.done ⟨rfl, fun _ => rfl, fun differs => ?_⟩)))
    rw [differs old here] at same
    cases same
  -- whatever the attribute can be reached from, and the attribute itself
  let A (d : Dependency) : Prop := Relation.ReflTransGen w.Recorded d a
  have none (l : LinkRef) : Handle.link l ∉ w.held := fun mem => Bool.noConfusion (quiet _ mem)
  have closed {x d : Dependency} (recorded : w.Recorded x d) (way : A d) : A x := .head recorded way
  have depends {d : Dependency} (other : d ≠ a) : A d ↔ w.Depends d a := by
    refine Relation.reflTransGen_iff_eq_or_transGen.trans ⟨fun either => ?_, .inr⟩
    exact either.resolve_left fun same => other same.symm
  have assigned := assign_spreads sound start closed (.of_slips (n := 0) sound inv (.refl w))
    (fun l mem => absurd mem (none l)) .refl assignable fit (fun bound => absurd bound free)
      fun _ => rerunnable sound rest closed _
  refine Leads.ask (Leads.request (assigned.mono ?_))
  rintro r w' ⟨rfl, zs, spreads, _, reruns⟩
  refine Leads.done ⟨rfl, fun same => absurd same equals, fun differs => ?_⟩
  have reruns := reruns differs
  have direct (x : Dependency) (recorded : w.Recorded x a) : x ∈ zs := by
    obtain ⟨e, h, u, handler, latest, mem⟩ := recorded
    rw [start.handlerOf?] at handler
    have bound : N.start.Bound x := ⟨e, h, handler⟩
    obtain ⟨y, here⟩ := Option.isSome_iff_exists.1 (rest.set bound)
    obtain ⟨_, ds, _, _, e', h', u', handler', latest', owner, _⟩ := rest.inv.current bound here id
    cases handler.symm.trans handler'
    cases latest.symm.trans latest'
    exact reruns.every handler latest owner mem fun same => free (same ▸ bound)
  refine ⟨zs, ?_, direct, fun z mem => ?_, fun flat x recorded => ?_, fun d other out => ?_⟩
  · rw [spreads.calls]
    exact congrArg _ (List.filterMap_congr fun x _ => bodyCall?_eq sound start x)
  · obtain ⟨bound, way⟩ := spreads.inside z mem
    exact (depends fun same => free (same ▸ bound)).1 way
  · exact List.count_eq_one_of_mem (reruns.once flat none) (direct x recorded)
  · have out' : ¬ A d := fun way => out ((depends other).1 way)
    refine ⟨spreads.valueOf? out', fun e h handler => ?_⟩
    rw [start.handlerOf?] at handler
    exact spreads.sameWiring inv handler out'

end Network

/-! ### Doubling again -/

namespace doublingNetwork
variable {room : Nat}

/-- The latest evaluation of the first bound attribute has recorded what it doubles. -/
theorem recorded_double {w : World} (rest : (doublingNetwork room).AtRest w) :
    w.Recorded ⟨⟨0⟩, "double"⟩ ⟨⟨0⟩, "base"⟩ := by
  have bound : (doublingNetwork room).start.Bound ⟨⟨0⟩, "double"⟩ := bound_of_name (.inl rfl)
  obtain ⟨v, here⟩ := Option.isSome_iff_exists.1 (rest.set bound)
  obtain ⟨u, ds, _, yields, e, h, v, handler, latest, _, recorded⟩ := rest.inv.current bound here id
  obtain ⟨c, p, found, consult, _⟩ := yields.comes
  obtain ⟨σ, suits⟩ := rest.inv.suits sound
  have fit : (doublingNetwork room).Fit w w.valuation := fun d is => by
    rw [← suits.settled d is fun bound => rest.set bound]
    exact suits.fit d is
  obtain ⟨i, name, consult', cases⟩ := doublingNetwork.consult rest.inv.grows fit found
  cases consult.symm.trans consult'
  have name : name = "base" := cases.resolve_right fun other => by
    exact absurd (congrArg Dependency.name other.1) (by decide)
  subst name
  exact ⟨e, h, v, (rest.inv.grows.handlerOf? _).trans handler, latest,
    recorded _ (List.mem_singleton.2 rfl) ⟨_, rfl, rfl⟩⟩

/-- When another number is assigned, the first bound attribute is evaluated again. -/
theorem doubles_again : ∃ (w : World) (i : Int64) (w' : World) (zs : List Dependency),
    Ends (fun self => (populateEach [⟨0⟩]).run self) (doublingNetwork 2).start (.ok ()) w ∧
      Ends (fun self => (Operation.set ⟨⟨0⟩, "base"⟩ (.int i)).program.run self) w (.ok ()) w' ∧
      w'.calls = w.calls ++ zs.filterMap w.bodyCall? ∧ ⟨⟨0⟩, "double"⟩ ∈ zs := by
  let N := doublingNetwork 2
  have every {o : ObjectId} {d : Declared} (here : N.start.declared? o = some d) :
      o ∈ [(⟨0⟩ : ObjectId)] := List.mem_singleton.2 (declared here).1
  have ample : N.start.sites.length ≤ N.room := by decide +kernel
  obtain ⟨r, w, ends, rfl, rest⟩ := sound.begins ample every
  have reached : Reachable w := by
    obtain ⟨m, ends⟩ := ends
    exact reachable.run _ (ends m (Nat.le_refl m))
  have is : N.start.Attribute ⟨⟨0⟩, "base"⟩ := ⟨_, rfl, rfl⟩
  obtain ⟨i, differs⟩ : ∃ i, ∀ old, w.valueOf? ⟨⟨0⟩, "base"⟩ = some old →
      w.equal old (.int i) = false := by
    cases here : w.valueOf? ⟨⟨0⟩, "base"⟩ with
    | none => exact ⟨0, nofun⟩
    | some old =>
      obtain ⟨j, rfl⟩ := rest.inv.fits is here
      refine ⟨if j = 2 then 3 else 2, fun old same => ?_⟩
      cases same
      rw [World.equal_int, decide_eq_false_iff_not]
      split
      · next two =>
        rw [two]
        decide
      · next other => exact other
  obtain ⟨r, w', runs, rfl, _, changed⟩ :=
    sound.reaches_dependents (N := N) ample every (.begun ends)
    (World.settled_of_reachable reached).quiet ⟨_, rfl, rfl, rfl⟩ free_base (v := .int i) ⟨i, rfl⟩
  obtain ⟨zs, calls, direct, _⟩ := changed differs
  exact ⟨w, i, w', zs, ends, runs, calls, direct _ (recorded_double rest)⟩

end doublingNetwork

end LiveBinding
