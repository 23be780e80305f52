import LiveBinding.Proofs.Peers
import LiveBinding.Proofs.Reachable
import LiveBinding.Proofs.Undisturbed

/-! What names and paths mean.

A name, or a path of attributes that starts with one, means something before anything is
evaluated, as long as the attributes on the way are not bound. What it means is computed here from
the world as it is, and so are the attributes that are consulted on the way. A view passes
everything on to the nearest object of its owner's chain, which may be a view itself; but owners
are older than their views, so this comes to an end. -/
namespace LiveBinding

namespace World
variable {w w' : World} {o p q : ObjectId} {name : String}

/-! ### Parents and owners are older -/

/-- Parents and owners of views are older than what refers to them. -/
structure Descends (w : World) : Prop where
  parent : ∀ {o d p}, w.declared? o = some d → d.parent = some p → p.index < o.index
  owner : ∀ {o p t}, w.entity? o = some (.view p t) → p.index < o.index

namespace Descends

theorem of_objects (descends : w.Descends) (objects : w'.objects = w.objects) : w'.Descends where
  parent known := descends.parent (by simpa only [declared?, entity?, objects] using known)
  owner known := descends.owner (by simpa only [entity?, objects] using known)

theorem addObject (descends : w.Descends) {x : Entity}
    (parent : ∀ d p, x = .declared d → d.parent = some p → p.index < w.objects.size)
    (owner : ∀ p t, x = .view p t → p.index < w.objects.size) : (w.addObject x).1.Descends where
  parent {o d p} known older := by
    rw [declared?_addObject] at known
    split at known
    · next last =>
      rw [last]
      cases x with
      | declared d' =>
        cases known
        exact parent _ p rfl older
      | change c => cases known
      | view p t => cases known
    · exact descends.parent known older
  owner {o p t} known := by
    rw [entity?_addObject] at known
    split at known
    · next last =>
      rw [last]
      cases known
      exact owner p t rfl
    · exact descends.owner known

theorem modifyDeclared (descends : w.Descends) {f : Declared → Declared}
    (parent : ∀ d, (f d).parent = d.parent) : (w.modifyDeclared o f).Descends where
  parent {q d p} known older := by
    rw [declared?_modifyDeclared] at known
    split at known
    · obtain ⟨d', there, rfl⟩ := Option.map_eq_some_iff.1 known
      exact descends.parent there ((parent d').symm.trans older)
    · exact descends.parent known older
  owner {q p t} known := by
    rw [entity?_modifyDeclared] at known
    split at known
    · obtain ⟨x, there, same⟩ := Option.map_eq_some_iff.1 known
      cases x with
      | declared d => cases same
      | change c => cases same
      | view p' t' =>
        cases same
        exact descends.owner there
    · exact descends.owner known

theorem newObject (b : Blueprint) :
    (LiveBinding.newObject b).Keeps fun w w' => w.Descends → w'.Descends := by
  have F : Steady fun w w' : World => w.Descends → w'.Descends :=
    ⟨fun first next here => next (first here), fun quiet here => here.of_objects quiet.objects⟩
  refine fun w => F.seq_add (fun here => here.of_objects rfl) ?_
  refine F.seq (F.addSlots _ _) (fun slots w => .of_eq rfl fun here => ?_) _
  refine here.addObject (fun d p same older => ?_) fun p t same => nomatch same
  cases same
  obtain ⟨_, there⟩ := Option.filter_eq_some_iff.1 older
  exact w.has_iff.1 there

end Descends

theorem declare_parent (d : Declared) (name : String) : (d.declare name).parent = d.parent := by
  unfold Declared.declare
  split <;> rfl

/-- Whatever a request does, parents and owners are older than what refers to them. -/
theorem frame_descends : Frame fun w w' => w.Persists w' ∧ (w.Descends → w'.Descends) where
  trans first next := ⟨first.1.trans next.1, next.2 ∘ first.2⟩
  quiet quiet := ⟨.quiet quiet, fun here => here.of_objects quiet.objects⟩
  hold inside :=
    ⟨frame_persists.hold inside.1, fun here => (inside.2 (here.of_objects rfl)).of_objects rfl⟩
  limited inside :=
    ⟨frame_persists.limited inside.1, fun here => (inside.2 (here.of_objects rfl)).of_objects rfl⟩
  nested inside :=
    ⟨frame_persists.nested inside.1, fun here => (inside.2 (here.of_objects rfl)).of_objects rfl⟩
  guarded {w w' e name} inside := by
    refine ⟨frame_persists.guarded inside.1, fun here => ?_⟩
    have there : w'.Descends := by
      refine inside.2 (here.of_objects ?_)
      unfold guard
      split <;> rfl
    refine there.of_objects ?_
    unfold unguard
    split <;> rfl
  change w c := ⟨frame_persists.change w c, fun here =>
    here.addObject (fun _ _ same => nomatch same) fun _ _ same => nomatch same⟩
  view w o t there := ⟨frame_persists.view w o t there, fun here =>
    here.addObject (fun _ _ same => nomatch same) fun _ _ same => by
      cases same
      exact w.has_iff.1 there⟩
  object b w r w' run :=
    ⟨frame_persists.object b w r w' run, Descends.newObject b w r w' run⟩
  store w o d name v known constant declared :=
    ⟨frame_persists.store w o d name v known constant declared, fun here =>
      here.modifyDeclared fun _ => rfl⟩
  unset w o d name old known constant stored :=
    ⟨frame_persists.unset w o d name old known constant stored, fun here =>
      here.modifyDeclared fun d => declare_parent _ name⟩
  slot w o key free :=
    ⟨frame_persists.slot w o key free, fun here => by
      have layered : (w.addLayer .empty).1.Descends := here.of_objects rfl
      exact layered.modifyDeclared fun _ => rfl⟩
  bind o name op f key w r w' run := by
    have F : Steady fun w w' : World => w.Descends → w'.Descends :=
      ⟨fun first next here => next (first here), fun quiet here => here.of_objects quiet.objects⟩
    refine ⟨frame_persists.bind o name op f key w r w' run, ?_⟩
    refine F.bindAttribute o name op f key (fun w here => ?_) (fun w c here => here.of_objects rfl)
      (fun w e here => ?_) (fun w e here => here.of_objects rfl) w r w' run
    · exact here.modifyDeclared fun d => declare_parent d name
    · exact here.modifyDeclared fun _ => rfl
  registry w := ⟨frame_persists.registry w, fun here => here.of_objects rfl⟩
  observe w r name c := ⟨frame_persists.observe w r name c, fun here => here.of_objects rfl⟩
  prune w r name xs found :=
    ⟨frame_persists.prune w r name xs found, fun here => here.of_objects rfl⟩
  tell w x change := ⟨frame_persists.tell w x change, fun here => here.of_objects rfl⟩
  tracer w owner name := ⟨frame_persists.tracer w owner name, fun here => here.of_objects rfl⟩
  trace w t o name := ⟨frame_persists.trace w t o name, fun here => here.of_objects rfl⟩
  drain w t := ⟨frame_persists.drain w t, fun here => here.of_objects rfl⟩
  engine w config := ⟨frame_persists.engine w config, fun here => here.of_objects rfl⟩
  addBinding w e name b := ⟨frame_persists.addBinding w e name b, fun here => here.of_objects rfl⟩
  clear w e := ⟨frame_persists.clear w e, fun here => here.of_objects rfl⟩
  bound inside := frame_persists.bound inside.1
  relink w e owner name t bound r w' run := by
    have F : Steady fun w w' : World => w.Descends → w'.Descends :=
      ⟨fun first next here => next (first here), fun quiet here => here.of_objects quiet.objects⟩
    refine ⟨frame_persists.relink w e owner name t bound r w' run, ?_⟩
    exact F.relink e owner name t (fun w _ here => here.of_objects rfl)
      (fun w here => here.of_objects rfl) (fun w _ here => here.of_objects rfl)
      (fun w _ _ _ here => here.of_objects rfl) (fun w _ here => here.of_objects rfl) w r w' run

theorem descends_of_reachable (reached : Reachable w) : w.Descends := by
  refine reached.invariant frame_descends (fun natives => ⟨fun known => ?_, fun known => ?_⟩)
    (fun step here => step.2 here) (fun _ _ here => here.of_objects rfl)
    fun here => here.of_objects rfl
  · cases known
  · cases known

/-- What is found on a chain is no younger than where the chain starts. -/
theorem Descends.nearest?_le (descends : w.Descends) (found : w.nearest? o name = some p) :
    p.index ≤ o.index := by
  have within (fuel : Nat) (o : ObjectId) (found : w.nearestWithin name fuel o = some p) :
      p.index ≤ o.index := by
    induction fuel generalizing o with
    | zero =>
      rw [nearestWithin] at found
      cases found
    | succ fuel ih =>
      rw [nearestWithin] at found
      split at found
      · cases found
        exact Nat.le_refl _
      · split at found
        · next q parent =>
          obtain ⟨declared, _⟩ := Option.filter_eq_some_iff.1 parent
          obtain ⟨d, known, older⟩ := Option.bind_eq_some_iff.1 declared
          exact Nat.le_trans (ih q found) (Nat.le_of_lt (descends.parent known older))
        · cases found
  exact within _ o found

/-! ### Where an attribute is found -/

/-- The object that supplies an attribute, looked for through at most `fuel` views. -/
def supplierWithin (w : World) (name : String) : Nat → ObjectId → Option ObjectId
  | 0, _ => none
  | fuel + 1, o =>
    match w.entity? o with
    | some (.view p _) => (w.nearest? p name).bind (w.supplierWithin name fuel)
    | _ => some o

/-- The object that supplies an attribute when another one is asked for it. -/
def supplier? (w : World) (o : ObjectId) (name : String) : Option ObjectId :=
  w.supplierWithin name (o.index + 1) o

theorem supplier?_of_plain (plain : w.Plain o) : w.supplier? o name = some o := by
  unfold supplier? supplierWithin
  split
  · next p t entity => exact absurd entity (plain p t)
  · rfl

theorem Descends.supplierWithin (descends : w.Descends) {fuel : Nat} (enough : o.index < fuel) :
    w.supplierWithin name fuel o = w.supplier? o name := by
  have within (m : Nat) : ∀ {n : Nat} {o : ObjectId}, o.index < m → o.index < n →
      w.supplierWithin name m o = w.supplierWithin name n o := by
    induction m with
    | zero => exact fun less => absurd less (Nat.not_lt_zero _)
    | succ m ih =>
      intro n o less less'
      obtain ⟨k, rfl⟩ : ∃ k, n = k + 1 := ⟨n - 1, by omega⟩
      unfold World.supplierWithin
      split
      · next p t entity =>
        refine Option.bind_congr fun q found => ?_
        have older := descends.owner entity
        have down := descends.nearest?_le found
        exact ih (by omega) (by omega)
      · rfl
  exact within fuel enough (Nat.lt_succ_self _)

/-- A view has the attributes of its owner's chain. -/
theorem Descends.supplier?_view (descends : w.Descends) {t : Option TracerRef}
    (entity : w.entity? o = some (.view p t)) :
    w.supplier? o name = (w.nearest? p name).bind (w.supplier? · name) := by
  have older := descends.owner entity
  rw [supplier?, World.supplierWithin, entity]
  refine Option.bind_congr fun q found => descends.supplierWithin ?_
  exact Nat.lt_of_le_of_lt (descends.nearest?_le found) older

/-! ### What is held is there -/

/-- The object, the map or the layer of variables exists. -/
def Includes (w : World) : Handle → Prop
  | .object o => o.index < w.objects.size
  | .map r => r.index < w.maps.size
  | .layer l => l.index < w.layers.size
  | _ => True

instance (w : World) : DecidablePred w.Includes := fun h => by
  cases h <;> unfold Includes <;> infer_instance

/-- No reference dangles. -/
def Intact (w : World) : Prop := ∀ h, h ∈ w.roots ∨ (∃ g, w.Holds g h) → w.Includes h

theorem exists_of_isLive {h : Handle} (live : w.isLive h = true) :
    h ∈ w.roots ∨ ∃ g, w.Holds g h ∧ w.isLive g = true := by
  by_contra neither
  rw [not_or] at neither
  refine isLive_iff.1 live (.intro neither.1 fun g held => ?_)
  by_contra stays
  exact neither.2 ⟨g, held, isLive_iff.2 stays⟩

theorem Intact.includes (intact : w.Intact) {h : Handle} (live : w.isLive h = true) :
    w.Includes h :=
  intact h ((exists_of_isLive live).imp_right fun ⟨g, held, _⟩ => ⟨g, held⟩)

/-- A view holds its owner. -/
theorem isLive_of_view (live : w.isLive (.object o) = true) {t : Option TracerRef}
    (entity : w.entity? o = some (.view p t)) : w.isLive (.object p) = true := by
  refine isLive_of_holds live ⟨mem_holders.2 (Array.getElem?_eq_some_iff.1 entity).1, ?_⟩
  rw [holds, entity]
  exact List.mem_cons_self

theorem Descends.isLive_of_supplier? (descends : w.Descends) (live : w.isLive (.object o) = true)
    (found : w.supplier? o name = some p) : w.isLive (.object p) = true := by
  induction size : o.index using Nat.strong_induction_on generalizing o with
  | _ n ih =>
    by_cases plain : w.Plain o
    · rw [supplier?_of_plain plain] at found
      cases found
      exact live
    · obtain ⟨q, t, entity⟩ : ∃ q t, w.entity? o = some (.view q t) := by
        simpa only [Plain, ne_eq, not_forall, not_not] using plain
      rw [descends.supplier?_view entity] at found
      obtain ⟨r, near, found⟩ := Option.bind_eq_some_iff.1 found
      have older := descends.owner entity
      have down := descends.nearest?_le near
      exact ih r.index (by omega) (isLive_of_nearest? (isLive_of_view live entity) near) found rfl

end World

/-! ### Names and paths -/

/-- What a name or a path has come to. Besides values there are the attributes around a scope's
owner, as a whole. -/
inductive Base where
  | value (v : Value)
  | around
deriving DecidableEq, Inhabited

/-- The meaning that a scope gives to a reserved name. -/
def Scope.base? (s : Scope) : Reserved → Option Base
  | .self => some (.value (.object s.owner))
  | .change => s.change.map fun o => .value (.object o)
  | .tracer => s.tracer.map fun t => .value (.tracer t)
  | .nonlocals => some .around

namespace World
variable {w w' : World}

/-- The object that supplies an attribute of a base. -/
def supplierOf? (w : World) (s : Scope) (name : String) : Base → Option ObjectId
  | .value (.object o) => w.supplier? o name
  | .value _ => none
  | .around => (w.nearest? s.owner name).bind (w.supplier? · name)

/-- The attribute that is consulted for a name of a base, and what it has to show. -/
def consult (w : World) (s : Scope) (b : Base) (name : String) : Option (Dependency × Value) :=
  (w.supplierOf? s name b).bind fun p => (w.glance ⟨p, name⟩).map (⟨p, name⟩, ·)

theorem consulted {s : Scope} {b : Base} {name : String} {d : Dependency} {v : Value}
    (found : w.consult s b name = some (d, v)) :
    w.supplierOf? s name b = some d.object ∧ d.name = name ∧ w.glance d = some v := by
  obtain ⟨p, supplier, found⟩ := Option.bind_eq_some_iff.1 found
  obtain ⟨x, shows, same⟩ := Option.map_eq_some_iff.1 found
  cases same
  exact ⟨supplier, rfl, shows⟩

/-- The attributes that are consulted on the way from a base, and where the way leads. -/
def walk (w : World) (s : Scope) : List String → Base → List Dependency × Option Base
  | [], b => ([], some b)
  | hop :: rest, b =>
    match w.consult s b hop with
    | some (d, v) => (d :: (w.walk s rest (.value v)).1, (w.walk s rest (.value v)).2)
    | none => ([], none)

/-- The attributes that are consulted for a name in a scope, and what it means. -/
def meaning (w : World) (s : Scope) (name : String) : List Dependency × Option Base :=
  match (Reserved.ofName? name).bind s.base? with
  | some b => ([], some b)
  | none =>
    match (w.layer s.locals).get? name with
    | some v => ([], some (.value v))
    | none =>
      match w.consult s .around name with
      | some (d, v) => ([d], some (.value v))
      | none =>
        ([], ((s.environment.globals.get? name).or (s.environment.builtins.get? name)).map .value)

/-- The attributes that are consulted on a path, and where it leads. -/
def lead (w : World) (s : Scope) (path : Path) : List Dependency × Option Base :=
  match w.meaning s path.root with
  | (ds, some b) => (ds ++ (w.walk s path.hops b).1, (w.walk s path.hops b).2)
  | (ds, none) => (ds, none)

/-- Whoever looks things up in the scope holds it, and what is held is there. -/
structure Backs (s : Scope) (w : World) : Prop where
  descends : w.Descends
  intact : w.Intact
  held : ∀ h ∈ s.handles, h ∈ w.roots

/-- What the base refers to is held. -/
def Grasps (w : World) : Base → Prop
  | .value v => ∀ h ∈ v.handles, w.isLive h = true
  | .around => True

namespace Backs
variable {s : Scope} {b : Base} {d : Dependency} {v : Value} {name : String}
  {o p : ObjectId} (backs : w.Backs s)
include backs

theorem isLive {h : Handle} (mem : h ∈ s.handles) : w.isLive h = true :=
  isLive_of_mem_roots (backs.held h mem)

theorem owner : w.isLive (.object s.owner) = true := backs.isLive List.mem_cons_self

theorem isLive_of_supplierOf? (grasps : w.Grasps b) (found : w.supplierOf? s name b = some p) :
    w.isLive (.object p) = true := by
  cases b with
  | value v =>
    cases v with
    | object o =>
      exact backs.descends.isLive_of_supplier? (grasps _ (List.mem_singleton_self _)) found
    | _ => cases found
  | around =>
    obtain ⟨q, near, found⟩ := Option.bind_eq_some_iff.1 found
    exact backs.descends.isLive_of_supplier? (isLive_of_nearest? backs.owner near) found

/-- What has been found is held. -/
theorem grasps_of_consult (grasps : w.Grasps b) (found : w.consult s b name = some (d, v)) :
    w.Grasps (.value v) := by
  obtain ⟨supplier, rfl, shows⟩ := consulted found
  exact fun h mem => isLive_of_glance (backs.isLive_of_supplierOf? grasps supplier) shows mem

theorem grasps_of_walk {hops : List String} {c : Base} (grasps : w.Grasps b)
    (leads : (w.walk s hops b).2 = some c) : w.Grasps c := by
  induction hops generalizing b with
  | nil =>
    cases leads
    exact grasps
  | cons hop rest ih =>
    rw [walk] at leads
    split at leads
    · next d v found => exact ih (backs.grasps_of_consult grasps found) leads
    · cases leads

theorem grasps_of_reserved {r : Reserved} (means : s.base? r = some b) : w.Grasps b := by
  cases r with
  | self =>
    cases means
    exact fun h mem => List.mem_singleton.1 mem ▸ backs.owner
  | change =>
    obtain ⟨o, change, rfl⟩ := Option.map_eq_some_iff.1 means
    intro h mem
    cases List.mem_singleton.1 mem
    refine backs.isLive (List.mem_append_left _ (List.mem_append_right _ ?_))
    rw [change]
    exact List.mem_singleton_self _
  | tracer =>
    obtain ⟨t, tracer, rfl⟩ := Option.map_eq_some_iff.1 means
    intro h mem
    cases List.mem_singleton.1 mem
    refine backs.isLive (List.mem_append_right _ ?_)
    rw [tracer]
    exact List.mem_singleton_self _
  | nonlocals =>
    cases means
    trivial

theorem grasps_of_meaning (means : (w.meaning s name).2 = some b) : w.Grasps b := by
  unfold meaning at means
  split at means
  · next c reserved =>
    cases means
    obtain ⟨r, _, means⟩ := Option.bind_eq_some_iff.1 reserved
    exact backs.grasps_of_reserved means
  · split at means
    · next v found =>
      cases means
      intro h mem
      have layer := backs.isLive (List.mem_cons_of_mem _ List.mem_cons_self)
      refine isLive_of_holds layer ⟨mem_holders.2 (backs.intact.includes layer), ?_⟩
      exact List.mem_flatMap.2 ⟨_, Dict.get?_eq_some.1 found, mem⟩
    · split at means
      · next d v found =>
        cases means
        exact backs.grasps_of_consult (b := .around) trivial found
      · obtain ⟨v, found, rfl⟩ := Option.map_eq_some_iff.1 means
        intro h mem
        have inside : h ∈ s.environment.handles := by
          rcases Option.or_eq_some_iff.1 found with global | ⟨_, builtin⟩
          · exact List.mem_append_left _ (List.mem_flatMap.2 ⟨_, Dict.get?_eq_some.1 global, mem⟩)
          · exact List.mem_append_right _ (List.mem_flatMap.2 ⟨_, Dict.get?_eq_some.1 builtin, mem⟩)
        refine backs.isLive ?_
        simp only [Scope.handles, List.cons_append, List.mem_cons, List.mem_append]
        exact .inr (.inr (.inl (.inl inside)))

theorem grasps_of_lead {path : Path} (leads : (w.lead s path).2 = some b) : w.Grasps b := by
  unfold lead at leads
  split at leads
  · next ds c root => exact backs.grasps_of_walk (backs.grasps_of_meaning (by rw [root])) leads
  · cases leads

end Backs

/-! ### Worlds in which the same is found -/

/-- The objects that there were are the same, but for values of attributes, and those that are held
have the parents they had. Others may be new. -/
structure Resembles (w w' : World) : Prop where
  object : ∀ {o}, o.index < w.objects.size → SameObject (w.entity? o) (w'.entity? o)
  parent : ∀ {o}, o.index < w.objects.size → w.isLive (.object o) = true →
    w'.parent? o = w.parent? o

namespace Resembles
variable {s : Scope} {b : Base} {d : Dependency} {v : Value} {name : String} {o p : ObjectId}
  (alike : w.Resembles w')
include alike

theorem within (descends : w.Descends) (name : String) (fuel : Nat) {o : ObjectId}
    (old : o.index < w.objects.size) (live : w.isLive (.object o) = true) :
    w'.hasWithin name fuel o = w.hasWithin name fuel o ∧
      w'.nearestWithin name fuel o = w.nearestWithin name fuel o := by
  induction fuel generalizing o with
  | zero => exact ⟨by simp only [hasWithin], by simp only [nearestWithin]⟩
  | succ fuel ih =>
    constructor
    · have object := alike.object old
      simp only [hasWithin]
      generalize here : w.entity? o = x, w'.entity? o = x' at object
      cases object with
      | same x =>
        rcases x with _ | d | c | ⟨p, t⟩
        · rfl
        · rfl
        · rfl
        · simp only [(ih (Nat.lt_trans (descends.owner here) old) (isLive_of_view live here)).2]
      | declared fixed => exact fixed.attributes name
    · simp only [nearestWithin, (ih old live).1, alike.parent old live]
      split
      · rfl
      · cases parent : w.parent? o with
        | none => rfl
        | some p =>
          obtain ⟨declared, there⟩ := Option.filter_eq_some_iff.1 parent
          obtain ⟨d, known, older⟩ := Option.bind_eq_some_iff.1 declared
          exact (ih (Nat.lt_trans (descends.parent known older) old) there).2

theorem nearest? (descends : w.Descends) (old : o.index < w.objects.size)
    (live : w.isLive (.object o) = true) : w'.nearest? o name = w.nearest? o name :=
  (alike.within descends name _ old live).2

theorem supplier? (descends : w.Descends) (descends' : w'.Descends) (old : o.index < w.objects.size)
    (live : w.isLive (.object o) = true) : w'.supplier? o name = w.supplier? o name := by
  induction size : o.index using Nat.strong_induction_on generalizing o with
  | _ n ih =>
    have object := alike.object old
    by_cases plain : w.Plain o
    · have plain' : w'.Plain o := by
        intro p t there
        rw [there] at object
        generalize here : w.entity? o = x at object
        cases object with
        | same => exact plain p t here
      rw [supplier?_of_plain plain, supplier?_of_plain plain']
    · obtain ⟨q, t, entity⟩ : ∃ q t, w.entity? o = some (.view q t) := by
        simpa only [Plain, ne_eq, not_forall, not_not] using plain
      have entity' : w'.entity? o = some (.view q t) := by
        rw [entity] at object
        generalize w'.entity? o = x at object
        cases object with
        | same => rfl
      have older := descends.owner entity
      have owner := isLive_of_view live entity
      rw [descends.supplier?_view entity, descends'.supplier?_view entity',
        alike.nearest? descends (Nat.lt_trans older old) owner]
      refine Option.bind_congr fun r near => ?_
      have down := descends.nearest?_le near
      exact ih r.index (by omega) (by omega) (isLive_of_nearest? owner near) rfl

/-- Whether an attribute has something to show does not depend on its value. -/
theorem glance_isSome (old : d.object.index < w.objects.size) :
    (w'.glance d).isSome = (w.glance d).isSome := by
  have object := alike.object old
  simp only [World.glance]
  generalize w.entity? d.object = x, w'.entity? d.object = x' at object
  cases object with
  | same x =>
    rcases x with _ | x | c | ⟨p, t⟩
    · rfl
    · simp only []
      split <;> rfl
    · rfl
    · rfl
  | declared fixed =>
    simp only [fixed.attributes]
    split <;> rfl

theorem glance (old : d.object.index < w.objects.size) (same : w'.valueOf? d = w.valueOf? d) :
    w'.glance d = w.glance d := by
  have object := alike.object old
  simp only [World.glance, valuation, same]
  generalize w.entity? d.object = x, w'.entity? d.object = x' at object
  cases object with
  | same x => rfl
  | declared fixed => simp only [fixed.attributes]

variable (backs : w.Backs s) (descends : w'.Descends)
include backs descends

theorem supplierOf? (grasps : w.Grasps b) :
    w'.supplierOf? s name b = w.supplierOf? s name b := by
  have old {o : ObjectId} (live : w.isLive (.object o) = true) : o.index < w.objects.size :=
    backs.intact.includes live
  cases b with
  | value v =>
    cases v with
    | object o =>
      have live := grasps _ (List.mem_singleton_self _)
      exact alike.supplier? backs.descends descends (old live) live
    | _ => rfl
  | around =>
    simp only [World.supplierOf?]
    rw [alike.nearest? backs.descends (old backs.owner) backs.owner]
    refine Option.bind_congr fun q near => ?_
    have live := isLive_of_nearest? backs.owner near
    exact alike.supplier? backs.descends descends (old live) live

/-- The same attribute is consulted. It shows the same if it has the same value. -/
theorem consult (grasps : w.Grasps b)
    (same : ∀ d v, w.consult s b name = some (d, v) → w'.valueOf? d = w.valueOf? d) :
    w'.consult s b name = w.consult s b name := by
  simp only [World.consult] at same ⊢
  rw [alike.supplierOf? backs descends grasps]
  refine Option.bind_congr fun p supplier => ?_
  have old : p.index < w.objects.size :=
    backs.intact.includes (backs.isLive_of_supplierOf? grasps supplier)
  cases shows : w.glance ⟨p, name⟩ with
  | none =>
    have isSome := alike.glance_isSome (d := ⟨p, name⟩) old
    rw [shows, Option.isSome_none] at isSome
    rw [Option.not_isSome_iff_eq_none.1 (Bool.eq_false_iff.1 isSome)]
  | some v =>
    rw [alike.glance old (same ⟨p, name⟩ v ?_), shows]
    rw [supplier, Option.bind_some, shows, Option.map_some]

theorem walk {hops : List String} (grasps : w.Grasps b)
    (same : ∀ d ∈ (w.walk s hops b).1, w'.valueOf? d = w.valueOf? d) :
    w'.walk s hops b = w.walk s hops b := by
  induction hops generalizing b with
  | nil => rfl
  | cons hop rest ih =>
    rw [World.walk] at same ⊢
    rw [World.walk, alike.consult backs descends grasps fun d v found => same d ?_]
    · split
      · next d v found =>
        rw [found] at same
        rw [ih (backs.grasps_of_consult grasps found) fun e mem =>
          same e (List.mem_cons_of_mem _ mem)]
      · rfl
    · rw [found]
      exact List.mem_cons_self

theorem meaning (locals : (w'.layer s.locals).get? name = (w.layer s.locals).get? name)
    (same : ∀ d ∈ (w.meaning s name).1, w'.valueOf? d = w.valueOf? d) :
    w'.meaning s name = w.meaning s name := by
  unfold World.meaning at same ⊢
  rw [locals]
  split
  · rfl
  · next reserved =>
    rw [reserved] at same
    dsimp only at same
    split
    · rfl
    · next unset =>
      rw [unset] at same
      dsimp only at same
      rw [alike.consult (b := .around) backs descends trivial fun d v found => same d ?_]
      rw [found]
      exact List.mem_cons_self

theorem lead {path : Path}
    (locals : (w'.layer s.locals).get? path.root = (w.layer s.locals).get? path.root)
    (same : ∀ d ∈ (w.lead s path).1, w'.valueOf? d = w.valueOf? d) :
    w'.lead s path = w.lead s path := by
  unfold World.lead at same ⊢
  cases root : w.meaning s path.root with
  | mk ds b =>
    rw [root] at same
    have means : w'.meaning s path.root = (ds, b) := by
      rw [alike.meaning backs descends locals fun d mem => same d ?_, root]
      rw [root] at mem
      cases b with
      | some b => exact List.mem_append_left _ mem
      | none => exact mem
    rw [means]
    cases b with
    | some b =>
      dsimp only at same ⊢
      rw [alike.walk backs descends (backs.grasps_of_meaning (by rw [root])) fun d mem =>
        same d (List.mem_append_right _ mem)]
    | none => rfl

end Resembles

end World

end LiveBinding
