import LiveBinding.Proofs.Lookup

/-! Looking things up.

When nothing on the way is bound, names and paths are followed to what they mean, and this changes
nothing: it makes a view at most, and tracers put on record what has been read. What was gone
stays gone in the meantime, and what was there stays there. -/
namespace LiveBinding.World
variable {w u u' : World} {g h : Handle} {o p q : ObjectId} {name : String}

/-! ### What is held -/

/-- There is no such object yet. -/
def Young (w : World) : Handle → Prop
  | .object o => w.objects.size ≤ o.index
  | _ => False

/-- Nothing is held that was not held before, but for what is new. -/
structure Confines (w u : World) : Prop where
  roots : ∀ h ∈ u.roots, w.isLive h = true ∨ w.Young h
  edges : ∀ {g h}, u.Holds g h → w.Holds g h ∨ w.isLive h = true

/-- What was gone does not come back. -/
theorem Confines.dropped (confines : w.Confines u) (gone : w.Dropped h) (old : ¬ w.Young h) :
    u.Dropped h := by
  induction gone with
  | @intro h outside inside ih =>
    have away : ¬ w.isLive h = true := fun live => isLive_iff.1 live (.intro outside inside)
    refine .intro (fun root => ?_) fun g held => ?_
    · exact (confines.roots h root).elim away old
    · rcases confines.edges held with before | live
      · refine ih g before fun young => ?_
        have there := mem_holders.1 before.1
        cases g with
        | object o => exact absurd there (Nat.not_lt_of_le young)
        | _ => exact young
      · exact absurd live away

/-- `u` is a world in the course of looking things up that began in `w`: there may be new views,
and tracers may have recorded more. -/
structure Surveys (w u : World) : Prop where
  confines : w.Confines u
  roots : ∀ h ∈ w.roots, h ∈ u.roots
  edges : ∀ {g h}, w.Holds g h → u.Holds g h
  entity : ∀ {o}, o.index < w.objects.size → u.entity? o = w.entity? o
  new : ∀ {o}, w.objects.size ≤ o.index → u.declared? o = none
  lists : u.lists = w.lists
  maps : u.maps = w.maps
  layers : u.layers = w.layers
  natives : u.natives = w.natives
  registries : u.registries = w.registries
  engines : u.engines = w.engines
  desk : u.desk = w.desk

namespace Surveys
variable (surveys : w.Surveys u)
include surveys

theorem isLive (old : ¬ w.Young h) : u.isLive h = w.isLive h := by
  rw [Bool.eq_iff_iff, isLive_iff, isLive_iff, not_iff_not]
  refine ⟨fun gone => ?_, fun gone => surveys.confines.dropped gone old⟩
  clear old
  induction gone with
  | intro outside inside ih =>
    exact .intro (fun root => outside (surveys.roots _ root)) fun g held =>
      ih g (surveys.edges held)

theorem declared? (o : ObjectId) : u.declared? o = w.declared? o := by
  by_cases old : o.index < w.objects.size
  · simp only [World.declared?, surveys.entity old]
  · rw [surveys.new (Nat.le_of_not_lt old), w.declared?_of_size_le (Nat.le_of_not_lt old)]

theorem resembles (descends : w.Descends) : w.Resembles u where
  object old := by
    rw [surveys.entity old]
    exact .same _
  parent {o} old _ := by
    rw [parent?, parent?, surveys.declared? o]
    cases parent : (w.declared? o).bind Declared.parent with
    | none => rfl
    | some p =>
      obtain ⟨d, known, older⟩ := Option.bind_eq_some_iff.1 parent
      have live : u.isLive (.object p) = w.isLive (.object p) := surveys.isLive fun young =>
        absurd (Nat.lt_trans (descends.parent known older) old) (Nat.not_lt_of_le young)
      rw [Option.filter_some, Option.filter_some, live]

theorem valueOf? (d : Dependency) : u.valueOf? d = w.valueOf? d := by
  rw [World.valueOf?, World.valueOf?, stored?, stored?, surveys.declared?]

theorem engineOf? (o : ObjectId) : u.engineOf? o = w.engineOf? o := by
  rw [World.engineOf?, World.engineOf?, surveys.declared?]

theorem handlerOf? (d : Dependency) : u.handlerOf? d = w.handlerOf? d := by
  simp only [World.handlerOf?, surveys.engineOf?, engine, surveys.engines]

end Surveys

/-! ### What each step holds -/

theorem holds_addObject {x : Entity} : (u.addObject x).1.Holds g h ↔
    g = .object ⟨u.objects.size⟩ ∧ h ∈ x.handles ∨ u.Holds g h := by
  have size : (u.addObject x).1.objects.size = u.objects.size + 1 := Array.size_push _
  by_cases new : g = .object ⟨u.objects.size⟩
  · subst new
    have entity := (u.entity?_addObject x ⟨u.objects.size⟩).trans (if_pos rfl)
    simp only [Holds, mem_holders, holds, size, entity, Nat.lt_irrefl, false_and, or_false,
      true_and, Nat.lt_succ_self]
    rfl
  · have same : (u.addObject x).1.holds g = u.holds g := by
      cases g with
      | object o =>
        have other : o.index ≠ u.objects.size := fun same => new (by rw [← same])
        simp only [holds, entity?_addObject, if_neg other]
      | _ => rfl
    have there : g ∈ (u.addObject x).1.holders ↔ g ∈ u.holders := by
      rw [mem_holders, mem_holders]
      cases g with
      | object o =>
        have other : o.index ≠ u.objects.size := fun same => new (by rw [← same])
        simp only [size]
        omega
      | _ => exact Iff.rfl
    simp only [Holds, same, there, new, false_and, false_or]

theorem holds_record {t : TracerRef} {d : Dependency}
    (held : (u.modifyTracer t (·.record d)).Holds g h) : u.Holds g h ∨ h = .object d.object := by
  obtain ⟨there, mem⟩ := held
  have here : g ∈ u.holders := by
    rw [mem_holders] at there ⊢
    cases g with
    | tracer t' => exact Nat.lt_of_lt_of_eq there Array.size_modify
    | _ => exact there
  cases g with
  | tracer t' =>
    simp only [holds, tracer_modifyTracer] at mem
    split at mem
    · unfold Tracer.record at mem
      split at mem
      · exact .inl ⟨here, mem⟩
      · simp only [Tracer.handles, List.map_append, List.mem_cons, List.mem_append, List.map_cons,
          List.map_nil, List.not_mem_nil, or_false] at mem
        rcases mem with owner | old | new
        · exact .inl ⟨here, owner ▸ List.mem_cons_self⟩
        · exact .inl ⟨here, List.mem_cons_of_mem _ old⟩
        · exact .inr new
    · exact .inl ⟨here, mem⟩
  | _ => exact .inl ⟨here, mem⟩

theorem Holds.record (held : u.Holds g h) (t : TracerRef) (d : Dependency) :
    (u.modifyTracer t (·.record d)).Holds g h := by
  obtain ⟨there, mem⟩ := held
  refine ⟨?_, ?_⟩
  · rw [mem_holders] at there ⊢
    cases g with
    | tracer t' => exact Nat.lt_of_lt_of_eq there Array.size_modify.symm
    | _ => exact there
  · cases g with
    | tracer t' =>
      simp only [holds, tracer_modifyTracer]
      split
      · unfold Tracer.record
        split
        · exact mem
        · simp only [Tracer.handles, List.map_append]
          exact List.mem_cons.2 ((List.mem_cons.1 mem).imp_right (List.mem_append_left _))
      · exact mem
    | _ => exact mem

namespace Surveys

theorem refl (w : World) : w.Surveys w where
  confines := ⟨fun _ root => .inl (isLive_of_mem_roots root), .inl⟩
  roots _ := id
  edges := id
  entity _ := rfl
  new := w.declared?_of_size_le
  lists := rfl
  maps := rfl
  layers := rfl
  natives := rfl
  registries := rfl
  engines := rfl
  desk := rfl

variable (surveys : w.Surveys u)
include surveys

theorem more : w.objects.size ≤ u.objects.size := by
  by_contra less
  have gone := surveys.entity (o := ⟨u.objects.size⟩) (Nat.lt_of_not_le less)
  have there : (w.entity? ⟨u.objects.size⟩).isSome = true := by
    rw [entity?_isSome]
    exact w.has_iff.2 (Nat.lt_of_not_le less)
  rw [← gone, entity?_isSome, has_iff] at there
  exact Nat.lt_irrefl _ there

/-- Somebody asks for the attributes around an owner that is held. -/
theorem view {t : Option TracerRef} (near : ∀ h ∈ (Entity.view p t).handles, w.isLive h = true) :
    w.Surveys (u.addObject (.view p t)).1 where
  confines.roots := surveys.confines.roots
  confines.edges held := by
    rcases holds_addObject.1 held with ⟨_, mem⟩ | before
    · exact .inr (near _ mem)
    · exact surveys.confines.edges before
  roots := surveys.roots
  edges held := holds_addObject.2 (.inr (surveys.edges held))
  entity old := by
    rw [entity?_addObject, if_neg (Nat.ne_of_lt (Nat.lt_of_lt_of_le old surveys.more))]
    exact surveys.entity old
  new young := by
    rw [declared?_addObject]
    split
    · rfl
    · exact surveys.new young
  lists := surveys.lists
  maps := surveys.maps
  layers := surveys.layers
  natives := surveys.natives
  registries := surveys.registries
  engines := surveys.engines
  desk := surveys.desk

/-- Somebody holds on to what is held anyway, or to a view that is new. -/
theorem hold {hs : List Handle} (near : ∀ h ∈ hs, w.isLive h = true ∨ w.Young h) :
    w.Surveys (u.hold hs) where
  confines.roots h root := by
    rcases List.mem_append.1 root with kept | held
    · exact surveys.confines.roots h (List.mem_append_left _ kept)
    · rcases List.mem_append.1 held with new | before
      · exact near h new
      · exact surveys.confines.roots h (List.mem_append_right _ before)
  confines.edges := surveys.confines.edges
  roots h root := by
    rcases List.mem_append.1 (surveys.roots h root) with kept | held
    · exact List.mem_append_left _ kept
    · exact List.mem_append_right _ (List.mem_append_right _ held)
  edges := surveys.edges
  entity := surveys.entity
  new := surveys.new
  lists := surveys.lists
  maps := surveys.maps
  layers := surveys.layers
  natives := surveys.natives
  registries := surveys.registries
  engines := surveys.engines
  desk := surveys.desk

/-- Somebody lets go again. -/
theorem release (later : w.Surveys u') : w.Surveys {u' with held := u.held} where
  confines.roots h root := by
    rcases List.mem_append.1 root with kept | held
    · exact later.confines.roots h (List.mem_append_left _ kept)
    · exact surveys.confines.roots h (List.mem_append_right _ held)
  confines.edges := later.confines.edges
  roots h root := by
    rcases List.mem_append.1 (surveys.roots h root) with kept | held
    · refine List.mem_append_left _ ?_
      rw [surveys.desk] at kept
      show h ∈ u'.desk.kept.entries.flatMap _
      rw [later.desk]
      exact kept
    · exact List.mem_append_right _ held
  edges := later.edges
  entity := later.entity
  new := later.new
  lists := later.lists
  maps := later.maps
  layers := later.layers
  natives := later.natives
  registries := later.registries
  engines := later.engines
  desk := later.desk

/-- A tracer records something that is held. -/
theorem record {d : Dependency} (live : w.isLive (.object d.object) = true) (t : TracerRef) :
    w.Surveys (u.modifyTracer t (·.record d)) where
  confines.roots := surveys.confines.roots
  confines.edges held := by
    rcases holds_record held with before | rfl
    · exact surveys.confines.edges before
    · exact .inr live
  roots := surveys.roots
  edges held := (surveys.edges held).record t d
  entity := surveys.entity
  new := surveys.new
  lists := surveys.lists
  maps := surveys.maps
  layers := surveys.layers
  natives := surveys.natives
  registries := surveys.registries
  engines := surveys.engines
  desk := surveys.desk

end Surveys

/-! ### Reading attributes -/

/-- With enough nested steps this comes out, and nothing has happened but looking. -/
abbrev Finds {α : Type} (w u : World) (a : Performer → Action α)
    (Q : Except BindError α → World → Prop) : Prop :=
  Leads u a fun r u' => Q r u' ∧ w.Surveys u' ∧ u'.held = u.held

/-- What reading an attribute of an object finds. -/
def look (w : World) (name : String) (supplier : Option ObjectId) : Option Value :=
  supplier.bind fun p => w.glance ⟨p, name⟩

/-- An attribute that has something to show has no read binding. -/
def Looks (w : World) (name : String) (supplier : Option ObjectId) : Prop :=
  ∀ p, supplier = some p → (w.glance ⟨p, name⟩).isSome = true → w.handlerOf? ⟨p, name⟩ = none

theorem loadName_finds {t : Option TracerRef} (descends : w.Descends)
    (live : w.isLive (.object o) = true) (old : o.index < w.objects.size) (surveys : w.Surveys u)
    (reads : ∀ q, w.nearest? o name = some q → w.Finds u (fun self => readAttr self q name)
      fun r _ => r = .ok (w.look name (w.supplier? q name))) :
    w.Finds u (fun self => loadName self o name t) fun r _ =>
      r = .ok (w.look name ((w.nearest? o name).bind (w.supplier? · name))) := by
  refine Leads.read ?_
  rw [(surveys.resembles descends).nearest? descends old live]
  cases near : w.nearest? o name with
  | none => exact Leads.pure ⟨rfl, surveys, rfl⟩
  | some q =>
    refine Leads.seq (Leads.request (reads q near |>.mono ?_))
    rintro r u₁ ⟨rfl, surveys₁, held⟩
    refine ⟨_, rfl, ?_⟩
    have recorded (t : TracerRef) : w.Surveys (u₁.modifyTracer t (·.record ⟨q, name⟩)) :=
      surveys₁.record (d := ⟨q, name⟩) (isLive_of_nearest? live near) t
    cases found : w.look name (w.supplier? q name) with
    | none => exact Leads.pure ⟨congrArg _ found.symm, surveys₁, held⟩
    | some x =>
      cases t with
      | none => exact Leads.pure ⟨congrArg _ found.symm, surveys₁, held⟩
      | some t => exact Leads.update (Leads.pure ⟨congrArg _ found.symm, recorded t, held⟩)

/-- Holding on to something that is held anyway, or to a new view, makes no difference. -/
theorem Surveys.holding {α : Type} {a : Performer → Action α} {Q : Except BindError α → Prop}
    {hs : List Handle} (surveys : w.Surveys u) (near : ∀ h ∈ hs, w.isLive h = true ∨ w.Young h)
    (finds : w.Surveys (u.hold hs) → w.Finds (u.hold hs) a fun r _ => Q r) :
    w.Finds u (fun self => Action.holding hs (a self)) fun r _ => Q r := by
  refine Leads.holding ((finds (surveys.hold near)).mono ?_)
  rintro r u' ⟨here, later, held⟩
  exact ⟨here, surveys.release later, rfl⟩

theorem readAttr_finds (descends : w.Descends) (intact : w.Intact)
    (live : w.isLive (.object o) = true) (surveys : w.Surveys u)
    (quiet : w.Looks name (w.supplier? o name)) :
    w.Finds u (fun self => readAttr self o name) fun r _ =>
      r = .ok (w.look name (w.supplier? o name)) := by
  induction size : o.index using Nat.strong_induction_on generalizing o u with
  | _ n ih =>
    have old : o.index < w.objects.size := intact.includes live
    by_cases plain : w.Plain o
    · rw [supplier?_of_plain plain] at quiet ⊢
      have shows : u.glance ⟨o, name⟩ = w.glance ⟨o, name⟩ :=
        (surveys.resembles descends).glance old (surveys.valueOf? _)
      have plain' : u.Plain o := fun p t => by
        rw [surveys.entity old]
        exact plain p t
      refine Leads.of_eq (readAttr_glance (d := ⟨o, name⟩) (fun shown => .inl ?_) plain')
        ⟨congrArg _ shows, surveys, rfl⟩
      rw [surveys.handlerOf?]
      exact quiet o rfl (by rw [← shows, shown])
    · obtain ⟨p, t, entity⟩ : ∃ p t, w.entity? o = some (.view p t) := by
        simpa only [Plain, ne_eq, not_forall, not_not] using plain
      have owner := isLive_of_view live entity
      have older := descends.owner entity
      rw [descends.supplier?_view entity] at quiet ⊢
      refine Leads.read ?_
      rw [surveys.entity old, entity]
      refine surveys.holding (fun h mem => .inl (List.mem_singleton.1 mem ▸ live)) fun surveys₁ =>
        ?_
      refine loadName_finds descends owner (by omega) surveys₁ fun q near => ?_
      have down := descends.nearest?_le near
      rw [near] at quiet
      exact ih q.index (by omega) (isLive_of_nearest? owner near) surveys₁ quiet rfl

/-! ### Names and paths -/

/-- The value is what the base is in the course of an evaluation. -/
def Stands (w u : World) (s : Scope) : Base → Value → Prop
  | .value x, v => v = x
  | .around, v => ∃ o, v = .object o ∧ u.entity? o = some (.view s.owner s.tracer) ∧
      w.objects.size ≤ o.index

/-- The value is given that has been found. If there is none, access is refused. -/
def Gives : Option Value → Except BindError Value → Prop
  | some x, r => r = .ok x
  | none, r => ∃ c, r = .error (.access c)

namespace Backs
variable {s : Scope} {b : Base} {v : Value} {path : Path} (backs : w.Backs s)
include backs

theorem isLive_view : ∀ h ∈ (Entity.view s.owner s.tracer).handles, w.isLive h = true := by
  intro h mem
  rcases List.mem_cons.1 mem with rfl | tracer
  · exact backs.owner
  · exact backs.isLive (List.mem_append_right _ tracer)

/-- The attributes around the owner are looked through. -/
theorem around_finds {t : Option TracerRef} (surveys : w.Surveys u)
    (quiet : w.Looks name (w.supplierOf? s name .around)) :
    w.Finds u (fun self => loadName self s.owner name t) fun r _ =>
      r = .ok (w.look name (w.supplierOf? s name .around)) := by
  refine loadName_finds backs.descends backs.owner (backs.intact.includes backs.owner) surveys
    fun q near => ?_
  simp only [supplierOf?, near] at quiet
  exact readAttr_finds backs.descends backs.intact (isLive_of_nearest? backs.owner near)
    surveys quiet

/-- Reading an attribute of a base finds what is consulted. -/
theorem getAttr_finds (surveys : w.Surveys u) (grasps : w.Grasps b) (stands : w.Stands u s b v)
    (quiet : w.Looks name (w.supplierOf? s name b)) :
    w.Finds u (fun self => getAttr self v name) fun r _ =>
      Gives (w.look name (w.supplierOf? s name b)) r := by
  -- what comes of reading an attribute of an object
  have object {o : ObjectId} {found : Option Value}
      (reads : w.Finds u (fun self => readAttr self o name) fun r _ => r = .ok found) :
      w.Finds u (fun self => getAttr self (.object o) name) fun r _ => Gives found r := by
    refine Leads.seq (reads.mono ?_)
    rintro r u' ⟨rfl, surveys', held⟩
    refine ⟨_, rfl, ?_⟩
    cases found with
    | none => exact Leads.read (Leads.throw ⟨⟨_, rfl⟩, surveys', held⟩)
    | some x => exact Leads.pure ⟨rfl, surveys', held⟩
  cases b with
  | around =>
    obtain ⟨o, rfl, entity, young⟩ := stands
    refine object (Leads.read ?_)
    rw [entity]
    refine surveys.holding (fun h mem => .inr (List.mem_singleton.1 mem ▸ young)) fun surveys₁ => ?_
    exact backs.around_finds surveys₁ quiet
  | value x =>
    obtain rfl : v = x := stands
    cases v with
    | object o =>
      refine object (readAttr_finds backs.descends backs.intact ?_ surveys quiet)
      exact grasps _ (List.mem_singleton_self _)
    | _ => exact Leads.read (Leads.throw ⟨⟨_, rfl⟩, surveys, rfl⟩)

/-- Following attributes from a base leads where it should. -/
theorem follow_finds {hops : List String} (surveys : w.Surveys u) (grasps : w.Grasps b)
    (stands : w.Stands u s b v) (quiet : ∀ d ∈ (w.walk s hops b).1, w.handlerOf? d = none) :
    w.Finds u (fun self => follow self path hops v) fun r u' =>
      match (w.walk s hops b).2 with
      | some c => ∃ x, r = .ok x ∧ w.Stands u' s c x
      | none => ∃ c, r = .error (.inversion c) := by
  induction hops generalizing u b v with
  | nil => exact Leads.of_eq (fun _ => rfl) ⟨⟨v, rfl, stands⟩, surveys, rfl⟩
  | cons hop rest ih =>
    have looks : w.Looks hop (w.supplierOf? s hop b) := by
      intro p supplier shows
      obtain ⟨x, shows⟩ := Option.isSome_iff_exists.1 shows
      refine quiet _ ?_
      have found : w.consult s b hop = some (⟨p, hop⟩, x) := by
        rw [consult, supplier, Option.bind_some, shows, Option.map_some]
      rw [walk, found]
      exact List.mem_cons_self
    refine Leads.seq (Leads.attempt ((backs.getAttr_finds surveys grasps stands looks).mono ?_))
    rintro r u₁ ⟨gave, surveys₁, held₁⟩
    refine ⟨r, rfl, ?_⟩
    rw [walk]
    cases found : w.consult s b hop with
    | none =>
      have nothing : w.look hop (w.supplierOf? s hop b) = none := by
        cases supplier : w.supplierOf? s hop b with
        | none => rfl
        | some p =>
          rw [consult, supplier, Option.bind_some, Option.map_eq_none_iff] at found
          rw [look, Option.bind_some, found]
      rw [nothing] at gave
      obtain ⟨c, rfl⟩ := gave
      exact Leads.read (Leads.throw ⟨⟨_, rfl⟩, surveys₁, held₁⟩)
    | some dv =>
      obtain ⟨d, x⟩ := dv
      obtain ⟨supplier, rfl, shows⟩ := consulted found
      have something : w.look d.name (w.supplierOf? s d.name b) = some x := by
        rw [supplier, look, Option.bind_some, shows]
      rw [something] at gave
      subst gave
      rw [walk, found] at quiet
      refine (ih surveys₁ (backs.grasps_of_consult grasps found) rfl fun e mem =>
        quiet e (List.mem_cons_of_mem _ mem)).mono ?_
      rintro r u' ⟨leads, surveys', held⟩
      exact ⟨leads, surveys', held.trans held₁⟩

/-- Behind the locals a name means an attribute around the owner, or what the module says. -/
theorem outerName_finds (surveys : w.Surveys u)
    (quiet : ∀ d v, w.consult s .around name = some (d, v) → w.handlerOf? d = none) :
    w.Finds u (fun self => outerName self s name) fun r _ =>
      match w.consult s .around name with
      | some (_, v) => r = .ok v
      | none => match (s.environment.globals.get? name).or (s.environment.builtins.get? name) with
        | some v => r = .ok v
        | none => r = .error (.nameResolution name) := by
  have looks : w.Looks name (w.supplierOf? s name .around) := by
    intro p supplier shows
    obtain ⟨x, shows⟩ := Option.isSome_iff_exists.1 shows
    refine quiet _ x ?_
    rw [consult, supplier, Option.bind_some, shows, Option.map_some]
  refine Leads.seq ((backs.around_finds surveys looks).mono ?_)
  rintro r u₁ ⟨rfl, surveys₁, held₁⟩
  refine ⟨_, rfl, ?_⟩
  cases found : w.consult s .around name with
  | some dv =>
    obtain ⟨d, v⟩ := dv
    obtain ⟨supplier, rfl, shows⟩ := consulted found
    have something : w.look d.name (w.supplierOf? s d.name .around) = some v := by
      rw [supplier, look, Option.bind_some, shows]
    rw [something]
    exact Leads.pure ⟨rfl, surveys₁, held₁⟩
  | none =>
    have nothing : w.look name (w.supplierOf? s name .around) = none := by
      cases supplier : w.supplierOf? s name .around with
      | none => rfl
      | some p =>
        rw [consult, supplier, Option.bind_some, Option.map_eq_none_iff] at found
        rw [look, Option.bind_some, found]
    rw [nothing]
    dsimp only
    cases global : s.environment.globals.get? name with
    | some v => exact Leads.pure ⟨rfl, surveys₁, held₁⟩
    | none =>
      cases builtin : s.environment.builtins.get? name with
      | some v => exact Leads.pure ⟨rfl, surveys₁, held₁⟩
      | none => exact Leads.throw ⟨rfl, surveys₁, held₁⟩

/-- A name is found to mean what it should. -/
theorem getName_finds (surveys : w.Surveys u)
    (quiet : ∀ d ∈ (w.meaning s name).1, w.handlerOf? d = none) :
    w.Finds u (fun self => getName self s name) fun r u' =>
      match (w.meaning s name).2 with
      | some b => ∃ v, r = .ok v ∧ w.Stands u' s b v
      | none => r = .error (.nameResolution name) := by
  have locals : u.layer s.locals = w.layer s.locals := by rw [layer, layer, surveys.layers]
  -- the locals come first, once a name is not reserved or has no meaning as a reserved name
  have behind (plain : (Reserved.ofName? name).bind s.base? = none) :
      w.Finds u (fun self => do
        match ← Action.read fun w => (w.layer s.locals).get? name with
        | some v => return v
        | none => outerName self s name) fun r u' =>
      match (w.meaning s name).2 with
      | some b => ∃ v, r = .ok v ∧ w.Stands u' s b v
      | none => r = .error (.nameResolution name) := by
    unfold meaning at quiet ⊢
    rw [plain] at quiet ⊢
    refine Leads.read ?_
    rw [locals]
    dsimp only at quiet ⊢
    cases found : (w.layer s.locals).get? name with
    | some v => exact Leads.pure ⟨⟨v, rfl, rfl⟩, surveys, rfl⟩
    | none =>
      rw [found] at quiet
      dsimp only at quiet ⊢
      refine (backs.outerName_finds surveys fun d v here => ?_).mono ?_
      · rw [here] at quiet
        exact quiet d (List.mem_singleton_self d)
      · rintro r u' ⟨gives, later⟩
        refine ⟨?_, later⟩
        cases here : w.consult s .around name with
        | some dv =>
          rw [here] at gives
          exact ⟨_, gives, rfl⟩
        | none =>
          rw [here] at gives
          dsimp only at gives ⊢
          cases module : (s.environment.globals.get? name).or
            (s.environment.builtins.get? name) with
          | some v =>
            rw [module] at gives
            exact ⟨v, gives, rfl⟩
          | none =>
            rw [module] at gives
            exact gives
  -- a reserved name that means something means just that
  have fixed {b : Base} (means : (Reserved.ofName? name).bind s.base? = some b) :
      (w.meaning s name).2 = some b := by
    unfold meaning
    rw [means]
  cases reserved : Reserved.ofName? name with
  | none =>
    refine Leads.congr (fun self => ?_) (behind (by rw [reserved, Option.bind_none]))
    rw [getName, reserved]
    rfl
  | some r =>
    have means : (Reserved.ofName? name).bind s.base? = s.base? r := by
      rw [reserved, Option.bind_some]
    cases r with
    | self =>
      rw [fixed means]
      refine Leads.of_eq (r := .ok (.object s.owner)) (fun self => ?_) ⟨⟨_, rfl, rfl⟩, surveys, rfl⟩
      rw [getName, reserved]
      rfl
    | change =>
      cases change : s.change with
      | none =>
        refine Leads.congr (fun self => ?_)
          (behind (means.trans (by rw [Scope.base?, change]; rfl)))
        rw [getName, reserved]
        simp only [reservedValue, change]
        rfl
      | some o =>
        rw [fixed (b := .value (.object o)) (means.trans (by rw [Scope.base?, change]; rfl))]
        refine Leads.of_eq (r := .ok (.object o)) (fun self => ?_) ⟨⟨_, rfl, rfl⟩, surveys, rfl⟩
        rw [getName, reserved]
        simp only [reservedValue, change]
        rfl
    | tracer =>
      cases tracer : s.tracer with
      | none =>
        refine Leads.congr (fun self => ?_)
          (behind (means.trans (by rw [Scope.base?, tracer]; rfl)))
        rw [getName, reserved]
        simp only [reservedValue, tracer]
        rfl
      | some t =>
        rw [fixed (b := .value (.tracer t)) (means.trans (by rw [Scope.base?, tracer]; rfl))]
        refine Leads.of_eq (r := .ok (.tracer t)) (fun self => ?_) ⟨⟨_, rfl, rfl⟩, surveys, rfl⟩
        rw [getName, reserved]
        simp only [reservedValue, tracer]
        rfl
    | nonlocals =>
      rw [fixed means]
      have there : u.has s.owner = true :=
        u.has_iff.2 (Nat.lt_of_lt_of_le (backs.intact.includes backs.owner) surveys.more)
      have entity := (u.entity?_addObject (.view s.owner s.tracer) ⟨u.objects.size⟩).trans
        (if_pos rfl)
      refine Leads.of_eq (r := .ok (.object ⟨u.objects.size⟩)) (fun self => ?_)
        ⟨⟨_, rfl, _, rfl, entity, surveys.more⟩, surveys.view backs.isLive_view, rfl⟩
      rw [getName, reserved]
      simp only [reservedValue, Action.bind_assoc, Action.read_bind, there]
      rfl

/-- A path is found to lead where it should. -/
theorem resolve_finds (surveys : w.Surveys u)
    (quiet : ∀ d ∈ (w.lead s path).1, w.handlerOf? d = none) :
    w.Finds u (fun self => resolve self s path) fun r u' =>
      match (w.lead s path).2 with
      | some b => ∃ v, r = .ok v ∧ w.Stands u' s b v
      | none => ∃ c, r = .error (.inversion c) := by
  -- what is consulted for the root is consulted for the path
  have root : ∀ d ∈ (w.meaning s path.root).1, w.handlerOf? d = none := by
    intro d mem
    refine quiet d ?_
    unfold lead
    cases root : w.meaning s path.root with
    | mk ds b =>
      rw [root] at mem
      cases b with
      | none => exact mem
      | some b => exact List.mem_append_left _ mem
  refine Leads.bind (Leads.mapError ((backs.getName_finds surveys root).mono ?_))
  rintro r u₁ ⟨found, surveys₁, held₁⟩
  unfold lead at quiet ⊢
  cases root : w.meaning s path.root with
  | mk ds b =>
    rw [root] at found quiet
    cases b with
    | none =>
      dsimp only at found
      subst found
      exact ⟨⟨_, rfl⟩, surveys₁, held₁⟩
    | some b =>
      obtain ⟨v, rfl, stands⟩ := found
      refine (backs.follow_finds surveys₁ (backs.grasps_of_meaning (by rw [root])) stands
        fun d mem => quiet d (List.mem_append_right _ mem)).mono ?_
      rintro r u' ⟨leads, surveys', held⟩
      exact ⟨leads, surveys', held.trans held₁⟩

end Backs

end LiveBinding.World
