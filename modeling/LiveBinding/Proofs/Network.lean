import LiveBinding.Builtin
import LiveBinding.Proofs.Leads
import LiveBinding.Proofs.Likeness
import LiveBinding.Proofs.Ownership
import LiveBinding.Proofs.Reading
import Mathlib.Data.Finset.Card
import Mathlib.Data.Finset.Filter
import Mathlib.Data.Fintype.Basic

/-! Networks of attributes that follow what they read.

A network starts in a world of declared objects whose bindings all subscribe, and nothing
is evaluated yet. Each bound attribute has a reading body, and which values an attribute
may have is up to the network (`fits`). No body reads, by way of others, the attribute that
it is bound to, so bound attributes have ranks. -/
namespace LiveBinding

/-! ### Observers that only watch -/

/-- A program that learns things and puts them on record. -/
inductive Passive : {α : Type} → Program α → Prop where
  | done {α : Type} (r : Except BindError α) : Passive (.done r)
  | query {α β : Type} (q : Query β) {k : Except BindError β → Program α}
      (rest : ∀ r, Passive (k r)) : Passive (.ask (.query q) k)
  | record {α : Type} (e : Event) {k : Except BindError Unit → Program α}
      (rest : ∀ r, Passive (k r)) : Passive (.ask (.record e) k)
  | spend {α : Type} {k : Except BindError Bool → Program α} (rest : ∀ r, Passive (k r)) :
      Passive (.ask .spend k)

/-! ### Bound attributes -/

namespace World
variable {w w' : World} {x d : Dependency}

/-- The stored value of an attribute. -/
def valueOf? (w : World) (d : Dependency) : Option Value := w.stored? d.object d.name

/-- The values attributes have now; one without a value counts as null. -/
def valuation (w : World) (d : Dependency) : Value := (w.valueOf? d).getD .null

/-- The handler that reads an attribute, and its engine. -/
def handlerOf? (w : World) (x : Dependency) : Option (EngineRef × Handler) :=
  (w.engineOf? x.object).bind fun e =>
    (((w.engine e).bindings.get? x.name).bind Binding.read).map (e, ·)

/-- The attribute has a read binding. -/
def Bound (w : World) (x : Dependency) : Prop := ∃ e h, w.handlerOf? x = some (e, h)

/-- Every name that the engine of an object reads. -/
def sites (w : World) : List Dependency :=
  (List.range w.objects.size).flatMap fun i =>
    match w.engineOf? ⟨i⟩ with
    | some e => ((w.engine e).bindings.keys.filter (w.engine e).hasReader).map (⟨⟨i⟩, ·⟩)
    | none => []

/-- Where the body of a bound attribute looks names up. -/
def surroundings? (w : World) (x : Dependency) : Option Surroundings :=
  (w.handlerOf? x).bind fun (_, h) =>
    (match w.localStorage? x.object h.key with
      | some l => w.layers[l.index]?
      | none => some .empty).map fun locals =>
    ⟨x.object, locals, w.functionEnvironment h.function⟩

theorem handlerOf?_eq_some {e : EngineRef} {h : Handler} :
    w.handlerOf? x = some (e, h) ↔ w.engineOf? x.object = some e ∧
      ((w.engine e).bindings.get? x.name).bind Binding.read = some h := by
  unfold handlerOf?
  rw [Option.bind_eq_some_iff]
  constructor
  · rintro ⟨e', engine, found⟩
    obtain ⟨h', reader, same⟩ := Option.map_eq_some_iff.1 found
    cases same
    exact ⟨engine, reader⟩
  · rintro ⟨engine, reader⟩
    exact ⟨e, engine, by rw [reader]; rfl⟩

theorem Extends.handlerOf? (grows : w.Extends w') (x : Dependency) :
    w'.handlerOf? x = w.handlerOf? x := by
  rw [World.handlerOf?, World.handlerOf?, grows.engineOf?]
  refine congrArg _ (funext fun e => ?_)
  rw [grows.bindings]

theorem mem_sites (bound : w.Bound x) : x ∈ w.sites := by
  obtain ⟨e, h, found⟩ := bound
  obtain ⟨engine, reader⟩ := handlerOf?_eq_some.1 found
  obtain ⟨b, binding, read⟩ := Option.bind_eq_some_iff.1 reader
  obtain ⟨d, known, _⟩ := Option.bind_eq_some_iff.1 engine
  have inside : x.object.index < w.objects.size := by
    by_contra outside
    rw [declared?_of_size_le _ (Nat.le_of_not_lt outside)] at known
    cases known
  refine List.mem_flatMap.2 ⟨x.object.index, List.mem_range.2 inside, ?_⟩
  rw [engine]
  refine List.mem_map.2 ⟨x.name, List.mem_filter.2 ⟨?_, ?_⟩, rfl⟩
  · exact List.mem_map.2 ⟨(x.name, b), Dict.get?_eq_some.1 binding, rfl⟩
  · simp only [Engine.hasReader, binding, read]
    rfl

/-! ### Heights -/

open Classical in
/-- How many bound attributes a relation leads to from one. -/
noncomputable def height (w : World) (R : Dependency → Dependency → Prop) (x : Dependency) : Nat :=
  (w.sites.toFinset.filter fun y => Relation.TransGen R x y).card

section Heights
variable {R : Dependency → Dependency → Prop} {y : Dependency}

theorem height_le (w : World) (R : Dependency → Dependency → Prop) (x : Dependency) :
    w.height R x ≤ w.sites.length := by
  classical
  exact (Finset.card_filter_le _ _).trans (List.toFinset_card_le _)

/-- If the relation does not lead back, a bound attribute does not count itself. -/
theorem height_lt_length (w : World) (acyclic : ∀ x, ¬ Relation.TransGen R x x)
    (bound : w.Bound x) : w.height R x < w.sites.length := by
  classical
  refine Nat.lt_of_lt_of_le (Finset.card_lt_card ?_) (List.toFinset_card_le _)
  rw [Finset.ssubset_iff_of_subset (Finset.filter_subset _ _)]
  refine ⟨x, List.mem_toFinset.2 (mem_sites bound), fun mem => ?_⟩
  exact acyclic x (Finset.mem_filter.1 mem).2

/-- Then it leads down. -/
theorem height_lt (w : World) (acyclic : ∀ x, ¬ Relation.TransGen R x x) (bound : w.Bound y)
    (leads : R x y) : w.height R y < w.height R x := by
  classical
  apply Finset.card_lt_card
  rw [Finset.ssubset_iff_of_subset]
  · refine ⟨y, Finset.mem_filter.2 ⟨List.mem_toFinset.2 (mem_sites bound), .single leads⟩,
      fun mem => ?_⟩
    exact acyclic y (Finset.mem_filter.1 mem).2
  · intro z mem
    obtain ⟨site, way⟩ := Finset.mem_filter.1 mem
    exact Finset.mem_filter.2 ⟨site, .head leads way⟩

end Heights

/-- Only containers have been added. -/
structure Grown (w w' : World) : Prop where
  lists : ∀ {i : Nat} {x}, w.lists[i]? = some x → w'.lists[i]? = some x
  maps : ∀ {i : Nat} {x}, w.maps[i]? = some x → w'.maps[i]? = some x
  rest : ∃ lists maps, w' = {w with lists := lists, maps := maps}

end World

/-! ### Networks -/

/-- A world to start from, what the bodies of its bound attributes read, which values
attributes may have, and how many bodies may be nested inside another one. -/
structure Network where
  start : World
  body : Dependency → Reading
  fits : World → Dependency → Value → Prop
  room : Nat

namespace Network
variable (N : Network)

/-- Attributes have values that fit. -/
def Fit (w : World) (σ : Dependency → Value) : Prop :=
  ∀ d, N.start.Attribute d → N.fits w d (σ d)

/-- A program makes the value of an attribute: it never fails, adds nothing but containers,
and makes twins whenever it runs. -/
structure Makes (x : Dependency) (w : World) (p : Program Value) : Prop where
  runs : ∀ {w'}, w.Extends w' → w'.Whole → Leads w' (fun self => p.run self) fun r w'' =>
    ∃ u, r = .ok u ∧ w'.Grown w'' ∧ w''.Whole ∧ N.fits w'' x u
  same : ∀ {w₁ w₁' w₂ w₂' u₁ u₂}, w.Extends w₁ → w₁.Whole →
    Ends (fun self => p.run self) w₁ (.ok u₁) w₁' → w₁'.Extends w₂ → w₂.Whole →
    Ends (fun self => p.run self) w₂ (.ok u₂) w₂' → w₂'.Twin u₁ u₂

/-- The body of `x` reads the bound attribute `y`, for some values that attributes may
have. -/
def Reads (x y : Dependency) : Prop :=
  N.start.Bound y ∧ ∃ w σ c p ds, N.start.Extends w ∧ w.Whole ∧ N.Fit w σ ∧
    N.start.surroundings? x = some c ∧ (N.body x).consult w c σ = some (p, ds) ∧ y ∈ ds

/-- What a network is required to be. -/
structure Sound : Prop where
  reachable : Reachable N.start
  /-- The host keeps the objects, and their parents are among them. -/
  grounded : N.start.Grounded
  whole : N.start.Whole
  /-- Nothing is evaluated yet. -/
  unlinked : N.start.links = #[]
  unset : ∀ {x}, N.start.Bound x → N.start.valueOf? x = none
  subscribes : ∀ {o e n b}, N.start.engineOf? o = some e →
    (N.start.engine e).bindings.get? n = some b → ∃ f key, b = Operator.subscribe.bind f key
  traced : ∀ {o e}, N.start.engineOf? o = some e →
    (N.start.engine e).config.traceSubscriptions = true
  limited : ∀ {o e}, N.start.engineOf? o = some e →
    N.room < (N.start.engine e).config.maxDepth
  declared : ∀ {x}, N.start.Bound x → N.start.Attribute x
  code : ∀ {x e h}, N.start.handlerOf? x = some (e, h) →
    ∃ g, N.start.functions[h.function.index]? = some g ∧
      ∀ s t, s.owner = x.object → g.code s (.traced t) = (N.body x).program s t
  surroundings : ∀ {x}, N.start.Bound x → ∃ c, N.start.surroundings? x = some c
  getattr : N.start.natives[getattrRef.index]? = some ⟨getattrName, [], Builtin.getattr⟩
  watchers : ∀ {i : Nat} {y}, N.start.watchers[i]? = some y → ∀ change, Passive (y.code change)
  /-- Values that fit exist, and still fit when the world has grown. -/
  known : ∀ {w d v}, N.fits w d v → w.Known v
  fitsMono : ∀ {w w' d v}, w.Extends w' → N.fits w d v → N.fits w' d v
  stored : ∀ {d v}, N.start.Attribute d → N.start.valueOf? d = some v → N.fits N.start d v
  null : ∀ {d}, N.start.Attribute d → ¬ N.start.Bound d → N.start.valueOf? d = none →
    N.fits N.start d .null
  inhabited : ∀ {x}, N.start.Bound x → ∃ v, N.fits N.start x v
  /-- Bodies always succeed. -/
  bodies : ∀ {x w σ c}, N.start.Extends w → w.Whole → N.Fit w σ →
    N.start.surroundings? x = some c →
    ∃ p ds, (N.body x).consult w c σ = some (p, ds) ∧ N.Makes x w p
  acyclic : ∀ x, ¬ Relation.TransGen N.Reads x x

/-! ### Ranks -/

open Classical in
/-- How many bound attributes an attribute reads, directly or by way of others. -/
noncomputable def rank (x : Dependency) : Nat :=
  (N.start.sites.toFinset.filter fun y => Relation.TransGen N.Reads x y).card

theorem rank_le (x : Dependency) : N.rank x ≤ N.start.sites.length :=
  N.start.height_le N.Reads x

/-- A bound attribute does not count itself. -/
theorem rank_lt_length (acyclic : ∀ x, ¬ Relation.TransGen N.Reads x x) {x : Dependency}
    (bound : N.start.Bound x) : N.rank x < N.start.sites.length :=
  N.start.height_lt_length acyclic bound

/-- What is read has a lower rank. -/
theorem rank_lt (acyclic : ∀ x, ¬ Relation.TransGen N.Reads x x) {x y : Dependency}
    (reads : N.Reads x y) : N.rank y < N.rank x := N.start.height_lt acyclic reads.1 reads

end Network

end LiveBinding
