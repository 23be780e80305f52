import LiveBinding.Proofs.Notification

/-! Networks whose bodies are known by what they mean.

A scheme says of each bound attribute what its body reads, what it records and what it comes
to, given what the attributes mean that it reads. Meanings stand for values: two runs may build
two lists that mean the same. How a body reads is left open; it may look up names, read
attributes of any object with its tracer or without, go by way of a view, call native functions
and compute in between. If no attribute is read, by way of others, by its own body, every
attribute has one meaning. -/
namespace LiveBinding

/-- What attributes mean. -/
abbrev Meanings (M : Dependency → Type) := (d : Dependency) → M d

structure Scheme (M : Dependency → Type) where
  start : World
  /-- In a world, a value of an attribute has a meaning. -/
  means : World → (d : Dependency) → Value → M d → Prop
  /-- The meanings of attributes that are not bound. -/
  given : Meanings M
  reads : Dependency → Meanings M → List Dependency
  records : Dependency → Meanings M → List Dependency
  gives : (x : Dependency) → Meanings M → M x

/-! ### Scopes -/

/-- Tracers below this number are older than the evaluation. -/
def Scope.below (s : Scope) (w : World) : Nat := s.tracer.elim w.tracers.size (·.index)

/-- What the tracer of a scope gets on record when some tracer records a read. -/
def Scope.noting (s : Scope) (t : Option TracerRef) (d : Dependency) : List Dependency :=
  if t.isSome ∧ t = s.tracer then [d] else []

/-- What the body of a read handler gets beside its scope. -/
def Scope.arguments (s : Scope) : Arguments := s.tracer.elim .none .traced

/-- The scope looks names up in the surroundings of a body, and its tracer is there, if it has
one. -/
structure World.Opens (w : World) (c : Surroundings) (s : Scope) : Prop where
  owner : s.owner = c.owner
  locals : w.layers[s.locals.index]? = some c.locals
  environment : s.environment = c.environment
  unchanged : s.change = none
  running : ∀ t, s.tracer = some t → t.index < w.tracers.size

theorem World.Opens.mono {w w' : World} {c : Surroundings} {s : Scope} (opens : w.Opens c s)
    (grows : w.Extends w') (more : w.tracers.size ≤ w'.tracers.size) : w'.Opens c s where
  owner := opens.owner
  locals := grows.layers opens.locals
  environment := opens.environment
  unchanged := opens.unchanged
  running t same := Nat.lt_of_lt_of_le (opens.running t same) more

/-- The attribute that a native function reads if it is what its name says. -/
def Native.place? (g : Native) (args : List Value) : Option Dependency :=
  match args with
  | .object o :: .str name :: _ => if g.name = getattrName then some ⟨o, name⟩ else none
  | _ => none

namespace Scheme
variable {M : Dependency → Type} (S : Scheme M)

/-! ### What a body reads -/

/-- What concerns objects that were there in the beginning. Views are made anew in each
evaluation. -/
def old (ds : List Dependency) : List Dependency := ds.filter fun d => S.start.has d.object

/-- The tracer of a scope has got these on record, as far as they are old. -/
def Recorded (s : Scope) (ds : List Dependency) (w w' : World) : Prop :=
  ∀ t, s.tracer = some t → ∀ d, S.start.has d.object = true →
    (d ∈ (w'.tracer t).dependencies ↔ d ∈ (w.tracer t).dependencies ∨ d ∈ ds)

/-- Nothing has happened but that the tracer of a scope has recorded something. -/
structure Notes (s : Scope) (ds : List Dependency) (w w' : World) : Prop where
  slips : w.Slips (s.below w) w'
  recorded : S.Recorded s ds w w'

/-- An attribute of an object is some attribute of a declared object. A view passes reads on to
the chain of an object, and may have them recorded. -/
inductive Reaches (w : World) (s : Scope) :
    ObjectId → String → Dependency → List Dependency → Prop where
  | own {d : Dependency} (is : w.Attribute d) : Reaches w s d.object d.name d []
  | view {v o p : ObjectId} {t : Option TracerRef} {x : Declared} {name : String}
      (entity : w.entity? v = some (.view o t)) (owner : w.declared? o = some x)
      (near : w.nearest? o name = some p)
      (tracer : ∀ u, t = some u → s.tracer = some u ∨ u.index < S.start.tracers.size) :
      Reaches w s v name ⟨p, name⟩ (s.noting t ⟨p, name⟩)

/-- A request reads an attribute: which one, what is recorded, and how the answer is made of the
value. A scope without a change or without a tracer gives no meaning to their names. -/
inductive Looks (w : World) (c : Surroundings) (s : Scope) :
    {α : Type} → Request α → Dependency → List Dependency → (Value → α) → Prop where
  | name {n : String} {o : ObjectId}
      (plain : ∀ r, Reserved.ofName? n = some r → r = .change ∨ r = .tracer ∧ s.tracer = none)
      (locals : c.locals.get? n = none) (near : w.nearest? c.owner n = some o) :
      Looks w c s (.getName s n) ⟨o, n⟩ (s.noting s.tracer ⟨o, n⟩) id
  | attr {o : ObjectId} {n : String} {d : Dependency} {ds : List Dependency}
      (reaches : S.Reaches w s o n d ds) : Looks w c s (.getAttr (.object o) n) d ds id
  | read {o : ObjectId} {n : String} {d : Dependency} {ds : List Dependency}
      (reaches : S.Reaches w s o n d ds) : Looks w c s (.readAttr o n) d ds some

/-- A part of a body, evaluated in a world that extends `w` in which attributes mean what `σ`
says, reads and records attributes, and `Q` holds of its end. It records no bound attribute that
it does not read. -/
inductive Follows (c : Surroundings) (s : Scope) (σ : Meanings M) : {α : Type} → World →
    Program α → List Dependency → List Dependency → (World → Except BindError α → Prop) → Prop where
  | still {α : Type} {w : World} {p : Program α} {ds : List Dependency}
      {Q : World → Except BindError α → Prop} (free : ∀ d ∈ ds, ¬ S.start.Bound d)
      (runs : ∀ {w'}, w.Extends w' → w'.Opens c s →
        Leads w' (fun self => p.run self) fun r w'' => S.Notes s ds w' w'' ∧ Q w'' r) :
      Follows c s σ w p [] ds Q
  | read {α : Type} {w : World} {q : Request α} {d : Dependency} {ds : List Dependency}
      {f : Value → α} (looks : S.Looks w c s q d ds f) :
      Follows c s σ w (.request q) [d] ds fun w' r => ∃ v, r = .ok (f v) ∧ S.means w' d v (σ d)
  | bind {α β : Type} {w : World} {p : Program α} {k : α → Program β}
      {rs rs' ds ds' : List Dependency} {P : World → Except BindError α → Prop}
      {Q : World → Except BindError β → Prop} (first : Follows c s σ w p rs ds P)
      (succeeds : ∀ {w' r}, P w' r → ∃ a, r = .ok a)
      (next : ∀ {w' a}, w.Extends w' → P w' (.ok a) → Follows c s σ w' (k a) rs' ds' Q) :
      Follows c s σ w (p >>= k) (rs ++ rs') (ds ++ ds') Q
  | weaken {α : Type} {w : World} {p : Program α} {rs ds : List Dependency}
      {P Q : World → Except BindError α → Prop} (inner : Follows c s σ w p rs ds P)
      (weaker : ∀ {w' r}, w.Extends w' → P w' r → Q w' r) : Follows c s σ w p rs ds Q
  | attempt {α : Type} {w : World} {p : Program α} {rs ds : List Dependency}
      {Q : World → Except BindError (Except BindError α) → Prop}
      (inner : Follows c s σ w p rs ds fun w' r => Q w' (.ok r)) :
      Follows c s σ w p.attempt rs ds Q
  | hold {α : Type} {w : World} {p : Program α} {rs ds : List Dependency} {hs : List Handle}
      {Q : World → Except BindError α → Prop} (inner : Follows c s σ w p rs ds Q)
      (stable : ∀ {w₁ w₂ r}, w₁.Extends w₂ → Q w₁ r → Q w₂ r) :
      Follows c s σ w (.request (.holding hs p)) rs ds Q
  | call {w : World} {f : NativeRef} {g : Native} {args : List Value} {rs ds : List Dependency}
      {Q : World → Except BindError Value → Prop} (known : w.natives[f.index]? = some g)
      (inner : Follows c s σ w (g.code args) rs ds Q)
      (stable : ∀ {w₁ w₂ r}, w₁.Extends w₂ → Q w₁ r → Q w₂ r) :
      Follows c s σ w (.request (.call (.native f) args)) rs ds Q
  | callTraced {w : World} {t : TracerRef} {f : NativeRef} {g : Native} {args : List Value}
      {rs ds : List Dependency} {Q : World → Except BindError Value → Prop}
      (tracer : s.tracer = some t) (known : w.natives[f.index]? = some g)
      (inner : Follows c s σ w (g.code args) rs ds Q)
      (succeeds : ∀ {w' r}, Q w' r → ∃ v, r = .ok v)
      (read : ∀ d, g.place? args = some d → S.start.Bound d → d ∈ rs)
      (stable : ∀ {w₁ w₂ r}, w₁.Extends w₂ → Q w₁ r → Q w₂ r) :
      Follows c s σ w (.request (.callTraced t (.native f) args)) rs
        (ds ++ S.old (g.place? args).toList) Q
  | load {w : World} {t : TracerRef} {v : Value} {n : String} {rs ds : List Dependency}
      {Q : World → Except BindError Value → Prop} (tracer : s.tracer = some t)
      (inner : Follows c s σ w (.request (.getAttr v n)) rs ds Q)
      (succeeds : ∀ {w' r}, Q w' r → ∃ v, r = .ok v)
      (read : ∀ d, v.place? n = some d → S.start.Bound d → d ∈ rs)
      (stable : ∀ {w₁ w₂ r}, w₁.Extends w₂ → Q w₁ r → Q w₂ r) :
      Follows c s σ w (.request (.loadAttr t v n)) rs (ds ++ S.old (v.place? n).toList) Q

/-! ### Schemes in order -/

/-- The body of `x` reads the bound attribute `y`, whatever attributes may have to mean for
that. -/
def Reads (x y : Dependency) : Prop := S.start.Bound x ∧ S.start.Bound y ∧ ∃ σ, y ∈ S.reads x σ

/-- How many bound attributes an attribute reads, directly or by way of others. -/
noncomputable def rank (x : Dependency) : Nat := S.start.height S.Reads x

/-- The code of the function of a handler, in a scope where the handler evaluates it, reads,
records and gives what the scheme says. -/
def Realized (x : Dependency) (h : Handler) : Prop :=
  ∃ g c, S.start.functions[h.function.index]? = some g ∧ S.start.surroundings? x = some c ∧
    ∀ (σ : Meanings M) (s : Scope), s.owner = c.owner → s.environment = c.environment →
      s.change = none → (s.tracer.isSome ↔ h.kind = .tracedRead) →
      S.Follows c s σ S.start (g.code s s.arguments) (S.reads x σ) (S.records x σ)
        fun w r => ∃ v, r = .ok v ∧ S.means w x v (S.gives x σ)

/-- What a scheme is required to be. -/
structure Sound : Prop where
  reachable : Reachable S.start
  /-- The host keeps the objects, and their parents are among them. -/
  grounded : S.start.Grounded
  binds : ∀ {o e n b}, S.start.engineOf? o = some e →
    (S.start.engine e).bindings.get? n = some b →
      ∃ f key, b = Operator.simple.bind f key ∨ b = Operator.subscribe.bind f key
  declared : ∀ {x}, S.start.Bound x → S.start.Attribute x
  unset : ∀ {x}, S.start.Bound x → S.start.valueOf? x = none
  /-- No earlier evaluation has been linked to a bound attribute. -/
  unlinked : ∀ {x r l}, S.start.Bound x → S.start.registryOf? x.object = some r →
    (S.start.registry r).appearances x.name (.link l) = 0
  limited : ∀ {o e}, S.start.engineOf? o = some e →
    S.start.sites.length ≤ (S.start.engine e).config.maxDepth
  realized : ∀ {x e h}, S.start.handlerOf? x = some (e, h) → S.Realized x h
  watched : S.start.Watched
  /-- A value means in a later world what it has meant before. -/
  mono : ∀ {w w' d v m}, w.Extends w' → S.means w d v m → S.means w' d v m
  /-- Attributes that are not bound have their meanings. -/
  free : ∀ {d}, S.start.Attribute d → ¬ S.start.Bound d →
    S.means S.start d (S.start.valuation d) (S.given d)
  /-- What a body gives depends on nothing but what it reads. -/
  determined : ∀ {x σ σ'}, S.start.Bound x → (∀ y ∈ S.reads x σ, σ' y = σ y) →
    S.gives x σ' = S.gives x σ
  acyclic : ∀ x, ¬ Relation.TransGen S.Reads x x

/-! ### Meanings -/

open Classical in
/-- The meaning of an attribute: what its body gives for the meanings of what it reads. -/
noncomputable def meaning (x : Dependency) : M x :=
  if S.start.Bound x then
    S.gives x fun y => if _ : S.rank y < S.rank x then meaning y else S.given y
  else S.given x
termination_by S.rank x

variable {S}

theorem meaning_of_free {d : Dependency} (free : ¬ S.start.Bound d) : S.meaning d = S.given d := by
  rw [meaning, if_neg free]

theorem Sound.rank_lt (sound : S.Sound) {x y : Dependency} (reads : S.Reads x y) :
    S.rank y < S.rank x := S.start.height_lt sound.acyclic reads.2.1 reads

theorem Sound.rank_lt_length (sound : S.Sound) {x : Dependency} (bound : S.start.Bound x) :
    S.rank x < S.start.sites.length := S.start.height_lt_length sound.acyclic bound

/-- A bound attribute means what its body gives. -/
theorem Sound.meaning_of_bound (sound : S.Sound) {x : Dependency} (bound : S.start.Bound x) :
    S.meaning x = S.gives x S.meaning := by
  rw [meaning, if_pos bound]
  refine (sound.determined bound fun y mem => ?_).symm
  by_cases is : S.start.Bound y
  · have lower := sound.rank_lt ⟨bound, is, _, mem⟩
    rw [dif_pos lower]
  · split
    · rfl
    · exact meaning_of_free is

end Scheme

end LiveBinding
