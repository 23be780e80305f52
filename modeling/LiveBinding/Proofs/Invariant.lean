import LiveBinding.Proofs.Steps

/-! What a network has in order while it is at work.

A bound attribute is current if running its body now would consult what its latest
evaluation has on record, and make a value like the one that was made then. The invariant
says that every bound attribute with a value has a current one, or is among those that are
still pending, and that each link leads from what was consulted to what has a higher rank. -/
namespace LiveBinding

/-- The bound attribute that a link is for. -/
def Link.site (k : Link) : Dependency := ⟨k.owner, k.name⟩

namespace Network
variable {N : Network} {w w' w₀ w₁ w₂ : World} {x y a d : Dependency} {u v : Value}
  {ds : List Dependency} {n k : Nat}

/-- Every bound attribute has a value. -/
def Evaluated (N : Network) (w : World) : Prop := ∀ ⦃x⦄, N.start.Bound x → (w.valueOf? x).isSome

theorem Evaluated.mono (evaluated : N.Evaluated w)
    (stored : ∀ {d}, (w.valueOf? d).isSome → (w'.valueOf? d).isSome) : N.Evaluated w' :=
  fun _ bound => stored (evaluated bound)

/-! ### First values -/

/-- Evaluations give bound attributes below some rank their first values. Tracers are as they
were, up to some number. -/
structure Fills (N : Network) (n k : Nat) (w w' : World) : Prop where
  grows : w.Extends w'
  stored : ∀ {d v}, w.valueOf? d = some v → w'.valueOf? d = some v
  kept : ∀ {d}, (N.start.Bound d → k ≤ N.rank d) → w'.valueOf? d = w.valueOf? d
  tracers : ∀ t : TracerRef, t.index < n → w'.tracer t = w.tracer t
  more : w.tracers.size ≤ w'.tracers.size

namespace Fills

theorem trans (first : N.Fills n k w₀ w₁) (next : N.Fills n k w₁ w₂) : N.Fills n k w₀ w₂ where
  grows := first.grows.trans next.grows
  stored here := next.stored (first.stored here)
  kept out := (next.kept out).trans (first.kept out)
  tracers t old := (next.tracers t old).trans (first.tracers t old)
  more := Nat.le_trans first.more next.more

theorem mono {m j : Nat} (fills : N.Fills n k w w') (fewer : m ≤ n) (higher : k ≤ j) :
    N.Fills m j w w' where
  grows := fills.grows
  stored := fills.stored
  kept out := fills.kept fun bound => Nat.le_trans higher (out bound)
  tracers t old := fills.tracers t (Nat.lt_of_lt_of_le old fewer)
  more := fills.more

/-- What does not wait for its first value keeps the value it has. -/
theorem valueOf? (fills : N.Fills n k w w') (set : N.start.Bound d → (w.valueOf? d).isSome) :
    w'.valueOf? d = w.valueOf? d := by
  by_cases bound : N.start.Bound d
  · obtain ⟨v, here⟩ := Option.isSome_iff_exists.1 (set bound)
    rw [here, fills.stored here]
  · exact fills.kept fun is => absurd is bound

theorem isSome (fills : N.Fills n k w w') (set : (w.valueOf? d).isSome) :
    (w'.valueOf? d).isSome := by
  obtain ⟨v, here⟩ := Option.isSome_iff_exists.1 set
  rw [fills.stored here]
  rfl

end Fills

theorem Fills.of_slight (slight : w.Slight n w') : N.Fills n k w w' where
  grows := slight.grows
  stored here := (slight.valueOf? _).trans here
  kept _ := slight.valueOf? _
  tracers := slight.tracers
  more := slight.more

/-! ### Current values -/

/-- A run of the program of `x` made a value, not before `w₀` and not after `w`. -/
def Made (N : Network) (x : Dependency) (p : Program Value) (u : Value) (w₀ w : World) : Prop :=
  ∃ w₁ w₂, w₀.Extends w₁ ∧ N.Makes x w₁ p ∧ w₁.Whole ∧
    Ends (fun self => p.run self) w₁ (.ok u) w₂ ∧ w₂.Extends w

/-- The body of `x` comes to a program that made a value; what it consults on the way has
been evaluated. -/
structure Yields (N : Network) (w₀ w : World) (x : Dependency) (u : Value)
    (ds : List Dependency) : Prop where
  comes : ∃ c p, N.start.surroundings? x = some c ∧
    (N.body x).consult w c w.valuation = some (p, ds) ∧ N.Made x p u w₀ w
  stored : ∀ d ∈ ds, N.start.Bound d → (w.valueOf? d).isSome
  lower : ∀ d ∈ ds, N.start.Bound d → N.rank d < N.rank x

/-- The attributes that the body of `x` consults are on record as its latest evaluation. -/
structure Current (N : Network) (w₀ w : World) (x : Dependency) (u : Value)
    (ds : List Dependency) : Prop where
  yields : N.Yields w₀ w x u ds
  recorded : ∃ e h v, N.start.handlerOf? x = some (e, h) ∧
    (w.engine e).latest x.name = some v ∧ v.owner = x.object ∧
      ∀ d ∈ ds, N.start.Attribute d → d ∈ v.consulted

theorem owner_of_surroundings {c : Surroundings} (found : w.surroundings? x = some c) :
    c.owner = x.object ∧ ∃ d, w.declared? c.owner = some d := by
  obtain ⟨⟨e, h⟩, handler, rest⟩ := Option.bind_eq_some_iff.1 found
  obtain ⟨locals, _, rfl⟩ := Option.map_eq_some_iff.1 rest
  obtain ⟨engine, _⟩ := World.handlerOf?_eq_some.1 handler
  obtain ⟨d, known, _⟩ := Option.bind_eq_some_iff.1 engine
  exact ⟨rfl, d, known⟩

/-- A body comes to the same as long as what it consults has the same value. -/
theorem consult_keep (sound : N.Sound) {c : Surroundings}
    (found : N.start.surroundings? x = some c) (start : N.start.Extends w) (grows : w.Extends w')
    {out : Program Value × List Dependency}
    (consult : (N.body x).consult w c w.valuation = some out)
    (same : ∀ d ∈ out.2, w'.valueOf? d = w.valueOf? d) :
    (N.body x).consult w' c w'.valuation = some out := by
  obtain ⟨_, d, known⟩ := owner_of_surroundings found
  obtain ⟨d', owner, _⟩ := start.declared known
  refine Reading.consult_congr
    (Reading.consult_mono grows (sound.grounded.mono start) owner consult) fun d mem => ?_
  rw [World.valuation, World.valuation, same d mem]

/-- Nothing changes for a body if nothing does for what it consults. -/
theorem Yields.keep (sound : N.Sound) (yields : N.Yields w₀ w x u ds)
    (start : N.start.Extends w) (grows : w.Extends w')
    (same : ∀ d ∈ ds, w'.valueOf? d = w.valueOf? d) : N.Yields w₀ w' x u ds where
  comes := by
    obtain ⟨c, p, found, consult, w₁, w₂, since, makes, whole, ends, before⟩ := yields.comes
    exact ⟨c, p, found, consult_keep sound found start grows consult same, w₁, w₂, since, makes,
      whole, ends, before.trans grows⟩
  stored d mem bound := by
    rw [same d mem]
    exact yields.stored d mem bound
  lower := yields.lower

theorem Yields.since (yields : N.Yields w₁ w x u ds) (grows : w₀.Extends w₁) :
    N.Yields w₀ w x u ds where
  comes := by
    obtain ⟨c, p, found, consult, w₂, w₃, since, made⟩ := yields.comes
    exact ⟨c, p, found, consult, w₂, w₃, grows.trans since, made⟩
  stored := yields.stored
  lower := yields.lower

theorem Current.keep (sound : N.Sound) (current : N.Current w₀ w x u ds)
    (start : N.start.Extends w) (grows : w.Extends w')
    (same : ∀ d ∈ ds, w'.valueOf? d = w.valueOf? d)
    (latest : ∀ {e h}, N.start.handlerOf? x = some (e, h) →
      (w'.engine e).latest x.name = (w.engine e).latest x.name) : N.Current w₀ w' x u ds where
  yields := current.yields.keep sound start grows same
  recorded := by
    obtain ⟨e, h, v, handler, found, recorded⟩ := current.recorded
    exact ⟨e, h, v, handler, (latest handler).trans found, recorded⟩

/-- Slight steps do not matter. -/
theorem Current.slight (sound : N.Sound) (current : N.Current w₀ w x u ds)
    (start : N.start.Extends w) (slight : w.Slight n w') : N.Current w₀ w' x u ds :=
  current.keep sound start slight.grows (fun _ _ => slight.valueOf? _) fun _ =>
    slight.still.latest _ _

theorem Current.since (current : N.Current w₁ w x u ds) (grows : w₀.Extends w₁) :
    N.Current w₀ w x u ds := ⟨current.yields.since grows, current.recorded⟩

/-! ### The invariant -/

/-- What is in order while attributes in `P` are pending. -/
structure Inv (N : Network) (w : World) (P : Dependency → Prop) : Prop where
  grows : N.start.Extends w
  whole : w.Whole
  ledger : w.Ledger
  fits : ∀ {d v}, N.start.Attribute d → w.valueOf? d = some v → N.fits w d v
  unset : ∀ {d}, ¬ N.start.Bound d → w.valueOf? d = none → N.start.valueOf? d = none
  linked : ∀ {d r l}, w.registryOf? d.object = some r →
    0 < (w.registry r).appearances d.name (.link l) →
    ∃ k h, w.links[l.index]? = some k ∧ N.start.handlerOf? k.site = some (k.engine, h) ∧
      (N.start.Bound d → (w.valueOf? d).isSome ∧ N.rank d < N.rank k.site)
  fresh : ∀ {o e name l r a}, N.start.engineOf? o = some e →
    l ∈ (w.engine e).linksOf name → (a, .link l) ∉ (w.registry r).forgotten
  current : ∀ {x y}, N.start.Bound x → w.valueOf? x = some y → ¬ P x →
    ∃ u ds, w.Alike y u ∧ N.Current N.start w x u ds

namespace Inv
variable {P Q : Dependency → Prop}

/-- More may be pending. -/
theorem mono (inv : N.Inv w P) (more : ∀ x, N.start.Bound x → P x → Q x) : N.Inv w Q where
  grows := inv.grows
  whole := inv.whole
  ledger := inv.ledger
  fits := inv.fits
  unset := inv.unset
  linked := inv.linked
  fresh := inv.fresh
  current bound here done := inv.current bound here fun pending => done (more _ bound pending)

theorem slight (sound : N.Sound) (inv : N.Inv w P) (slight : w.Slight n w') : N.Inv w' P where
  grows := inv.grows.trans slight.grows
  whole := slight.whole inv.whole
  ledger := slight.still.ledger inv.ledger
  fits is here := by
    rw [slight.valueOf?] at here
    exact sound.fitsMono slight.grows (inv.fits is here)
  unset free none := by
    rw [slight.valueOf?] at none
    exact inv.unset free none
  linked {d r l} found some := by
    rw [slight.still.registryOf?] at found
    rw [slight.still.appearances] at some
    rw [slight.still.links, slight.valueOf?]
    exact inv.linked found some
  fresh {o e name l r a} engine held gone := by
    rw [slight.linksOf] at held
    have engine' : w.engineOf? o = some e := by
      rw [inv.grows.engineOf?, engine]
    exact inv.fresh engine held (slight.forgotten engine' held gone)
  current bound here done := by
    rw [slight.valueOf?] at here
    obtain ⟨u, ds, alike, current⟩ := inv.current bound here done
    exact ⟨u, ds, alike.mono slight.grows, current.slight sound inv.grows slight⟩

end Inv

/-- The invariant holds in the beginning, since nothing is evaluated yet. -/
theorem Sound.inv (sound : N.Sound) (P : Dependency → Prop) : N.Inv N.start P := by
  have ledger := (World.idle_of_reachable sound.reachable).ledger
  constructor
  · exact .refl _
  · exact sound.whole
  · exact ledger
  · exact sound.stored
  · exact fun _ none => none
  · exact fun _ appears => absurd appears (ledger.not_appears sound.unlinked)
  · exact fun _ held => absurd held (ledger.not_mem_linksOf sound.unlinked)
  · intro x y bound here
    rw [sound.unset bound] at here
    cases here

end Network

end LiveBinding
