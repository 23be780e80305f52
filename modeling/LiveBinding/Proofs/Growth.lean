import LiveBinding.Proofs.Cells
import LiveBinding.World.Resolution

/-! Growth: what reading, assigning and notifying leave as it is.

A world extends another one if tables have grown and declared objects differ in nothing
but the values of attributes they have anyway. Names mean the same in it, and so does
whatever refers to a container, a function or a handler. -/
namespace LiveBinding

/-- Two states of an object that differ in the values of its attributes only. -/
structure Declared.Fixed (d d' : Declared) : Prop where
  typeName : d'.typeName = d.typeName := by rfl
  parent : d'.parent = d.parent := by rfl
  constants : d'.constants = d.constants := by rfl
  storage : d'.storage = d.storage := by rfl
  registry : d'.registry = d.registry := by rfl
  engine : d'.engine = d.engine := by rfl
  attributes : ∀ n, d'.hasAttribute n = d.hasAttribute n := by intros; rfl

theorem Declared.Fixed.refl (d : Declared) : d.Fixed d :=
  ⟨rfl, rfl, rfl, rfl, rfl, rfl, fun _ => rfl⟩

namespace World

structure Extends (w w' : World) : Prop where
  declared : ∀ {o d}, w.declared? o = some d → ∃ d', w'.declared? o = some d' ∧ d.Fixed d' := by
    intro o d here; exact ⟨d, here, {}⟩
  /-- No object is new. -/
  back : ∀ {o d}, w'.declared? o = some d → ∃ d₀, w.declared? o = some d₀ := by
    intro o d here; exact ⟨d, here⟩
  entity : ∀ {o x}, w.entity? o = some x → x.declared? = none → w'.entity? o = some x := by
    intros; assumption
  lists : ∀ {i : Nat} {x}, w.lists[i]? = some x → w'.lists[i]? = some x := by intros; assumption
  maps : ∀ {i : Nat} {x}, w.maps[i]? = some x → w'.maps[i]? = some x := by intros; assumption
  layers : ∀ {i : Nat} {x}, w.layers[i]? = some x → w'.layers[i]? = some x := by
    intros; assumption
  natives : ∀ {i : Nat} {x}, w.natives[i]? = some x → w'.natives[i]? = some x := by
    intros; assumption
  functions : ∀ {i : Nat} {x}, w.functions[i]? = some x → w'.functions[i]? = some x := by
    intros; assumption
  watchers : w'.watchers = w.watchers := by rfl
  links : ∀ {i : Nat} {x}, w.links[i]? = some x → w'.links[i]? = some x := by
    intros; assumption
  config : ∀ e, (w'.engine e).config = (w.engine e).config := by intros; rfl
  bindings : ∀ e, (w'.engine e).bindings = (w.engine e).bindings := by intros; rfl
  kept : w'.desk.kept = w.desk.kept := by rfl

namespace Extends
variable {w w' w₁ w₂ w₃ : World}

/-- Only tables of things that objects refer to have grown. -/
theorem of_tables (objects : w'.objects = w.objects) (engines : w'.engines = w.engines)
    (watchers : w'.watchers = w.watchers) (kept : w'.desk.kept = w.desk.kept)
    (lists : ∀ {i : Nat} {x}, w.lists[i]? = some x → w'.lists[i]? = some x)
    (maps : ∀ {i : Nat} {x}, w.maps[i]? = some x → w'.maps[i]? = some x)
    (layers : ∀ {i : Nat} {x}, w.layers[i]? = some x → w'.layers[i]? = some x)
    (natives : ∀ {i : Nat} {x}, w.natives[i]? = some x → w'.natives[i]? = some x)
    (functions : ∀ {i : Nat} {x}, w.functions[i]? = some x → w'.functions[i]? = some x)
    (links : ∀ {i : Nat} {x}, w.links[i]? = some x → w'.links[i]? = some x) : w.Extends w' where
  declared {_ d} here := ⟨d, by simpa only [World.declared?, entity?, objects] using here, .refl d⟩
  back {_ d} here := ⟨d, by simpa only [World.declared?, entity?, objects] using here⟩
  entity here _ := by simpa only [entity?, objects] using here
  lists := lists
  maps := maps
  layers := layers
  natives := natives
  functions := functions
  watchers := watchers
  links := links
  config e := by simp only [World.engine, engines]
  bindings e := by simp only [World.engine, engines]
  kept := kept

theorem refl (w : World) : w.Extends w := .of_tables rfl rfl rfl rfl id id id id id id

theorem trans (first : w₁.Extends w₂) (next : w₂.Extends w₃) : w₁.Extends w₃ where
  declared here := by
    obtain ⟨d', there, fixed⟩ := first.declared here
    obtain ⟨d'', last, fixed'⟩ := next.declared there
    exact ⟨d'', last, fixed'.typeName.trans fixed.typeName, fixed'.parent.trans fixed.parent,
      fixed'.constants.trans fixed.constants, fixed'.storage.trans fixed.storage,
      fixed'.registry.trans fixed.registry, fixed'.engine.trans fixed.engine,
      fun n => (fixed'.attributes n).trans (fixed.attributes n)⟩
  back here := by
    obtain ⟨d', there⟩ := next.back here
    exact first.back there
  entity here plain := next.entity (first.entity here plain) plain
  lists here := next.lists (first.lists here)
  maps here := next.maps (first.maps here)
  layers here := next.layers (first.layers here)
  natives here := next.natives (first.natives here)
  functions here := next.functions (first.functions here)
  watchers := next.watchers.trans first.watchers
  links here := next.links (first.links here)
  config e := (next.config e).trans (first.config e)
  bindings e := (next.bindings e).trans (first.bindings e)
  kept := next.kept.trans first.kept

variable (grows : w.Extends w')
include grows

/-- Whatever an assignment leaves alone is found as before. -/
theorem lookup {α : Type} (f : Declared → Option α) (same : ∀ d d', d.Fixed d' → f d' = f d)
    (o : ObjectId) : (w'.declared? o).bind f = (w.declared? o).bind f := by
  cases here : w.declared? o with
  | some d =>
    obtain ⟨d', there, fixed⟩ := grows.declared here
    rw [there, Option.bind_some, Option.bind_some, same d d' fixed]
  | none =>
    cases there : w'.declared? o with
    | none => rfl
    | some d' =>
      obtain ⟨d, known⟩ := grows.back there
      rw [here] at known
      cases known

theorem registryOf? (o : ObjectId) : w'.registryOf? o = w.registryOf? o := by
  rw [World.registryOf?, World.registryOf?, Option.map_eq_bind, Option.map_eq_bind]
  exact grows.lookup _ (fun _ _ fixed => congrArg some fixed.registry) o

theorem engineOf? (o : ObjectId) : w'.engineOf? o = w.engineOf? o :=
  grows.lookup Declared.engine (fun _ _ fixed => fixed.engine) o

theorem localStorage? (o : ObjectId) (key : ScopeKey) :
    w'.localStorage? o key = w.localStorage? o key :=
  grows.lookup (·.storage.get? key) (fun _ _ fixed => by rw [fixed.storage]) o

theorem functionName {f : FunctionRef} {g : Function} (code : w.functions[f.index]? = some g) :
    w'.functionName f = w.functionName f := by
  rw [World.functionName, World.functionName, grows.functions code, code]

theorem change? {o : ObjectId} {c : Change} (known : w.change? o = some c) :
    w'.change? o = some c := by
  unfold World.change? at known ⊢
  split at known
  · next found =>
    cases known
    rw [grows.entity found rfl]
  · cases known

end Extends

/-! ### Names -/

/-- An object holds its engine. -/
theorem isLive_engine_of_object {w : World} {o : ObjectId} {e : EngineRef}
    (live : w.isLive (.object o) = true) (here : w.engineOf? o = some e) :
    w.isLive (.engine e) = true := by
  obtain ⟨d, known, engine⟩ := Option.bind_eq_some_iff.1 here
  have entity := declared?_eq_some w |>.1 known
  have inside : o.index < w.objects.size := by
    rw [← has_iff, ← entity?_isSome, entity]
    rfl
  refine isLive_of_holds live ⟨?_, ?_⟩
  · have mem : Handle.object o ∈ (List.range w.objects.size).map fun i => .object ⟨i⟩ :=
      List.mem_map.2 ⟨o.index, List.mem_range.2 inside, rfl⟩
    simp only [holders, List.append_assoc]
    exact List.mem_append_right _ (List.mem_append_left _ mem)
  · show Handle.engine e ∈ (w.entity? o).elim [] Entity.handles
    rw [entity]
    show Handle.engine e ∈ _ ++ d.engine.toList.map Handle.engine
    rw [engine]
    exact List.mem_append_right _ List.mem_cons_self

/-- The host keeps every declared object, and parents are declared objects. -/
structure Grounded (w : World) : Prop where
  kept : ∀ {o d}, w.declared? o = some d →
    Handle.object o ∈ w.desk.kept.entries.flatMap fun e => e.2.handles
  parents : ∀ {o d p}, w.declared? o = some d → d.parent = some p →
    ∃ d', w.declared? p = some d'

namespace Grounded
variable {w w' : World} {o p : ObjectId} {d : Declared}

theorem isLive (grounded : w.Grounded) (here : w.declared? o = some d) :
    w.isLive (.object o) = true :=
  isLive_of_mem_roots (List.mem_append_left _ (grounded.kept here))

theorem mono (grounded : w.Grounded) (grows : w.Extends w') : w'.Grounded where
  kept here := by
    obtain ⟨d, there⟩ := grows.back here
    rw [grows.kept]
    exact grounded.kept there
  parents here parent := by
    obtain ⟨d, there⟩ := grows.back here
    obtain ⟨d', same, fixed⟩ := grows.declared there
    rw [here] at same
    cases same
    rw [fixed.parent] at parent
    obtain ⟨p, known⟩ := grounded.parents there parent
    obtain ⟨p', known', _⟩ := grows.declared known
    exact ⟨p', known'⟩

theorem parent? (grounded : w.Grounded) (here : w.declared? o = some d) :
    w.parent? o = d.parent := by
  unfold World.parent?
  rw [here, Option.bind_some]
  cases parent : d.parent with
  | none => rfl
  | some p =>
    obtain ⟨d', known⟩ := grounded.parents here parent
    exact Option.filter_some_pos (grounded.isLive known)

/-- The engine of a declared object is held. -/
theorem isLive_engine (grounded : w.Grounded) {e : EngineRef}
    (here : w.engineOf? o = some e) : w.isLive (.engine e) = true := by
  obtain ⟨d, known, _⟩ := Option.bind_eq_some_iff.1 here
  exact isLive_engine_of_object (grounded.isLive known) here

end Grounded

/-- An attribute of a declared object. -/
def Attribute (w : World) (d : Dependency) : Prop :=
  ∃ x, w.declared? d.object = some x ∧ x.hasAttribute d.name = true

theorem Extends.attribute {w w' : World} (grows : w.Extends w') {d : Dependency} :
    w'.Attribute d ↔ w.Attribute d := by
  constructor
  · rintro ⟨x', there, has⟩
    obtain ⟨x, here⟩ := grows.back there
    obtain ⟨y, same, fixed⟩ := grows.declared here
    rw [there] at same
    cases same
    exact ⟨x, here, (fixed.attributes d.name).symm.trans has⟩
  · rintro ⟨x, here, has⟩
    obtain ⟨x', there, fixed⟩ := grows.declared here
    exact ⟨x', there, (fixed.attributes d.name).trans has⟩

variable {w w' : World}

theorem hasWithin_of_declared {o : ObjectId} {d : Declared} (here : w.declared? o = some d)
    (name : String) (fuel : Nat) :
    w.hasWithin name fuel o = (decide (0 < fuel) && d.hasAttribute name) := by
  cases fuel with
  | zero => rfl
  | succ fuel => simp [hasWithin, (declared?_eq_some w).1 here]

/-- A name found on the chain of a declared object is an attribute of a declared object. -/
theorem attribute_of_nearestWithin (grounded : w.Grounded) {name : String} {fuel : Nat}
    {o p : ObjectId} {d : Declared} (here : w.declared? o = some d)
    (found : w.nearestWithin name fuel o = some p) : w.Attribute ⟨p, name⟩ := by
  induction fuel generalizing o d with
  | zero =>
    unfold nearestWithin at found
    cases found
  | succ fuel ih =>
    unfold nearestWithin at found
    rw [hasWithin_of_declared here, grounded.parent? here] at found
    split at found
    · next has =>
      cases found
      rw [Bool.and_eq_true] at has
      exact ⟨d, here, has.2⟩
    · cases parent : d.parent with
      | none =>
        rw [parent] at found
        cases found
      | some q =>
        rw [parent] at found
        obtain ⟨d', known⟩ := grounded.parents here parent
        exact ih known found

/-- Names resolve on the chain of a declared object as they did before. -/
theorem Extends.nearestWithin (grows : w.Extends w') (grounded : w.Grounded) (name : String)
    (fuel : Nat) {o : ObjectId} {d : Declared} (here : w.declared? o = some d) :
    w'.nearestWithin name fuel o = w.nearestWithin name fuel o := by
  induction fuel generalizing o d with
  | zero =>
    unfold World.nearestWithin
    rfl
  | succ fuel ih =>
    obtain ⟨d', there, fixed⟩ := grows.declared here
    have grounded' := grounded.mono grows
    unfold World.nearestWithin
    rw [hasWithin_of_declared here, hasWithin_of_declared there, fixed.attributes,
      grounded.parent? here, grounded'.parent? there, fixed.parent]
    split
    · rfl
    · cases parent : d.parent with
      | none => rfl
      | some p =>
        obtain ⟨q, known⟩ := grounded.parents here parent
        exact ih known

theorem Extends.nearest? (grows : w.Extends w') (grounded : w.Grounded) (name : String)
    {o : ObjectId} {d : Declared} (here : w.declared? o = some d) :
    w'.nearest? o name = w.nearest? o name := grows.nearestWithin grounded name _ here

theorem attribute_of_nearest? (grounded : w.Grounded) {name : String} {o p : ObjectId}
    {d : Declared} (here : w.declared? o = some d) (found : w.nearest? o name = some p) :
    w.Attribute ⟨p, name⟩ := attribute_of_nearestWithin grounded here found

end World

end LiveBinding
