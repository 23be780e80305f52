import LiveBinding.Proofs.Moments

/-! Local storage.

A slot of local storage is a layer of variables that an object keeps for a key. Layers are only
ever added, a slot stays the layer that it is, and a new slot is a layer that there was not. So no
layer is ever two slots. -/
namespace LiveBinding

/-- Every key has a layer of its own, and its place in the table is in the range. -/
structure Dict.Laid (slots : Dict ScopeKey LayerRef) (first last : Nat) : Prop where
  range : ∀ {key l}, slots.get? key = some l → first ≤ l.index ∧ l.index < last
  single : ∀ {key key' l}, slots.get? key = some l → slots.get? key' = some l → key = key'

namespace World
variable {w w' : World}

/-! ### Slots from one moment to the next -/

/-- Layers and slots are kept, and what has become a slot since is a layer that there was not, each
for one slot. -/
structure Allots (w w' : World) : Prop where
  layers : w.layers.size ≤ w'.layers.size
  kept : ∀ {o key l}, w.localStorage? o key = some l → w'.localStorage? o key = some l
  fresh : ∀ {o key l}, w'.localStorage? o key = some l → w.localStorage? o key = some l ∨
    w.layers.size ≤ l.index ∧ l.index < w'.layers.size
  single : ∀ {o p key key' l}, w.localStorage? o key = none → w.localStorage? p key' = none →
    w'.localStorage? o key = some l → w'.localStorage? p key' = some l → o = p ∧ key = key'

namespace Allots

theorem same (storage : ∀ o key, w'.localStorage? o key = w.localStorage? o key)
    (layers : w.layers.size ≤ w'.layers.size) : w.Allots w' where
  layers := layers
  kept here := (storage _ _).trans here
  fresh here := .inl ((storage _ _).symm.trans here)
  single free _ here _ := nomatch free.symm.trans ((storage _ _).symm.trans here)

theorem trans {w₁ w₂ w₃ : World} (first : w₁.Allots w₂) (next : w₂.Allots w₃) : w₁.Allots w₃ where
  layers := Nat.le_trans first.layers next.layers
  kept here := next.kept (first.kept here)
  fresh here := by
    have more := next.layers
    have old := first.layers
    rcases next.fresh here with before | new
    · exact (first.fresh before).imp_right fun ⟨new, inside⟩ => ⟨new, by omega⟩
    · exact .inr (by omega)
  single {o p key key' l} free free' here there := by
    -- a layer that became a slot on the first part of the way is none that did on the second
    have apart {q q' : ObjectId} {k k' : ScopeKey} (free : w₂.localStorage? q k = none)
        (here : w₃.localStorage? q k = some l) (free' : w₁.localStorage? q' k' = none)
        (before : w₂.localStorage? q' k' = some l) : False := by
      rcases next.fresh here with taken | new
      · cases free.symm.trans taken
      · rcases first.fresh before with taken | new'
        · cases free'.symm.trans taken
        · omega
    cases before : w₂.localStorage? o key with
    | none =>
      cases before' : w₂.localStorage? p key' with
      | none => exact next.single before before' here there
      | some l' =>
        cases (next.kept before').symm.trans there
        exact (apart before here free' before').elim
    | some l' =>
      cases (next.kept before).symm.trans here
      cases before' : w₂.localStorage? p key' with
      | none => exact (apart before' there free before).elim
      | some l'' =>
        cases (next.kept before').symm.trans there
        exact first.single free free' before before'

theorem of_objects (objects : w'.objects = w.objects) (layers : w.layers.size ≤ w'.layers.size) :
    w.Allots w' :=
  same (fun _ _ => by simp only [localStorage?, declared?, entity?, objects]) layers

theorem still (objects : w'.objects = w.objects) (layers : w'.layers = w.layers) : w.Allots w' :=
  of_objects objects (Nat.le_of_eq (congrArg Array.size layers.symm))

theorem steady : Steady World.Allots := ⟨trans, fun quiet => of_objects quiet.objects quiet.layers⟩

theorem addPlain {x : Entity} (plain : x.declared? = none) : w.Allots (w.addObject x).1 := by
  refine same (fun o key => ?_) (Nat.le_refl _)
  rw [localStorage?, localStorage?, declared?_addObject]
  split
  · next last => rw [plain, w.declared?_of_size_le (Nat.le_of_eq last.symm)]
  · rfl

theorem modifyDeclared (o : ObjectId) {f : Declared → Declared}
    (storage : ∀ d, (f d).storage = d.storage) : w.Allots (w.modifyDeclared o f) := by
  refine same (fun p key => ?_) (Nat.le_refl _)
  rw [localStorage?, localStorage?, declared?_modifyDeclared]
  split
  · cases w.declared? p with
    | none => rfl
    | some d => exact congrArg (Dict.get? · key) (storage d)
  · rfl

/-- A new slot is a layer that is new. -/
theorem slot {o : ObjectId} {key : ScopeKey} (free : w.localStorage? o key = none) :
    w.Allots ((w.addLayer .empty).1.modifyDeclared o fun d =>
      {d with storage := d.storage.insert key ⟨w.layers.size⟩}) := by
  have more := (w.quiet_addLayer .empty).layers
  have found (p : ObjectId) (key' : ScopeKey) :
      ((w.addLayer .empty).1.modifyDeclared o fun d =>
        {d with storage := d.storage.insert key ⟨w.layers.size⟩}).localStorage? p key' =
      if o = p ∧ key = key' ∧ (w.declared? p).isSome = true then some ⟨w.layers.size⟩
      else w.localStorage? p key' := by
    have same : (w.addLayer .empty).1.declared? p = w.declared? p := rfl
    rw [localStorage?, localStorage?, declared?_modifyDeclared, same]
    by_cases owner : o = p
    · cases w.declared? p with
      | none => simp [owner]
      | some d => simp [owner, Dict.get?_insert]
    · simp [owner]
  refine ⟨more, fun {p key' l} here => ?_, fun {p key' l} here => ?_, ?_⟩
  · rw [found, if_neg]
    · exact here
    · rintro ⟨rfl, rfl, -⟩
      cases free.symm.trans here
  · rw [found] at here
    split at here
    · cases here
      exact .inr ⟨Nat.le_refl _, Nat.lt_of_lt_of_eq (Nat.lt_succ_self _) (Array.size_push _).symm⟩
    · exact .inl here
  · intro p q key₁ key₂ l free₁ free₂ here there
    rw [found] at here there
    split at here
    · next new =>
      split at there
      · next new' => exact ⟨new.1.symm.trans new'.1, new.2.1.symm.trans new'.2.1⟩
      · cases free₂.symm.trans there
    · cases free₁.symm.trans here

/-- Every given layer gets a slot of its own. -/
theorem addSlots {first : Nat} {slots : Dict ScopeKey LayerRef}
    (layers : List (ScopeKey × Dict String Value)) (laid : slots.Laid first w.layers.size)
    (least : first ≤ w.layers.size) :
    ∃ slots' w', LiveBinding.addSlots slots layers w = some (.ok slots', w') ∧ w.Quiet w' ∧
      slots'.Laid first w'.layers.size := by
  induction layers generalizing slots w with
  | nil => exact ⟨slots, w, rfl, ⟨rfl, id, id, id, Nat.le_refl _⟩, laid⟩
  | cons x rest ih =>
    obtain ⟨key, locals⟩ := x
    have size : (w.addLayer locals).1.layers.size = w.layers.size + 1 := Array.size_push _
    have added :
        (slots.insert key ⟨w.layers.size⟩).Laid first (w.addLayer locals).1.layers.size := by
      rw [size]
      constructor
      · intro key' l here
        rw [Dict.get?_insert] at here
        split at here
        · cases here
          exact ⟨least, Nat.lt_succ_self _⟩
        · obtain ⟨_, inside⟩ := laid.range here
          exact ⟨‹_›, by omega⟩
      · intro key₁ key₂ l here there
        rw [Dict.get?_insert] at here there
        split at here
        · next same =>
          split at there
          · next same' => exact same.symm.trans same'
          · cases here
            exact absurd (laid.range there).2 (Nat.lt_irrefl _)
        · split at there
          · cases there
            exact absurd (laid.range here).2 (Nat.lt_irrefl _)
          · exact laid.single here there
    obtain ⟨slots', w', run, quiet, laid'⟩ := ih added (by omega)
    exact ⟨slots', w', run, (w.quiet_addLayer locals).trans quiet, laid'⟩

/-- An object that is added has slots of its own. -/
theorem addDeclared {w₁ : World} {d : Declared} (objects : w₁.objects = w.objects)
    (layers : w.layers.size ≤ w₁.layers.size)
    (laid : d.storage.Laid w.layers.size w₁.layers.size) :
    w.Allots (w₁.addObject (.declared d)).1 := by
  have found (o : ObjectId) (key : ScopeKey) :
      (w₁.addObject (.declared d)).1.localStorage? o key =
        if o.index = w.objects.size then d.storage.get? key else w.localStorage? o key := by
    rw [localStorage?, localStorage?, declared?_addObject, objects]
    split
    · rfl
    · simp only [declared?, entity?, objects]
  refine ⟨layers, fun {o key l} here => ?_, fun {o key l} here => ?_, ?_⟩
  · rw [found, if_neg]
    · exact here
    · intro last
      rw [localStorage?, w.declared?_of_size_le (Nat.le_of_eq last.symm)] at here
      cases here
  · rw [found] at here
    split at here
    · exact .inr (laid.range here)
    · exact .inl here
  · intro o p key key' l free free' here there
    rw [found] at here there
    split at here
    · next last =>
      split at there
      · next last' => exact ⟨congrArg ObjectId.mk (last.trans last'.symm), laid.single here there⟩
      · cases free'.symm.trans there
    · cases free.symm.trans here

theorem newObject {b : Blueprint} {r : Except BindError ObjectId}
    (run : LiveBinding.newObject b w = some (r, w')) : w.Allots w' := by
  have nothing : (Dict.empty : Dict ScopeKey LayerRef).Laid w.layers.size w.layers.size :=
    ⟨nofun, nofun⟩
  obtain ⟨slots, w₁, added, quiet, laid⟩ :=
    addSlots (w := (w.addRegistry .empty).1) b.storage.entries nothing (Nat.le_refl _)
  replace run : (LiveBinding.addSlots .empty b.storage.entries >>= _) (w.addRegistry .empty).1 =
    some (r, w') := run
  rw [Action.bind_apply, added] at run
  cases run
  exact addDeclared quiet.objects quiet.layers laid

end Allots

/-- No step takes a slot away or makes a layer one that is in use. -/
theorem Step.allots (step : w.Step w') : w.Allots w' := by
  cases step with
  | quiet quiet => exact Allots.steady.quiet quiet
  | change | view => exact .addPlain rfl
  | object run => exact .newObject run
  | store => exact .modifyDeclared _ fun _ => rfl
  | @unset o d name old known free stored =>
    refine .modifyDeclared _ fun d => ?_
    obtain ⟨_, same, _⟩ := Declared.declare_eq {d with values := d.values.erase name} name
    rw [same]
  | slot free => exact .slot free
  | bind run =>
    refine Allots.steady.bindAttribute _ _ _ _ _ (fun w => ?_) (fun _ _ => .still rfl rfl)
      (fun _ _ => .modifyDeclared _ fun _ => rfl) (fun _ _ => .still rfl rfl) _ _ _ run
    refine .modifyDeclared _ fun d => ?_
    obtain ⟨_, same, _⟩ := d.declare_eq _
    rw [same]
  | relink bound run =>
    exact Allots.steady.relink _ _ _ _ (fun _ _ => .still rfl rfl) (fun _ => .still rfl rfl)
      (fun _ _ => .still rfl rfl) (fun _ _ _ _ => .still rfl rfl) (fun _ _ => .still rfl rfl)
      _ _ _ run
  | _ => exact .still rfl rfl

theorem Later.allots (later : w.Later w') : w.Allots w' := by
  induction later with
  | refl => exact .still rfl rfl
  | tail _ step ih => exact ih.trans step.allots

/-! ### Slots in the worlds that come up -/

/-- Every slot is a layer that there is, and no layer is two slots. -/
structure Slots (w : World) : Prop where
  inside : ∀ {o key l}, w.localStorage? o key = some l → l.index < w.layers.size
  single : ∀ {o p key key' l}, w.localStorage? o key = some l → w.localStorage? p key' = some l →
    o = p ∧ key = key'

theorem Arises.slots (arises : w.Arises) : w.Slots := by
  obtain ⟨natives, later⟩ := arises
  have allots := later.allots
  have nowhere (o : ObjectId) (key : ScopeKey) :
      (World.initial natives).localStorage? o key = none := rfl
  refine ⟨fun here => ?_, allots.single (nowhere ..) (nowhere ..)⟩
  rcases allots.fresh here with before | ⟨-, inside⟩
  · cases before
  · exact inside

end World

end LiveBinding
