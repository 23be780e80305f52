import LiveBinding.Proofs.LedgerFrame
import LiveBinding.Proofs.Reachable

/-! Objects own their engines.

An engine is made for one object, when its first attribute is bound, and no other object
ever gets it. Likewise constants come with their values and keep them. -/
namespace LiveBinding.World
variable {w w' : World} {e : EngineRef} {o : ObjectId}

structure Owned (w : World) : Prop where
  built : ∀ {o e}, w.engineOf? o = some e → e.index < w.engines.size
  apart : ∀ {o p e}, w.engineOf? o = some e → w.engineOf? p = some e → o = p
  valued : ∀ {o d n}, w.declared? o = some d → d.isConstant n = true →
    d.values.contains n = true

namespace Owned

/-- Only objects and the number of engines matter. -/
theorem of_objects (owned : w.Owned) (objects : w'.objects = w.objects)
    (engines : w.engines.size ≤ w'.engines.size) : w'.Owned := by
  have declared? (o : ObjectId) : w'.declared? o = w.declared? o := by
    simp only [World.declared?, entity?, objects]
  have engineOf? (o : ObjectId) : w'.engineOf? o = w.engineOf? o := by
    rw [World.engineOf?, World.engineOf?, declared?]
  constructor
  · intro o e found
    rw [engineOf?] at found
    exact Nat.lt_of_lt_of_le (owned.built found) engines
  · intro o p e here there
    rw [engineOf?] at here there
    exact owned.apart here there
  · intro o d n found
    rw [declared?] at found
    exact owned.valued found

/-- The objects that there were have the engines they had. -/
theorem of_engineOf? (owned : w.Owned)
    (engines : ∀ o e, w'.engineOf? o = some e → w.engineOf? o = some e)
    (size : w.engines.size ≤ w'.engines.size)
    (valued : ∀ {o d n}, w'.declared? o = some d → d.isConstant n = true →
      d.values.contains n = true) : w'.Owned where
  built found := Nat.lt_of_lt_of_le (owned.built (engines _ _ found)) size
  apart here there := owned.apart (engines _ _ here) (engines _ _ there)
  valued := valued

theorem addObject (owned : w.Owned) {x : Entity}
    (new : ∀ d, x = .declared d → d.engine = none ∧
      ∀ n, d.isConstant n = true → d.values.contains n = true) : (w.addObject x).1.Owned := by
  have cases {p : ObjectId} {d : Declared} (found : (w.addObject x).1.declared? p = some d) :
      x = .declared d ∨ w.declared? p = some d := by
    rw [declared?_addObject] at found
    split at found
    · cases x with
      | declared d' =>
        cases found
        exact .inl rfl
      | change c => cases found
      | view p t => cases found
    · exact .inr found
  refine owned.of_engineOf? (fun p e found => ?_) (Nat.le_refl _) fun found constant => ?_
  · obtain ⟨d, known, engine⟩ := Option.bind_eq_some_iff.1 found
    rcases cases known with same | old
    · rw [(new d same).1] at engine
      cases engine
    · exact Option.bind_eq_some_iff.2 ⟨d, old, engine⟩
  · rcases cases found with same | old
    · exact (new _ same).2 _ constant
    · exact owned.valued old constant

/-- An object changes in other respects than its engine and its constants. -/
theorem modifyDeclared (owned : w.Owned) (o : ObjectId) (f : Declared → Declared)
    (engine : ∀ d, (f d).engine = d.engine)
    (valued : ∀ d n, w.declared? o = some d → (f d).isConstant n = true →
      (f d).values.contains n = true) : (w.modifyDeclared o f).Owned := by
  refine owned.of_engineOf? (fun p e found => ?_) (Nat.le_refl _) fun {p d n} found constant => ?_
  · obtain ⟨d, known, here⟩ := Option.bind_eq_some_iff.1 found
    rw [declared?_modifyDeclared] at known
    split at known
    · obtain ⟨d', old, rfl⟩ := Option.map_eq_some_iff.1 known
      rw [engine] at here
      exact Option.bind_eq_some_iff.2 ⟨d', old, here⟩
    · exact Option.bind_eq_some_iff.2 ⟨d, known, here⟩
  · rw [declared?_modifyDeclared] at found
    split at found
    · next same =>
      obtain ⟨d', old, rfl⟩ := Option.map_eq_some_iff.1 found
      exact valued d' n (same ▸ old) constant
    · exact owned.valued found constant

theorem modifyEngine (owned : w.Owned) (e : EngineRef) (f : Engine → Engine) :
    (w.modifyEngine e f).Owned := by
  refine owned.of_objects rfl (Nat.le_of_eq ?_)
  show _ = (w.engines.modify e.index f).size
  rw [Array.size_modify]

theorem declare (owned : w.Owned) (o : ObjectId) (name : String) :
    (w.modifyDeclared o (·.declare name)).Owned := by
  refine owned.modifyDeclared o _ (fun d => ?_) fun d n found => ?_
  · unfold Declared.declare
    split <;> rfl
  · have same : (d.declare name).isConstant n = d.isConstant n ∧
        (d.declare name).values = d.values := by
      unfold Declared.declare
      split <;> exact ⟨rfl, rfl⟩
    rw [same.1, same.2]
    exact owned.valued found

/-- An engine that nobody has yet becomes the engine of an object. -/
theorem enlist (owned : w.Owned) (o : ObjectId) (fresh : ∀ p, w.engineOf? p ≠ some e)
    (inside : e.index < w.engines.size) :
    (w.modifyDeclared o fun d => {d with engine := some e}).Owned := by
  have cases {p : ObjectId} {e' : EngineRef}
      (found : (w.modifyDeclared o fun d => {d with engine := some e}).engineOf? p = some e') :
      p = o ∧ e' = e ∨ w.engineOf? p = some e' := by
    obtain ⟨d, known, here⟩ := Option.bind_eq_some_iff.1 found
    rw [declared?_modifyDeclared] at known
    split at known
    · next same =>
      obtain ⟨d', old, rfl⟩ := Option.map_eq_some_iff.1 known
      exact .inl ⟨same.symm, (Option.some.inj here).symm⟩
    · exact .inr (Option.bind_eq_some_iff.2 ⟨d, known, here⟩)
  constructor
  · intro p e' found
    rcases cases found with ⟨_, rfl⟩ | old
    · exact inside
    · exact owned.built old
  · intro p q e' here there
    rcases cases here with ⟨rfl, rfl⟩ | old
    · rcases cases there with ⟨rfl, _⟩ | old'
      · rfl
      · exact absurd old' (fresh q)
    · rcases cases there with ⟨_, rfl⟩ | old'
      · exact absurd old (fresh p)
      · exact owned.apart old old'
  · intro p d n found constant
    rw [declared?_modifyDeclared] at found
    split at found
    · obtain ⟨d', old, rfl⟩ := Option.map_eq_some_iff.1 found
      show d'.values.contains n = true
      exact owned.valued old constant
    · exact owned.valued found constant

end Owned

/-! ### Operations that make engines and constants -/

theorem newEngine_run (config : Option Config) : ∃ (c : Config) (w' : World),
    newEngine config w = some (.ok ⟨w.engines.size⟩, (w'.addEngine (.start c)).1) ∧
      w'.objects = w.objects ∧ w'.engines = w.engines := by
  cases config with
  | some c => exact ⟨c, w, rfl, rfl, rfl⟩
  | none =>
    cases given : w.config with
    | some c =>
      refine ⟨c, w, ?_, rfl, rfl⟩
      show (globalConfig >>= _) w = _
      rw [Action.bind_apply, globalConfig_of_some given]
      rfl
    | none =>
      refine ⟨.ofVariables w.hostVariables,
        {w with config := some (.ofVariables w.hostVariables)}, ?_, rfl, rfl⟩
      show (globalConfig >>= _) w = _
      rw [Action.bind_apply, globalConfig_of_none given]
      rfl

theorem Owned.bindAttribute (owned : w.Owned) (o : ObjectId) (name : String) (op : Operator)
    (f : FunctionRef) (key : ScopeKey) {r : Except BindError Unit}
    (run : LiveBinding.bindAttribute o name op f key w = some (r, w')) : w'.Owned := by
  unfold LiveBinding.bindAttribute at run
  rw [Action.read_bind] at run
  cases here : w.declared? o with
  | none =>
    rw [here] at run
    cases run
    exact owned
  | some d =>
    rw [here] at run
    let w₁ := w.modifyDeclared o (·.declare name)
    have owned₁ : w₁.Owned := owned.declare o name
    replace run : (engineFor o d >>= fun e =>
        Action.update (·.modifyEngine e (·.addBinding name (op.bind f key)))) w₁ =
      some (r, w') := run
    unfold engineFor at run
    cases engine : d.engine with
    | some e =>
      rw [engine] at run
      cases run
      exact owned₁.modifyEngine e _
    | none =>
      rw [engine] at run
      obtain ⟨c, w₂, made, objects, engines⟩ := newEngine_run (w := w₁) d.config
      rw [Action.bind_assoc, Action.bind_apply, made] at run
      cases run
      have owned₂ : (w₂.addEngine (.start c)).1.Owned := by
        refine owned₁.of_objects objects ?_
        show w₁.engines.size ≤ (w₂.engines.push _).size
        rw [engines, Array.size_push]
        omega
      refine (owned₂.enlist o (fun p taken => ?_) ?_).modifyEngine _ _
      · have old : w₁.engineOf? p = some ⟨w₁.engines.size⟩ := by
          rw [← taken]
          simp only [World.engineOf?, World.declared?, entity?, addEngine, objects]
        exact Nat.lt_irrefl _ (owned₁.built old)
      · show w₁.engines.size < (w₂.engines.push _).size
        rw [engines, Array.size_push]
        omega

theorem contains_insertAll (es : List (String × Value)) (d : Dict String Value) {n : String}
    (known : n ∈ es.map Prod.fst ∨ d.contains n = true) :
    (d.insertAll es).contains n = true := by
  induction es generalizing d with
  | nil =>
    rcases known with none | known
    · cases none
    · exact known
  | cons e rest ih =>
    refine ih (d.insert e.1 e.2) ?_
    rcases known with listed | known
    · rcases List.mem_cons.1 listed with rfl | later
      · refine .inr ?_
        rw [Dict.contains, Dict.get?_insert_self]
        rfl
      · exact .inl later
    · refine .inr ?_
      rw [Dict.contains, Dict.get?_insert]
      split
      · rfl
      · exact known

theorem Owned.newObject (owned : w.Owned) (b : Blueprint) {r : Except BindError ObjectId}
    (run : LiveBinding.newObject b w = some (r, w')) : w'.Owned := by
  obtain ⟨slots, w₂, added, quiet⟩ :=
    addSlots_kept (w := (w.addRegistry .empty).1) .empty b.storage.entries
  have owned₂ : w₂.Owned :=
    owned.of_objects quiet.objects (Nat.le_of_eq (congrArg Array.size quiet.engines).symm)
  replace run : (addSlots .empty b.storage.entries >>= _) (w.addRegistry .empty).1 =
    some (r, w') := run
  rw [Action.bind_apply, added] at run
  cases run
  refine owned₂.addObject fun d same => ?_
  cases same
  exact ⟨rfl, fun n constant =>
    contains_insertAll _ _ (.inl (List.contains_iff_mem.1 constant))⟩

/-! ### Everything -/

/-- The ledger and what objects own. -/
def Secured (w w' : World) : Prop := w.Kept w' ∧ (w.Owned → w'.Owned)

theorem frame_secured : Frame World.Secured where
  trans first next := ⟨first.1.trans next.1, next.2 ∘ first.2⟩
  quiet quiet := ⟨frame_kept.quiet quiet, fun owned =>
    owned.of_objects quiet.objects (Nat.le_of_eq (congrArg Array.size quiet.engines).symm)⟩
  hold both := ⟨frame_kept.hold both.1, fun owned =>
    (both.2 (owned.of_objects rfl (Nat.le_refl _))).of_objects rfl (Nat.le_refl _)⟩
  limited both := ⟨frame_kept.limited both.1, fun owned =>
    (both.2 (owned.of_objects rfl (Nat.le_refl _))).of_objects rfl (Nat.le_refl _)⟩
  nested both := ⟨frame_kept.nested both.1, fun owned =>
    (both.2 (owned.of_objects rfl (Nat.le_refl _))).of_objects rfl (Nat.le_refl _)⟩
  guarded {w w' e name} both := by
    refine ⟨frame_kept.guarded both.1, fun owned => ?_⟩
    have up : (w.guard e name).Owned := by
      unfold guard
      split
      · exact owned
      · exact owned.modifyEngine e _
    unfold unguard
    split
    · exact both.2 up
    · exact (both.2 up).modifyEngine e _
  change w c := ⟨frame_kept.change w c, fun owned => owned.addObject fun _ same => by cases same⟩
  view w o t there :=
    ⟨frame_kept.view w o t there, fun owned => owned.addObject fun _ same => by cases same⟩
  object b w r w' run := ⟨frame_kept.object b w r w' run, fun owned => owned.newObject b run⟩
  store w o d name v found free has := by
    refine ⟨frame_kept.store w o d name v found free has, fun owned => ?_⟩
    refine owned.modifyDeclared o _ (fun _ => rfl) fun d' n known constant => ?_
    show (d'.values.insert name v).contains n = true
    rw [Dict.contains, Dict.get?_insert]
    split
    · rfl
    · exact owned.valued known constant
  unset w o d name old found free stored := by
    refine ⟨frame_kept.unset w o d name old found free stored, fun owned => ?_⟩
    refine owned.modifyDeclared o _ (fun d => ?_) fun d' n known constant => ?_
    · unfold Declared.declare
      split <;> rfl
    · have same : (({d' with values := d'.values.erase name}).declare name).isConstant n =
          d'.isConstant n ∧
          (({d' with values := d'.values.erase name}).declare name).values =
            d'.values.erase name := by
        unfold Declared.declare
        split <;> exact ⟨rfl, rfl⟩
      rw [same.1] at constant
      rw [same.2, Dict.contains, Dict.get?_erase]
      rw [found] at known
      cases known
      split
      · next this =>
        rw [← this, free] at constant
        cases constant
      · exact owned.valued found constant
  slot w o key free := by
    refine ⟨frame_kept.slot w o key free, fun owned => ?_⟩
    have layered : (w.addLayer .empty).1.Owned := owned.of_objects rfl (Nat.le_refl _)
    refine layered.modifyDeclared o _ (fun _ => rfl) fun d n known constant => ?_
    show d.values.contains n = true
    exact layered.valued known constant
  bind o name op f key w r w' run :=
    ⟨frame_kept.bind o name op f key w r w' run, fun owned =>
      owned.bindAttribute o name op f key run⟩
  registry w := ⟨frame_kept.registry w, fun owned => owned.of_objects rfl (Nat.le_refl _)⟩
  observe w r name c :=
    ⟨frame_kept.observe w r name c, fun owned => owned.of_objects rfl (Nat.le_refl _)⟩
  prune w r name xs found :=
    ⟨frame_kept.prune w r name xs found, fun owned => owned.of_objects rfl (Nat.le_refl _)⟩
  tell w x change := ⟨frame_kept.tell w x change, fun owned => owned.of_objects rfl (Nat.le_refl _)⟩
  tracer w owner name :=
    ⟨frame_kept.tracer w owner name, fun owned => owned.of_objects rfl (Nat.le_refl _)⟩
  trace w t o name :=
    ⟨frame_kept.trace w t o name, fun owned => owned.of_objects rfl (Nat.le_refl _)⟩
  drain w t := ⟨frame_kept.drain w t, fun owned => owned.of_objects rfl (Nat.le_refl _)⟩
  engine w config := by
    refine ⟨frame_kept.engine w config, fun owned => owned.of_objects rfl ?_⟩
    show w.engines.size ≤ (w.engines.push _).size
    rw [Array.size_push]
    omega
  addBinding w e name b := ⟨frame_kept.addBinding w e name b, fun owned => owned.modifyEngine e _⟩
  clear w e := ⟨frame_kept.clear w e, fun owned => owned.modifyEngine e _⟩
  bound both := both.1.bound
  relink w e owner name t bound r w' run := by
    refine ⟨frame_kept.relink w e owner name t bound r w' run, fun owned => ?_⟩
    have F : Steady fun w w' : World =>
        w'.objects = w.objects ∧ w'.engines.size = w.engines.size := by
      constructor
      · exact fun first next => ⟨next.1.trans first.1, next.2.trans first.2⟩
      · exact fun quiet => ⟨quiet.objects, congrArg Array.size quiet.engines⟩
    obtain ⟨objects, size⟩ := F.relink e owner name t (fun _ _ => ⟨rfl, Array.size_modify⟩)
      (fun _ => ⟨rfl, rfl⟩) (fun _ _ => ⟨rfl, rfl⟩) (fun _ _ _ _ => ⟨rfl, rfl⟩)
      (fun _ _ => ⟨rfl, Array.size_modify⟩) w r w' run
    exact owned.of_objects objects (Nat.le_of_eq size.symm)

/-- Between requests nothing is running, the ledger is in order, and objects own their
engines. -/
structure Idle (w : World) : Prop where
  ledger : w.Ledger
  owned : w.Owned
  depth : w.depth = 0

theorem idle_of_reachable (reached : Reachable w) : w.Idle := by
  refine reached.invariant frame_secured (fun natives => ?_) ?_ ?_ ?_
  · exact ⟨ledger_initial natives, ⟨nofun, nofun, nofun⟩, rfl⟩
  · intro w w' both idle
    exact ⟨both.1.ledger idle.ledger, both.2 idle.owned, both.1.progress.2.trans idle.depth⟩
  · intro w hs _ idle
    exact ⟨(w.still_progress w.depth w.limit hs).ledger idle.ledger,
      idle.owned.of_objects rfl (Nat.le_refl _), idle.depth⟩
  · intro w idle
    exact ⟨w.still_collect.ledger idle.ledger, idle.owned.of_objects rfl (Nat.le_refl _),
      idle.depth⟩

end LiveBinding.World
