import LiveBinding.Proofs.Nesting

/-! What an object is declared to be.

A declared object keeps its constants and its attributes, and an engine its configuration,
whatever is asked for. Constants have values from the start and never lose them. This holds
between requests of the host, and also in every world in which anything is asked while one of
them is being answered. -/
namespace LiveBinding

theorem Declared.attributes_declare (d : Declared) (name n : String) :
    (d.declare name).constants = d.constants ∧
      (d.hasAttribute n = true → (d.declare name).hasAttribute n = true) := by
  obtain ⟨members, same, contains⟩ := d.declare_eq name
  rw [same]
  refine ⟨rfl, fun has => ?_⟩
  rw [hasAttribute, Bool.or_eq_true] at has ⊢
  exact has.imp_right fun listed => by rw [contains, listed, Bool.true_or]

namespace World
variable {w w' : World}

/-- Objects have the constants and the attributes that they had, and engines their configuration. -/
structure Standing (w w' : World) : Prop where
  declared : ∀ {o d}, w.declared? o = some d → ∃ d', w'.declared? o = some d' ∧
    d'.constants = d.constants ∧ ∀ n, d.hasAttribute n = true → d'.hasAttribute n = true
  engines : w.engines.size ≤ w'.engines.size
  config : ∀ {e : EngineRef}, e.index < w.engines.size →
    (w'.engine e).config = (w.engine e).config

namespace Standing

theorem still (objects : w'.objects = w.objects) (engines : w'.engines = w.engines) :
    w.Standing w' where
  declared {_ d} here :=
    ⟨d, by simpa only [World.declared?, entity?, objects] using here, rfl, fun _ => id⟩
  engines := Nat.le_of_eq (congrArg Array.size engines).symm
  config _ := by simp only [World.engine, engines]

theorem trans {w₁ w₂ w₃ : World} (first : w₁.Standing w₂) (next : w₂.Standing w₃) :
    w₁.Standing w₃ where
  declared here := by
    obtain ⟨d', there, constants, attributes⟩ := first.declared here
    obtain ⟨d'', last, constants', attributes'⟩ := next.declared there
    exact ⟨d'', last, constants'.trans constants, fun n has => attributes' n (attributes n has)⟩
  engines := Nat.le_trans first.engines next.engines
  config inside :=
    (next.config (Nat.lt_of_lt_of_le inside first.engines)).trans (first.config inside)

theorem steady : Steady World.Standing := ⟨trans, fun quiet => still quiet.objects quiet.engines⟩

theorem addObject (x : Entity) : w.Standing (w.addObject x).1 where
  declared {o d} here := by
    refine ⟨d, ?_, rfl, fun _ => id⟩
    rw [declared?_addObject, if_neg]
    · exact here
    · intro last
      rw [w.declared?_of_size_le (Nat.le_of_eq last.symm)] at here
      cases here
  engines := Nat.le_refl _
  config _ := rfl

theorem modifyDeclared (o : ObjectId) (f : Declared → Declared)
    (kept : ∀ d, w.declared? o = some d → (f d).constants = d.constants ∧
      ∀ n, d.hasAttribute n = true → (f d).hasAttribute n = true) :
    w.Standing (w.modifyDeclared o f) where
  declared {p d} here := by
    rw [declared?_modifyDeclared]
    split
    · next same =>
      subst same
      exact ⟨f d, by rw [here]; rfl, kept d here⟩
    · exact ⟨d, here, rfl, fun _ => id⟩
  engines := Nat.le_refl _
  config _ := rfl

theorem modifyEngine (e : EngineRef) (f : Engine → Engine) (config : ∀ g, (f g).config = g.config) :
    w.Standing (w.modifyEngine e f) where
  declared {_ d} here := ⟨d, here, rfl, fun _ => id⟩
  engines := Nat.le_of_eq Array.size_modify.symm
  config _ := by
    rw [engine_modifyEngine]
    split
    · exact config _
    · rfl

theorem addEngine (c : Config) : w.Standing (w.addEngine (.start c)).1 where
  declared {_ d} here := ⟨d, here, rfl, fun _ => id⟩
  engines := by
    show _ ≤ (w.engines.push _).size
    rw [Array.size_push]
    exact Nat.le_succ _
  config inside := by rw [engine_addEngine, if_neg (Nat.ne_of_lt inside)]

theorem declare (o : ObjectId) (name : String) : w.Standing (w.modifyDeclared o (·.declare name)) :=
  modifyDeclared o _ fun d _ =>
    ⟨(d.attributes_declare name name).1, fun n => (d.attributes_declare name n).2⟩

theorem store (o : ObjectId) (name : String) (v : Value) :
    w.Standing (w.modifyDeclared o fun d => {d with values := d.values.insert name v}) := by
  refine modifyDeclared o _ fun d _ => ⟨rfl, fun n has => ?_⟩
  rw [Declared.hasAttribute, Bool.or_eq_true] at has ⊢
  refine has.imp_left fun valued => ?_
  show (d.values.insert name v).contains n = true
  rw [Dict.contains, Dict.get?_insert]
  split
  · rfl
  · exact valued

/-- An attribute that is cleared stays declared. -/
theorem unset (o : ObjectId) (name : String) :
    w.Standing (w.modifyDeclared o fun d =>
      ({d with values := d.values.erase name}).declare name) := by
  refine modifyDeclared o _ fun d _ => ?_
  obtain ⟨members, same, contains⟩ :=
    Declared.declare_eq {d with values := d.values.erase name} name
  rw [same]
  refine ⟨rfl, fun n has => ?_⟩
  show ((d.values.erase name).contains n || members.contains n) = true
  rw [contains, Dict.contains, Dict.get?_erase]
  rw [Declared.hasAttribute, Dict.contains] at has
  split
  · next same =>
    rw [same]
    simp
  · rw [← Bool.or_assoc, has, Bool.true_or]

theorem bindAttribute (o : ObjectId) (name : String) (op : Operator) (f : FunctionRef)
    (key : ScopeKey) : (LiveBinding.bindAttribute o name op f key).Keeps World.Standing :=
  steady.bindAttribute o name op f key (fun _ => declare o name) (fun _ c => addEngine c)
    (fun _ _ => modifyDeclared o _ fun _ _ => ⟨rfl, fun _ => id⟩)
    fun _ e => modifyEngine e _ fun _ => rfl

theorem newObject (b : Blueprint) : (LiveBinding.newObject b).Keeps World.Standing :=
  steady.newObject b (fun _ => still rfl rfl) fun _ _ => addObject _

theorem guard (e : EngineRef) (name : String) : w.Standing (w.guard e name) := by
  unfold World.guard
  split
  · exact still rfl rfl
  · exact modifyEngine e _ fun _ => rfl

theorem unguard {e : EngineRef} {name : String} (w₀ : World) :
    w.Standing (w₀.unguard w e name) := by
  unfold World.unguard
  split
  · exact still rfl rfl
  · exact modifyEngine e _ fun _ => rfl

end Standing

theorem Owned.guard (owned : w.Owned) (e : EngineRef) (name : String) : (w.guard e name).Owned := by
  unfold World.guard
  split
  · exact owned
  · exact owned.modifyEngine e _

theorem Owned.unguard {e : EngineRef} {name : String} (owned : w.Owned) (w₀ : World) :
    (w₀.unguard w e name).Owned := by
  unfold World.unguard
  split
  · exact owned
  · exact owned.modifyEngine e _

/-- What requests leave as it was, of objects and engines. -/
structure Sustains (w w' : World) : Prop extends w.Persists w', w.Standing w' where
  owned : w.Owned → w'.Owned

theorem frame_sustains : Frame World.Sustains where
  trans first next :=
    { toPersists := first.toPersists.trans next.toPersists
      toStanding := first.toStanding.trans next.toStanding
      owned := next.owned ∘ first.owned }
  quiet quiet :=
    ⟨.quiet quiet, .still quiet.objects quiet.engines, (frame_secured.quiet quiet).2⟩
  hold inside := ⟨frame_persists.hold inside.toPersists, {inside.toStanding with},
    fun owned => (inside.owned (owned.of_objects rfl (Nat.le_refl _))).of_objects rfl
      (Nat.le_refl _)⟩
  limited inside := ⟨frame_persists.limited inside.toPersists, {inside.toStanding with},
    fun owned => (inside.owned (owned.of_objects rfl (Nat.le_refl _))).of_objects rfl
      (Nat.le_refl _)⟩
  nested inside := ⟨frame_persists.nested inside.toPersists, {inside.toStanding with},
    fun owned => (inside.owned (owned.of_objects rfl (Nat.le_refl _))).of_objects rfl
      (Nat.le_refl _)⟩
  guarded {w _ e name} inside :=
    { toPersists := frame_persists.guarded inside.toPersists
      toStanding :=
        ((Standing.guard e name).trans inside.toStanding).trans (Standing.unguard w)
      owned := fun owned => (inside.owned (owned.guard e name)).unguard w }
  change w c := ⟨frame_persists.change w c, .addObject _, (frame_secured.change w c).2⟩
  view w o t there :=
    ⟨frame_persists.view w o t there, .addObject _, (frame_secured.view w o t there).2⟩
  object b w r w' run :=
    ⟨frame_persists.object b w r w' run, .newObject b w r w' run,
      (frame_secured.object b w r w' run).2⟩
  store w o d name v known free has := ⟨frame_persists.store w o d name v known free has,
    .store o name v, (frame_secured.store w o d name v known free has).2⟩
  unset w o d name old known free stored := ⟨frame_persists.unset w o d name old known free stored,
    .unset o name, (frame_secured.unset w o d name old known free stored).2⟩
  slot w o key free := ⟨frame_persists.slot w o key free,
    (Standing.steady.quiet (w.quiet_addLayer .empty)).trans
      (.modifyDeclared o _ fun _ _ => ⟨rfl, fun _ => id⟩),
    (frame_secured.slot w o key free).2⟩
  bind o name op f key w r w' run := ⟨frame_persists.bind o name op f key w r w' run,
    .bindAttribute o name op f key w r w' run, (frame_secured.bind o name op f key w r w' run).2⟩
  registry w := ⟨frame_persists.registry w, .still rfl rfl, (frame_secured.registry w).2⟩
  observe w r name c :=
    ⟨frame_persists.observe w r name c, .still rfl rfl, (frame_secured.observe w r name c).2⟩
  prune w r name xs found := ⟨frame_persists.prune w r name xs found, .still rfl rfl,
    (frame_secured.prune w r name xs found).2⟩
  tell w x change :=
    ⟨frame_persists.tell w x change, .still rfl rfl, (frame_secured.tell w x change).2⟩
  tracer w owner name :=
    ⟨frame_persists.tracer w owner name, .still rfl rfl, (frame_secured.tracer w owner name).2⟩
  trace w t o name :=
    ⟨frame_persists.trace w t o name, .still rfl rfl, (frame_secured.trace w t o name).2⟩
  drain w t := ⟨frame_persists.drain w t, .still rfl rfl, (frame_secured.drain w t).2⟩
  engine w config :=
    ⟨frame_persists.engine w config, .addEngine config, (frame_secured.engine w config).2⟩
  addBinding w e name b := ⟨frame_persists.addBinding w e name b, .modifyEngine e _ fun _ => rfl,
    (frame_secured.addBinding w e name b).2⟩
  clear w e :=
    ⟨frame_persists.clear w e, .modifyEngine e _ fun _ => rfl, (frame_secured.clear w e).2⟩
  bound sustains := frame_persists.bound sustains.toPersists
  relink w e owner name t bound r w' run :=
    { toPersists := frame_persists.relink w e owner name t bound r w' run
      toStanding := Standing.steady.relink e owner name t
        (fun _ _ => .modifyEngine e _ fun _ => rfl)
        (fun _ => .still rfl rfl) (fun _ _ => .still rfl rfl) (fun _ _ _ _ => .still rfl rfl)
        (fun _ _ => .modifyEngine e _ fun _ => rfl) w r w' run
      owned := (frame_secured.relink w e owner name t bound r w' run).2 }

/-! ### Wherever something is asked -/

/-- What requests keep, and brackets around what they ask, is so wherever something is asked. -/
theorem of_asks {R : World → World → Prop} (F : Frame R) {A : World → Prop}
    (kept : ∀ {w w'}, A w → R w w' → A w') (hold : ∀ {w : World} hs, A w → A (w.hold hs))
    (nested : ∀ {w : World}, A w → A {w with depth := w.depth + 1})
    (limited : ∀ {w : World} n, A w → A {w with limit := n})
    (guarded : ∀ {w : World} e name, A w → A (w.guard e name)) {α β : Type} {n : Nat}
    {q : Request α} {q' : Request β} {w v : World} (asks : Asks (LiveBinding.perform n) q w q' v)
    (here : A w) : A v := by
  obtain ⟨performer, only, differs⟩ := asks
  by_contra apart
  -- the performer differs in one answer, and not in a world of the kind
  have answers := sameAnswers_of_apart F (fun _ p => F.perform n p) only kept hold apart
  have accord {one two : Performer} (H : SameAnswers A R one two) : Accord A R one two := by
    have calling := H.answering.calling nested
    exact H.answering.accord calling limited (H.answering.updated_of_guarded F
      (fun e owner name _ there => calling.readBinding_at e owner name (limited _ there)) guarded)
  exact differs (Action.RefinesAt.antisymm ((accord answers.symm).respond F q w here)
    ((accord answers).respond F q w here))

/-- Objects own their engines wherever something is asked. -/
theorem owned_of_underway {bodies n : Nat} {limit : Option Nat} {α : Type} {q : Request α}
    (underway : Underway bodies limit n q w) : w.Owned := by
  induction underway with
  | host reached => exact (idle_of_reachable reached).owned
  | asked outer asks deeper stricter ih =>
    have around {w w' : World} (owned : w.Owned) (objects : w'.objects = w.objects)
        (engines : w'.engines = w.engines) : w'.Owned :=
      owned.of_objects objects (Nat.le_of_eq (congrArg Array.size engines).symm)
    exact of_asks frame_sustains (fun owned sustains => sustains.owned owned)
      (fun _ owned => around owned rfl rfl) (fun owned => around owned rfl rfl)
      (fun _ owned => around owned rfl rfl) (fun e name owned => owned.guard e name) asks ih

end World

end LiveBinding
