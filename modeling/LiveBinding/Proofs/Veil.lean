import LiveBinding.Proofs.Layers
import LiveBinding.Proofs.Looks

/-! A tracer out of sight.

An evaluation with a tracer differs from one without in what the tracer records, in views that
record in it, in being handed it, and in the number of arguments that the log tells of. Here is what
is left of a request, of a program and of a world when all that is hidden. As long as what the
tracer has recorded is held by somebody else as well, whatever else is asked of a world has the same
answer with the tracer hidden: a tracer keeps what it has recorded, and that alone could show. -/
namespace LiveBinding

universe u₁

/-- A call whose reads a tracer records. -/
structure TracedCall where
  tracer : TracerRef
  /-- The place of the call's entry in the log. -/
  entry : Nat
  /-- What the operations that the call is part of hold. -/
  outer : List Handle
  /-- What the tracer may record. -/
  held : List Handle
  /-- In how many steps at most others are to hold that. -/
  reach : Nat
  /-- The functions that run in the scope of the call. -/
  bodies : FunctionRef → Prop

/-! ### Programs -/

section
variable (T : TracedCall)

/-- The same tracer, or none in place of the hidden one. -/
def TracedCall.Hides (x y : Option TracerRef) : Prop := y = x ∨ x = some T.tracer ∧ y = none

/-- The same scope, or one without the tracer. -/
def Scope.Veiled (s s' : Scope) : Prop := ∃ t, T.Hides s.tracer t ∧ s' = {s with tracer := t}

/-- The same arguments, or none in place of the tracer. -/
def Arguments.Veiled (a a' : Arguments) : Prop := a' = a ∨ a = .traced T.tracer ∧ a' = .none

mutual

/-- The same request, but in a scope without the tracer. Nothing is asked of the tracer itself, and
the scope is handed on to functions only that run in it by right. -/
inductive Request.Veiled (T : TracedCall) : {α : Type} → Request α → Request α → Prop
  | same {α : Type} (q : Request α) : Request.Veiled T q q
  | holding {α : Type} {hs hs' : List Handle} {p p' : Program α}
      (handles : hs.filter (· ≠ .tracer T.tracer) = hs'.filter (· ≠ .tracer T.tracer))
      (body : Program.Veiled T p p') : Request.Veiled T (.holding hs p) (.holding hs' p')
  | visible {s s' : Scope} {name : String} (scope : s.Veiled T s')
      (other : name ≠ Reserved.tracer.name) :
      Request.Veiled T (.query (.visible s name)) (.query (.visible s' name))
  | getName {s s' : Scope} {name : String} (scope : s.Veiled T s')
      (other : name ≠ Reserved.tracer.name) :
      Request.Veiled T (.getName s name) (.getName s' name)
  | setName {s s' : Scope} {name : String} {v : Value} (scope : s.Veiled T s') :
      Request.Veiled T (.setName s name v) (.setName s' name v)
  | delName {s s' : Scope} {name : String} (scope : s.Veiled T s') :
      Request.Veiled T (.delName s name) (.delName s' name)
  | invert {s s' : Scope} {target : Target} {v : Value} (scope : s.Veiled T s')
      (other : target.root? ≠ some Reserved.tracer.name) :
      Request.Veiled T (.invert s target v) (.invert s' target v)
  | callFunction {f : FunctionRef} {args : Arguments} {s s' : Scope} (scope : s.Veiled T s')
      (body : T.bodies f) : Request.Veiled T (.callFunction f args s) (.callFunction f args s')

/-- The same program, but for the tracer in its scopes. -/
inductive Program.Veiled (T : TracedCall) : {α : Type} → Program α → Program α → Prop
  | done {α : Type} (r : Except BindError α) : Program.Veiled T (.done r) (.done r)
  | ask {α β : Type} {q q' : Request β} {k k' : Except BindError β → Program α}
      (request : Request.Veiled T q q') (rest : ∀ r, Program.Veiled T (k r) (k' r)) :
      Program.Veiled T (.ask q k) (.ask q' k')

end

/-- Code that looks neither at the tracer it is handed nor at the tracer of its scope. -/
def TracedCall.Blind (code : Scope → Arguments → Program Value) : Prop :=
  ∀ {s s' : Scope} {a a' : Arguments}, s.Veiled T s' → a.Veiled T a' →
    (code s a).Veiled T (code s' a')

end

section
variable {T : TracedCall} {s s' : Scope} {a a' : Arguments}

theorem Scope.Veiled.refl (s : Scope) : s.Veiled T s := ⟨s.tracer, .inl rfl, rfl⟩

theorem Scope.Veiled.handles (veiled : s.Veiled T s') :
    s.handles.filter (· ≠ .tracer T.tracer) = s'.handles.filter (· ≠ .tracer T.tracer) := by
  obtain ⟨t, rfl | ⟨here, rfl⟩, rfl⟩ := veiled
  · rfl
  · simp [Scope.handles, here]

theorem Arguments.Veiled.handles (veiled : a.Veiled T a') :
    a.handles.filter (· ≠ .tracer T.tracer) = a'.handles.filter (· ≠ .tracer T.tracer) := by
  obtain rfl | ⟨rfl, rfl⟩ := veiled
  · rfl
  · simp [Arguments.handles]

end

namespace Program.Veiled
variable {T : TracedCall} {α β : Type}

theorem refl (p : Program α) : p.Veiled T p := by
  match p with
  | .done r => exact .done r
  | .ask q k => exact .ask (.same q) fun r => refl (k r)
termination_by structural p

theorem request {q q' : Request α} (veiled : q.Veiled T q') :
    (Program.request q).Veiled T (Program.request q') := .ask veiled .done

theorem bind {p p' : Program α} {f f' : α → Program β} (first : p.Veiled T p')
    (next : ∀ x, (f x).Veiled T (f' x)) : (p >>= f).Veiled T (p' >>= f') := by
  show (p.bind f).Veiled T (p'.bind f')
  match p, p', first with
  | .done (.ok x), _, .done _ => exact next x
  | .done (.error e), _, .done _ => exact .done (.error e)
  | .ask q k, .ask q' k', .ask request rest => exact .ask request fun r => bind (rest r) next
termination_by structural p

end Program.Veiled

/-! ### What keeps what -/

/-- What labels hold. -/
def Desk.handles (d : Desk) : List Handle := d.kept.entries.flatMap fun e => e.2.handles

namespace World
variable {w u : World} {outer : List Handle} {n : Nat} {g h : Handle}

/-- What one thing holds until it is told to hold something else. Tracers, views and changes come
and go, and so do the links of an engine. -/
def keeps (w : World) : Handle → List Handle
  | .object o => (w.declared? o).elim [] fun d => (Entity.declared d).handles
  | .engine e => (w.engine e).bindings.entries.flatMap fun b => b.2.handles
  | .list r => (w.items r).flatMap Value.handles
  | .map r => (w.entries r).handles
  | .layer l => (w.layer l).handles
  | .native f => (w.natives[f.index]?).elim [] fun n => n.captured.flatMap Value.handles
  | .function f => (w.functionEnvironment f).handles
  | .tracer _ | .watcher _ | .link _ => []

/-- Whether a thing is held by a label or as one of those given, or in so many steps through things
that are. -/
def keptWithin (w : World) (outer : List Handle) : Nat → Handle → Bool
  | 0, h => w.desk.handles.contains h || outer.contains h
  | n + 1, h => w.keptWithin outer n h ||
    w.holders.any fun g => (w.keeps g).contains h && w.keptWithin outer n g

/-- Whoever keeps something is there and holds it. -/
theorem holds_of_keeps (keeps : h ∈ w.keeps g) : w.Holds g h := by
  cases g with
  | object o =>
    simp only [World.keeps] at keeps
    cases known : w.declared? o with
    | none =>
      rw [known] at keeps
      cases keeps
    | some d =>
      have here := w.declared?_eq_some.1 known
      rw [known] at keeps
      refine ⟨mem_holders.2 (Array.getElem?_eq_some_iff.1 here).1, ?_⟩
      rw [holds, here]
      exact keeps
  | engine e =>
    refine ⟨mem_holders.2 ?_, List.mem_append_left _ keeps⟩
    refine Nat.lt_of_not_le fun outside => ?_
    simp only [World.keeps, World.engine, Array.getElem?_eq_none outside] at keeps
    cases keeps
  | tracer t => cases keeps
  | watcher c => cases keeps
  | link l => cases keeps
  | list | map | layer | function | native =>
    refine ⟨mem_holders.2 (Nat.lt_of_not_le fun outside => ?_), keeps⟩
    simp only [World.keeps, items, entries, layer, functionEnvironment,
      Array.getElem?_eq_none outside] at keeps
    cases keeps

theorem keptWithin_zero :
    w.keptWithin outer 0 h = true ↔ h ∈ w.desk.handles ∨ h ∈ outer := by
  simp only [keptWithin, Bool.or_eq_true, List.contains_iff_mem]

theorem keptWithin_succ : w.keptWithin outer (n + 1) h = true ↔
    w.keptWithin outer n h = true ∨ ∃ g, h ∈ w.keeps g ∧ w.keptWithin outer n g = true := by
  simp only [keptWithin, Bool.or_eq_true, List.any_eq_true, Bool.and_eq_true,
    List.contains_iff_mem]
  refine or_congr_right (exists_congr fun g => ⟨And.right, fun kept => ⟨?_, kept⟩⟩)
  exact (holds_of_keeps kept.1).1

/-- Nothing is lost where more is kept. -/
theorem keptWithin_mono (desk : w.desk.handles ⊆ u.desk.handles)
    (keeps : ∀ g, w.keeps g ⊆ u.keeps g) (kept : w.keptWithin outer n h = true) :
    u.keptWithin outer n h = true := by
  induction n generalizing h with
  | zero => exact keptWithin_zero.2 ((keptWithin_zero.1 kept).imp_left fun mem => desk mem)
  | succ n ih =>
    refine keptWithin_succ.2 ((keptWithin_succ.1 kept).imp ih ?_)
    rintro ⟨g, holds, kept⟩
    exact ⟨g, keeps g holds, ih kept⟩

/-- Labels hold what they held, and so does whatever keeps anything. -/
structure SameKeepers (w u : World) : Prop where
  desk : u.desk.kept = w.desk.kept
  keeps : u.keeps = w.keeps

theorem SameKeepers.keptWithin (same : w.SameKeepers u) :
    u.keptWithin outer n h = true ↔ w.keptWithin outer n h = true := by
  have desk : u.desk.handles = w.desk.handles := by rw [Desk.handles, same.desk, Desk.handles]
  constructor
  · refine keptWithin_mono (fun _ mem => desk ▸ mem) fun g => ?_
    rw [same.keeps]
    exact List.Subset.refl _
  · refine keptWithin_mono (fun _ mem => desk ▸ mem) fun g => ?_
    rw [same.keeps]
    exact List.Subset.refl _

theorem SameKeepers.of_eq {v : World} (same : w.SameKeepers u) (desk : w.desk.kept = v.desk.kept)
    (keeps : w.keeps = v.keeps) : v.SameKeepers u :=
  ⟨same.desk.trans desk, same.keeps.trans keeps⟩

theorem sameKeepers_addObject (w : World) {x : Entity} (plain : ∀ d, x ≠ .declared d) :
    w.SameKeepers (w.addObject x).1 := by
  refine ⟨rfl, funext fun g => ?_⟩
  cases g with
  | object o =>
    have same : (w.addObject x).1.declared? o = w.declared? o := by
      rw [World.declared?, World.declared?, entity?_addObject]
      by_cases last : o.index = w.objects.size
      · rw [if_pos last, World.entity?, Array.getElem?_eq_none (Nat.le_of_eq last.symm)]
        cases x with
        | declared d => exact absurd rfl (plain d)
        | change | view => rfl
      · rw [if_neg last]
    simp only [World.keeps, same]
  | _ => rfl

theorem sameKeepers_addLayer (w : World) : w.SameKeepers (w.addLayer .empty).1 := by
  refine ⟨rfl, funext fun g => ?_⟩
  cases g with
  | layer l =>
    have same : (w.addLayer .empty).1.layer l = w.layer l := by
      simp only [World.layer, World.addLayer, Array.getElem?_push]
      split
      · next last => rw [Array.getElem?_eq_none (Nat.le_of_eq last.symm)]; rfl
      · rfl
    simp only [World.keeps, same]
  | _ => rfl

theorem keeps_addLayer (w : World) (locals : Dict String Value) (g : Handle) :
    w.keeps g ⊆ (w.addLayer locals).1.keeps g := by
  cases g with
  | layer l =>
    intro h keeps
    have here : l.index < w.layers.size := by
      refine Nat.lt_of_not_le fun outside => ?_
      simp only [World.keeps, World.layer, Array.getElem?_eq_none outside] at keeps
      cases keeps
    simp only [World.keeps, World.layer, World.addLayer, Array.getElem?_push] at keeps ⊢
    rwa [if_neg (Nat.ne_of_lt here)]
  | _ => exact List.Subset.refl _

theorem sameKeepers_modifyDeclared (w : World) (o : ObjectId) {f : Declared → Declared}
    (same : ∀ d, (Entity.declared (f d)).handles = (Entity.declared d).handles) :
    w.SameKeepers (w.modifyDeclared o f) := by
  refine ⟨rfl, funext fun g => ?_⟩
  cases g with
  | object p =>
    simp only [World.keeps, declared?_modifyDeclared]
    split
    · cases w.declared? p with
      | none => rfl
      | some d => exact same d
    · rfl
  | _ => rfl

/-- An object that holds more keeps what it has kept. -/
theorem keeps_modifyDeclared (w : World) (o : ObjectId) {f : Declared → Declared}
    (more : ∀ d, w.declared? o = some d →
      (Entity.declared d).handles ⊆ (Entity.declared (f d)).handles) (g : Handle) :
    w.keeps g ⊆ (w.modifyDeclared o f).keeps g := by
  cases g with
  | object p =>
    simp only [World.keeps, declared?_modifyDeclared]
    split
    · next same =>
      subst same
      cases known : w.declared? o with
      | none => exact List.Subset.refl _
      | some d => exact more d known
    · exact List.Subset.refl _
  | _ => exact List.Subset.refl _

theorem sameKeepers_modifyEngine (w : World) (e : EngineRef) {f : Engine → Engine}
    (bodies : ∀ g : Engine, (f g).bindings = g.bindings) : w.SameKeepers (w.modifyEngine e f) := by
  refine ⟨rfl, funext fun g => ?_⟩
  cases g with
  | engine e' =>
    have bound : ((w.modifyEngine e f).engine e').bindings = (w.engine e').bindings := by
      rw [engine_modifyEngine]
      split
      · exact bodies _
      · rfl
    simp only [World.keeps, bound]
  | _ => rfl

theorem sameKeepers_addEngine (w : World) (config : Config) :
    w.SameKeepers (w.addEngine (.start config)).1 := by
  refine ⟨rfl, funext fun g => ?_⟩
  cases g with
  | engine e =>
    have bound : ((w.addEngine (.start config)).1.engine e).bindings = (w.engine e).bindings := by
      simp only [World.engine, World.addEngine, Array.getElem?_push]
      split
      · next last => rw [Array.getElem?_eq_none (Nat.le_of_eq last.symm)]; rfl
      · rfl
    simp only [World.keeps, bound]
  | _ => rfl

end World

/-! ### Worlds -/

/-- The kinds of object, as they are without the tracer. -/
def Entity.veil (t : TracerRef) : Entity → Entity
  | .view owner u => .view owner (u.filter (· ≠ t))
  | other => other

/-- The entry without the number of arguments. -/
def LogEntry.veil : LogEntry → LogEntry
  | .callStarted f o _ => .callStarted f o 0
  | other => other

/-- The world without what the tracer has recorded, without views that record in it and without the
operations' hold on it; the entry of the call does not count arguments. -/
def TracedCall.veil (T : TracedCall) (w : World) : World :=
  { w with
    objects := w.objects.map (Entity.veil T.tracer)
    tracers := w.tracers.modify T.tracer.index Tracer.drain
    held := w.held.filter (· ≠ .tracer T.tracer)
    log := w.log.modify T.entry LogEntry.veil }

namespace TracedCall
variable {T : TracedCall} {w w' u u' : World} {α : Type} {o : ObjectId} {h : Handle}

section
variable (T)

theorem entity?_veil (w : World) (o : ObjectId) :
    (T.veil w).entity? o = (w.entity? o).map (Entity.veil T.tracer) := Array.getElem?_map

theorem declared?_veil (w : World) (o : ObjectId) : (T.veil w).declared? o = w.declared? o := by
  rw [World.declared?, World.declared?, entity?_veil]
  rcases w.entity? o with _ | d | c | ⟨p, u⟩ <;> rfl

theorem change?_veil (w : World) (o : ObjectId) : (T.veil w).change? o = w.change? o := by
  rw [World.change?, World.change?, entity?_veil]
  rcases w.entity? o with _ | d | c | ⟨p, u⟩ <;> rfl

theorem has_veil (w : World) (o : ObjectId) : (T.veil w).has o = w.has o := by
  simp only [World.has, veil, Array.size_map]

theorem stored?_veil (w : World) (o : ObjectId) (name : String) :
    (T.veil w).stored? o name = w.stored? o name := by
  rw [World.stored?, World.stored?, declared?_veil]

theorem localStorage?_veil (w : World) (o : ObjectId) (key : ScopeKey) :
    (T.veil w).localStorage? o key = w.localStorage? o key := by
  rw [World.localStorage?, World.localStorage?, declared?_veil]

theorem registryOf?_veil (w : World) (o : ObjectId) :
    (T.veil w).registryOf? o = w.registryOf? o := by
  rw [World.registryOf?, World.registryOf?, declared?_veil]

theorem engineOf?_veil (w : World) (o : ObjectId) : (T.veil w).engineOf? o = w.engineOf? o := by
  rw [World.engineOf?, World.engineOf?, declared?_veil]

theorem typeName_veil (w : World) (o : ObjectId) : (T.veil w).typeName o = w.typeName o := by
  simp only [World.typeName, entity?_veil]
  rcases w.entity? o with _ | d | c | ⟨p, u⟩ <;> rfl

/-! Values look the same with the tracer hidden. -/

theorem looks (w : World) : w.SameLooks (fun g h => h = g) (T.veil w) :=
  .of_tables rfl (T.typeName_veil w) rfl rfl

theorem paired_self (v : Value) : v.Paired (fun g h => h = g) v := .refl fun _ _ => rfl

theorem typeNameOf_veil (w : World) (v : Value) : (T.veil w).typeNameOf v = w.typeNameOf v :=
  (T.looks w).typeNameOf (paired_self v)

theorem isTrue_veil (w : World) (v : Value) : (T.veil w).isTrue v = w.isTrue v :=
  (T.looks w).isTrue (paired_self v)

theorem equal_veil (w : World) (x y : Value) : (T.veil w).equal x y = w.equal x y :=
  (T.looks w).equal (.inl rfl) (paired_self x) (paired_self y)

theorem text_veil (w : World) (v : Value) : (T.veil w).text v = w.text v :=
  (T.looks w).text (.inl rfl) (paired_self v)

theorem snapshot_veil (w : World) (v : Value) : (T.veil w).snapshot v = w.snapshot v :=
  (T.looks w).snapshot (.inl rfl) (paired_self v)

theorem badKey_veil (w : World) (v key : Value) : (T.veil w).badKey v key = w.badKey v key :=
  (T.looks w).badKey (.inl rfl) (paired_self v) (paired_self key)

theorem notSubscriptable_veil (w : World) (v : Value) :
    (T.veil w).notSubscriptable v = w.notSubscriptable v :=
    (T.looks w).notSubscriptable (paired_self v)

theorem getItem_veil (w : World) (v key : Value) : (T.veil w).getItem v key = w.getItem v key := by
  have items (r : ListRef) : (T.veil w).items r = w.items r := rfl
  have entries (r : MapRef) : (T.veil w).entries r = w.entries r := rfl
  cases v <;> cases key <;>
    simp only [World.getItem, items, entries, badKey_veil, notSubscriptable_veil]

theorem describe_veil (w : World) (o : ObjectId) : (T.veil w).describe o = w.describe o := by
  rw [World.describe, World.describe, typeName_veil]

theorem scopeText_veil (w : World) (s : Scope) : (T.veil w).scopeText s = w.scopeText s := by
  simp only [World.scopeText, describe_veil]
  rfl

theorem changeText_veil (w : World) (c : Change) : (T.veil w).changeText c = w.changeText c := by
  simp only [World.changeText, describe_veil, text_veil]

theorem targetText_veil (w : World) (target : Target) :
    (T.veil w).targetText target = w.targetText target := by
  have text : (T.veil w).text = w.text := funext (T.text_veil w)
  cases target <;> simp only [World.targetText, text]

theorem tracer_veil (w : World) (u : TracerRef) :
    (T.veil w).tracer u = if u = T.tracer then (w.tracer u).drain else w.tracer u := by
  simp only [World.tracer, veil, Array.getElem?_modify]
  by_cases same : u = T.tracer
  · rw [if_pos same, if_pos (by rw [same])]
    rcases w.tracers[u.index]? with _ | x <;> rfl
  · rw [if_neg same, if_neg (mt (fun here => ?_) same)]
    cases u
    exact congrArg TracerRef.mk here.symm

theorem tracerText_veil (w : World) {u : TracerRef} (other : u ≠ T.tracer) :
    (T.veil w).tracerText ((T.veil w).tracer u) = w.tracerText (w.tracer u) := by
  simp only [tracer_veil, if_neg other, World.tracerText, describe_veil]

/-! ### What is still there -/

theorem holders_veil (w : World) : (T.veil w).holders = w.holders := by
  simp only [World.holders, veil, Array.size_map, Array.size_modify]

/-- Nothing is held for hiding the tracer. -/
theorem holds_veil_subset (w : World) (g : Handle) : (T.veil w).holds g ⊆ w.holds g := by
  intro h mem
  cases g with
  | object o =>
    simp only [World.holds, entity?_veil] at mem ⊢
    generalize w.entity? o = x at mem ⊢
    rcases x with _ | d | c | ⟨p, u⟩
    · exact mem
    · exact mem
    · exact mem
    · rcases List.mem_cons.1 mem with rfl | mem
      · exact List.mem_cons_self
      · obtain ⟨u', here, rfl⟩ := List.mem_map.1 mem
        have there := (Option.filter_eq_some_iff.1 (Option.mem_toList.1 here)).1
        rw [there]
        exact List.mem_cons_of_mem _ List.mem_cons_self
  | tracer u =>
    simp only [World.holds, tracer_veil] at mem ⊢
    split at mem
    · cases List.mem_singleton.1 mem
      exact List.mem_cons_self
    · exact mem
  | _ => exact mem

/-- Whatever is held by anything but the tracer still is, unless it is the tracer. -/
theorem mem_holds_veil {g : Handle} (other : g ≠ .tracer T.tracer) (seen : h ≠ .tracer T.tracer)
    (mem : h ∈ w.holds g) : h ∈ (T.veil w).holds g := by
  cases g with
  | object o =>
    simp only [World.holds, entity?_veil] at mem ⊢
    generalize w.entity? o = x at mem ⊢
    rcases x with _ | d | c | ⟨p, u⟩
    · exact mem
    · exact mem
    · exact mem
    · rcases List.mem_cons.1 mem with rfl | mem
      · exact List.mem_cons_self
      · obtain ⟨u', here, rfl⟩ := List.mem_map.1 mem
        have apart : u' ≠ T.tracer := fun same => seen (congrArg Handle.tracer same)
        rw [Option.mem_toList.1 here]
        refine List.mem_cons_of_mem _ (List.mem_map_of_mem ?_)
        simp [apart]
  | tracer u =>
    have apart : u ≠ T.tracer := fun same => other (congrArg Handle.tracer same)
    simp only [World.holds, tracer_veil, if_neg apart]
    exact mem
  | _ => exact mem

theorem mem_roots_veil (seen : h ≠ .tracer T.tracer) : h ∈ (T.veil w).roots ↔ h ∈ w.roots := by
  simp only [World.roots, veil, List.mem_append, List.mem_filter, decide_eq_true_eq, ne_eq, seen,
    not_false_eq_true, and_true]

/-- What is kept without tracers and without operations that have begun since is there with the
tracer hidden. -/
theorem isLive_of_kept {n : Nat} (outer : T.outer ⊆ w.held) (kept : w.keptWithin T.outer n h = true)
    (seen : h ≠ .tracer T.tracer) : (T.veil w).isLive h = true := by
  induction n generalizing h with
  | zero =>
    refine World.isLive_of_mem_roots ((mem_roots_veil T seen).2 ?_)
    exact (World.keptWithin_zero.1 kept).elim (List.mem_append_left _) fun held =>
      List.mem_append_right _ (outer held)
  | succ n ih =>
    rcases World.keptWithin_succ.1 kept with kept | ⟨g, holds, kept⟩
    · exact ih kept seen
    · have other : g ≠ .tracer T.tracer := by
        rintro rfl
        cases holds
      have held := World.holds_of_keeps holds
      refine World.isLive_of_holds (ih kept other) ⟨?_, mem_holds_veil T other seen held.2⟩
      rw [holders_veil]
      exact held.1

/-- What is there with the tracer hidden is what is there, if all that the tracer holds is. -/
theorem isLive_veil (kept : ∀ g ∈ (w.tracer T.tracer).handles, (T.veil w).isLive g = true)
    (seen : h ≠ .tracer T.tracer) : (T.veil w).isLive h = w.isLive h := by
  refine Bool.eq_iff_iff.2 ⟨World.isLive_mono ?_ ?_, fun live => World.isLive_iff.2 fun gone => ?_⟩
  · intro h root
    rcases List.mem_append.1 root with desk | held
    · exact List.mem_append_left _ desk
    · exact List.mem_append_right _ (List.mem_filter.1 held).1
  · intro g h held
    rw [World.Holds, holders_veil] at held
    exact ⟨held.1, holds_veil_subset T w g held.2⟩
  · refine World.isLive_iff.1 live ?_
    clear live
    induction gone with
    | @intro h outside inside ih =>
      refine .intro (fun root => outside ((mem_roots_veil T seen).2 root)) fun g held => ?_
      by_cases hidden : g = .tracer T.tracer
      · subst hidden
        exact absurd (.intro outside inside) (World.isLive_iff.1 (kept h held.2))
      · refine ih g ⟨?_, mem_holds_veil T hidden seen held.2⟩ hidden
        rw [holders_veil]
        exact held.1

end

/-! ### Two worlds that differ in the tracer -/

/-- All that the tracer may record is kept by others. -/
def Sustained (T : TracedCall) (w : World) : Prop :=
  ∀ h ∈ T.held, w.keptWithin T.outer T.reach h = true

theorem sustained_iff (same : w.SameKeepers u) : T.Sustained u ↔ T.Sustained w :=
  forall₂_congr fun _ _ => same.keptWithin

theorem Sustained.grows (sustained : T.Sustained w) (desk : w.desk.handles ⊆ u.desk.handles)
    (keeps : ∀ g, w.keeps g ⊆ u.keeps g) : T.Sustained u := fun h mem =>
  World.keptWithin_mono desk keeps (sustained h mem)

theorem Sustained.remains (sustained : T.Sustained w) (same : w.SameKeepers u) : T.Sustained u :=
  (sustained_iff same).2 sustained

/-- The second world is the first as it is without the tracer. The tracer of the first holds nothing
that others do not keep too. -/
structure Same (T : TracedCall) (w w' : World) : Prop where
  veiled : T.veil w = T.veil w'
  views : ∀ o p, w'.entity? o = some (.view p (some T.tracer)) →
    w.entity? o = some (.view p (some T.tracer))
  record : (w'.tracer T.tracer).handles ⊆ (w.tracer T.tracer).handles
  begun : T.tracer.index < w.tracers.size
  recorded : (w.tracer T.tracer).handles ⊆ T.held
  outer : T.outer ⊆ w.held
  sustained : T.Sustained w
  bodies : ∀ f, T.bodies f → ∃ g, w.functions[f.index]? = some g ∧ T.Blind g.code

/-- The same object, or a view without the tracer in place of one that records in it. -/
inductive SameObject (T : TracedCall) : Option Entity → Option Entity → Prop
  | same (x : Option Entity) : T.SameObject x x
  | view (p : ObjectId) : T.SameObject (some (.view p (some T.tracer))) (some (.view p none))

theorem hide_of_ne {t : TracerRef} {x : Option TracerRef} (other : x ≠ some t) :
    x.filter (· ≠ t) = x := by
  cases x with
  | none => rfl
  | some u =>
    rw [Option.filter_some, if_pos]
    simpa using other

namespace Same
variable (same : T.Same w w')
include same

/-- A question about the world that does not show the tracer has one answer. -/
theorem answer {α : Type u₁} {f : World → α} (blind : ∀ w, f (T.veil w) = f w) : f w' = f w := by
  rw [← blind w', ← same.veiled, blind]

theorem code_eq (f : FunctionRef) (s : Scope) (a : Arguments) : w'.code f s a = w.code f s a :=
  same.answer (f := (·.code f s a)) fun _ => rfl

theorem code {f : FunctionRef} (body : T.bodies f) {s s' : Scope} {a a' : Arguments}
    (scope : s.Veiled T s') (arguments : a.Veiled T a') :
    (w.code f s a).Veiled T (w'.code f s' a') := by
  obtain ⟨g, here, blind⟩ := same.bodies f body
  rw [same.code_eq, World.code, World.code, here]
  exact blind scope arguments

theorem object (o : ObjectId) : T.SameObject (w.entity? o) (w'.entity? o) := by
  have veiled : (w.entity? o).map (Entity.veil T.tracer) =
      (w'.entity? o).map (Entity.veil T.tracer) := by
    rw [← entity?_veil, ← entity?_veil, same.veiled]
  have views := same.views o
  generalize w.entity? o = x, w'.entity? o = x' at veiled views
  rcases x with _ | d | c | ⟨p, t⟩ <;> rcases x' with _ | d' | c' | ⟨p', t'⟩ <;>
    simp only [Option.map_none, Option.map_some, Option.some.injEq, reduceCtorEq, Entity.veil,
      Entity.declared.injEq, Entity.change.injEq, Entity.view.injEq] at veiled
  · exact .same _
  · subst veiled
    exact .same _
  · subst veiled
    exact .same _
  · obtain ⟨rfl, hidden⟩ := veiled
    by_cases there : t' = some T.tracer
    · subst there
      cases views p rfl
      exact .same _
    · rw [hide_of_ne there] at hidden
      by_cases here : t = some T.tracer
      · subst here
        rw [Option.filter_some, if_neg (by simp)] at hidden
        subst hidden
        exact .view p
      · rw [hide_of_ne here] at hidden
        subst hidden
        exact .same _

/-- What the tracer holds would be there without it, in both worlds. -/
theorem kept : (∀ h ∈ (w.tracer T.tracer).handles, (T.veil w).isLive h = true) ∧
    ∀ h ∈ (w'.tracer T.tracer).handles, (T.veil w').isLive h = true := by
  have kept : ∀ h ∈ (w.tracer T.tracer).handles, (T.veil w).isLive h = true := by
    intro h mem
    refine isLive_of_kept T same.outer (same.sustained h (same.recorded mem)) ?_
    rintro rfl
    simp [Tracer.handles] at mem
  refine ⟨kept, fun h mem => ?_⟩
  rw [← same.veiled]
  exact kept h (same.record mem)

theorem isLive (seen : h ≠ .tracer T.tracer) : w'.isLive h = w.isLive h := by
  rw [← isLive_veil T same.kept.2 seen, ← same.veiled, isLive_veil T same.kept.1 seen]

theorem parent? (o : ObjectId) : w'.parent? o = w.parent? o := by
  rw [World.parent?, World.parent?, same.answer (T.declared?_veil · o) (f := (·.declared? o))]
  have seen (p : ObjectId) : Handle.object p ≠ .tracer T.tracer := by rintro ⟨⟩
  exact congrArg (Option.filter · _) (funext fun p => same.isLive (seen p))

theorem within (name : String) (fuel : Nat) (o : ObjectId) :
    w'.hasWithin name fuel o = w.hasWithin name fuel o ∧
      w'.nearestWithin name fuel o = w.nearestWithin name fuel o := by
  induction fuel generalizing o with
  | zero => exact ⟨by simp only [World.hasWithin], by simp only [World.nearestWithin]⟩
  | succ fuel ih =>
    constructor
    · have object := same.object o
      simp only [World.hasWithin]
      generalize w.entity? o = x, w'.entity? o = x' at object
      cases object with
      | same =>
        rcases x with _ | d | c | ⟨p, t⟩
        · rfl
        · rfl
        · rfl
        · simp only [(ih p).2]
      | view p => simp only [(ih p).2]
    · simp only [World.nearestWithin, (ih o).1, same.parent? o]
      split
      · rfl
      · cases w.parent? o with
        | none => rfl
        | some p => exact (ih p).2

theorem hasAttribute (o : ObjectId) (name : String) :
    w'.hasAttribute o name = w.hasAttribute o name :=
  (same.within name _ o).1

theorem nearest? (o : ObjectId) (name : String) : w'.nearest? o name = w.nearest? o name :=
  (same.within name _ o).2

theorem liveObservers (xs : List Observer) : w'.liveObservers xs = w.liveObservers xs := by
  refine List.filter_congr fun x _ => same.isLive ?_
  cases x <;> exact nofun

end Same

end TracedCall

end LiveBinding
