import LiveBinding.Proofs.Peers
import LiveBinding.Proofs.Reads
import LiveBinding.Proofs.Undisturbed

/-! Tracing misses nothing.

A traced body that reads attributes by name, through its tracer or by a traced `getattr`, and
otherwise only computes, is determined by what its tracer has recorded: in a state where the
recorded attributes have the same values it does the same, whatever other attributes hold. The two
evaluations are followed side by side. Containers that they make stand for each other, whichever
references these have. -/
namespace LiveBinding

/-! ### Bodies -/

/-- What bodies can count on: the native functions there are, what some names mean, and what can be
in hand in the same place. -/
structure Grounds where
  natives : Array Native
  means : String → Value → Prop
  hand : Handle → Handle → Prop

/-- A question about values in hand, which no attribute has a part in, put in two states. -/
inductive Query.OfValues (G : Grounds) : {α : Type} → Query α → Query α → Prop where
  | typeName {v v' : Value} (hand : v.Paired G.hand v') : OfValues G (.typeName v) (.typeName v')
  | isTrue {v v' : Value} (hand : v.Paired G.hand v') : OfValues G (.isTrue v) (.isTrue v')
  | equal {x x' y y' : Value} (left : x.Paired G.hand x') (right : y.Paired G.hand y') :
      OfValues G (.equal x y) (.equal x' y')
  | text {v v' : Value} (hand : v.Paired G.hand v') : OfValues G (.text v) (.text v')
  | snapshot {v v' : Value} (hand : v.Paired G.hand v') : OfValues G (.snapshot v) (.snapshot v')
  | nativeName {f : NativeRef} (hand : G.hand (.native f) (.native f)) :
      OfValues G (.nativeName f) (.nativeName f)
  | describe {o : ObjectId} (hand : G.hand (.object o) (.object o)) :
      OfValues G (.describe o) (.describe o)

/-- Bodies built from literals, names that are not reserved, loads and calls of `getattr` through
the tracer, and operations on values; a failure ends them. A body is related to itself if it
does the same with values that stand for each other. What the two give is related in turn. -/
inductive Traced (G : Grounds) : {α : Type} → (Scope → TracerRef → Program α) →
    (Scope → TracerRef → Program α) → (α → α → Prop) → Prop where
  | give {α : Type} {P : α → α → Prop} {x x' : α} (here : P x x') :
      Traced G (fun _ _ => .done (.ok x)) (fun _ _ => .done (.ok x')) P
  | fail {α : Type} {P : α → α → Prop} (e e' : BindError) :
      Traced G (fun _ _ => .done (.error e)) (fun _ _ => .done (.error e')) P
  | bind {α β : Type} {b b' : Scope → TracerRef → Program α}
      {k k' : α → Scope → TracerRef → Program β} {P : α → α → Prop} {Q : β → β → Prop}
      (first : Traced G b b' P) (next : ∀ x x', P x x' → Traced G (k x) (k' x') Q) :
      Traced G (fun s t => b s t >>= fun x => k x s t) (fun s t => b' s t >>= fun x => k' x s t) Q
  | hold {α : Type} {b b' : Scope → TracerRef → Program α} {P : α → α → Prop} {hs hs' : List Handle}
      (hand : List.Forall₂ G.hand hs hs') (inner : Traced G b b' P) :
      Traced G (fun s t => .request (.holding hs (b s t)))
        (fun s t => .request (.holding hs' (b' s t))) P
  | look {α : Type} {q q' : Query α} (values : q.OfValues G q') :
      Traced G (fun _ _ => .request (.query q)) (fun _ _ => .request (.query q')) fun x x' => x' = x
  | items {r r' : ListRef} (hand : G.hand (.list r) (.list r')) :
      Traced G (fun _ _ => .request (.query (.items r))) (fun _ _ => .request (.query (.items r')))
        (List.Forall₂ (Value.Paired G.hand))
  | entries {r r' : MapRef} (hand : G.hand (.map r) (.map r')) :
      Traced G (fun _ _ => .request (.query (.entries r)))
        (fun _ _ => .request (.query (.entries r'))) (Dict.Rel (Value.Paired G.hand))
  | item {v v' key key' : Value} (hand : v.Paired G.hand v') (hand' : key.Paired G.hand key') :
      Traced G (fun _ _ => .request (.getItem v key)) (fun _ _ => .request (.getItem v' key'))
        (Value.Paired G.hand)
  | list {xs xs' : List Value} (hand : List.Forall₂ (Value.Paired G.hand) xs xs') :
      Traced G (fun _ _ => .request (.newList xs)) (fun _ _ => .request (.newList xs'))
        (Value.Paired G.hand)
  | map {d d' : Dict String Value} (hand : d.Rel (Value.Paired G.hand) d') :
      Traced G (fun _ _ => .request (.newMap d)) (fun _ _ => .request (.newMap d'))
        (Value.Paired G.hand)
  | call {f : NativeRef} {n : Native} {args args' : List Value}
      (known : G.natives[f.index]? = some n)
      (own : G.hand (.native f) (.native f)) (hand : List.Forall₂ (Value.Paired G.hand) args args')
      (code : Traced G (fun _ _ => n.code args) (fun _ _ => n.code args') (Value.Paired G.hand)) :
      Traced G (fun _ _ => .request (.call (.native f) args))
        (fun _ _ => .request (.call (.native f) args')) (Value.Paired G.hand)
  | name {n : String} (plain : isReserved n = false) :
      Traced G (fun s _ => .request (.getName s n)) (fun s _ => .request (.getName s n))
        fun x x' => x.Paired G.hand x' ∧ ∀ y, G.means n y → x = y ∧ x' = y
  | load {v v' : Value} {n : String} (hand : v.Paired G.hand v') :
      Traced G (fun _ t => .request (.loadAttr t v n)) (fun _ t => .request (.loadAttr t v' n))
        (Value.Paired G.hand)
  | getattr {v v' : Value} {n : String} {spare spare' : Option Value}
      (known : G.natives[getattrRef.index]? = some ⟨getattrName, [], Builtin.getattr⟩)
      (own : G.hand (.native getattrRef) (.native getattrRef)) (hand : v.Paired G.hand v')
      (fallback : Option.Rel (Value.Paired G.hand) spare spare') :
      Traced G (fun _ t => .request
        (.callTraced t (.native getattrRef) (v :: .str n :: spare.toList)))
        (fun _ t => .request (.callTraced t (.native getattrRef) (v' :: .str n :: spare'.toList)))
        (Value.Paired G.hand)

variable {w w' u : World} {t : TracerRef} {n : Nat} {α : Type}

/-! ### Two states -/

namespace World

/-- An attribute that is filled in two states and has the same value in them. -/
structure Same (a a' : World) (d : Dependency) : Prop where
  filled : a.Filled d
  filled' : a'.Filled d
  value : a'.valueOf? d = a.valueOf? d

variable {a w : World} {d : Dependency}

theorem Endures.valueOf? (endures : a.Endures w) (d : Dependency) :
    w.valueOf? d = a.valueOf? d := by
  rw [World.valueOf?, World.valueOf?, stored?, stored?, endures.declared?]

theorem Endures.filled (endures : a.Endures w) (filled : a.Filled d) : w.Filled d := by
  have handler : w.handlerOf? d = a.handlerOf? d := by
    simp only [World.handlerOf?, engineOf?, engine, endures.declared?, endures.engines]
  rw [Filled, handler, endures.valueOf?]
  exact filled

/-- The name means something outside, as neither a local nor an attribute has it. -/
def Outside (a : World) (s : Scope) (n : String) (x : Value) : Prop :=
  (a.layer s.locals).get? n = none ∧ a.nearest? s.owner n = none ∧ s.environment.outer n = .ok x

/-- What bodies can count on that are evaluated in two states. -/
def grounds (a a' : World) (s : Scope) : Grounds where
  natives := a.natives
  means := a.Outside s
  hand := a.Both a'

theorem Both.paired {a a' : World} {v : Value}
    (live : ∀ h ∈ v.handles, a.isLive h = true ∧ a'.isLive h = true) : v.Paired (a.Both a') v :=
  .refl fun h mem => .live (live h mem).1 (live h mem).2

end World

/-- What values hold that can be in hand in the same place. -/
theorem Value.Paired.handles {H : Handle → Handle → Prop} {v v' : Value} (paired : v.Paired H v') :
    List.Forall₂ H v.handles v'.handles := by
  cases paired with
  | atom _ hand => exact List.forall₂_same.2 hand
  | list hand => exact .cons hand .nil
  | map hand => exact .cons hand .nil

theorem forall₂_handles {H : Handle → Handle → Prop} {xs xs' : List Value}
    (each : List.Forall₂ (Value.Paired H) xs xs') :
    List.Forall₂ H (xs.flatMap Value.handles) (xs'.flatMap Value.handles) := by
  induction each with
  | nil => exact .nil
  | cons first _ ih => exact List.rel_append first.handles ih

theorem Dict.Rel.handles {H : Handle → Handle → Prop} {d d' : Dict String Value}
    (rel : d.Rel (Value.Paired H) d') : List.Forall₂ H d.handles d'.handles := by
  replace rel : List.Forall₂ _ d.entries d'.entries := rel
  unfold Dict.handles
  generalize d.entries = es, d'.entries = es' at rel
  induction rel with
  | nil => exact .nil
  | cons first _ ih => exact List.rel_append first.2.handles ih

theorem World.Both.inHand {a a' : World} {l l' : List Handle}
    (each : List.Forall₂ (a.Both a') l l') : (∀ h ∈ l, a.InHand h) ∧ ∀ h ∈ l', a'.InHand h := by
  induction each with
  | nil => exact ⟨nofun, nofun⟩
  | cons first _ ih => exact ⟨List.forall_mem_cons.2 ⟨first.left, ih.1⟩,
      List.forall_mem_cons.2 ⟨first.right, ih.2⟩⟩

/-- Two states, and scopes and tracers that a body is evaluated with in them. The scopes give names
the same meaning, except for attributes, and no view is there. -/
structure Setting (a a' : World) (s s' : Scope) (t t' : TracerRef) : Prop where
  peers : a.Peers a'
  plain : ∀ {o}, a.isLive (.object o) = true → a.Plain o
  owner : s'.owner = s.owner
  here : a.isLive (.object s.owner) = true
  here' : a'.isLive (.object s.owner) = true
  environment : s'.environment = s.environment
  outer : ∀ {n v}, s.environment.outer n = .ok v → v.Paired (a.Both a') v
  locals : a'.layer s'.locals = a.layer s.locals
  named : ∀ {n v}, (a.layer s.locals).get? n = some v → v.Paired (a.Both a') v
  tracer : s.tracer = some t
  tracer' : s'.tracer = some t'
  new : a.Fresh (.tracer t)
  new' : a'.Fresh (.tracer t')

/-- Two evaluations that have come equally far, and have made as many containers. -/
structure Tandem (a a' : World) (s s' : Scope) (t t' : TracerRef) (w w' : World) : Prop where
  left : a.Endures w
  right : a'.Endures w'
  looks : w.SameLooks (a.Both a') w'
  lists : w'.lists.size + a.lists.size = w.lists.size + a'.lists.size
  maps : w'.maps.size + a.maps.size = w.maps.size + a'.maps.size
  locals : w.layer s.locals = a.layer s.locals
  locals' : w'.layer s'.locals = a'.layer s'.locals
  recorded : (w'.tracer t').dependencies = (w.tracer t).dependencies
  running : t.index < w.tracers.size
  running' : t'.index < w'.tracers.size

namespace Tandem
variable {a a' w w' w₁ w₁' : World} {s s' : Scope} {t t' : TracerRef} {v v' x : Value}
  {name : String} {o : ObjectId} {h : Handle}
variable (set : Setting a a' s s' t t') (tandem : Tandem a a' s s' t t' w w')

include tandem in
/-- A value that ends before the containers are used up in either world is looked into to the
bottom. -/
theorem sameDepth (paired : v.Paired (a.Both a') v')
    (shallow : w.Shallow (w.containers - (a.containers - a'.containers)) v) :
    w.SameDepth w' v v' := by
  have lists := tandem.lists
  have maps := tandem.maps
  refine .inr ⟨shallow.mono (Nat.sub_le ..), (tandem.looks.shallow paired shallow).mono ?_⟩
  simp only [World.containers]
  omega

include tandem in
/-- Questions about values get the same answers. -/
theorem answer {q q' : Query α} (values : q.OfValues (a.grounds a' s) q')
    (shallow : ∀ v ∈ (Request.query q).lookedInto,
      w.Shallow (w.containers - (a.containers - a'.containers)) v) :
    q'.answer w' = q.answer w := by
  have looks := tandem.looks
  have deep {v v' : Value} (hand : v.Paired (a.Both a') v')
      (only : (Request.query q).lookedInto = [v]) : w.SameDepth w' v v' :=
    tandem.sameDepth hand (shallow v (only ▸ List.mem_cons_self))
  cases values with
  | typeName hand => exact looks.typeNameOf hand
  | isTrue hand => exact looks.isTrue hand
  | equal left right => exact looks.equal (deep left rfl) left right
  | text hand => exact looks.text (deep hand rfl) hand
  | snapshot hand => exact looks.snapshot (deep hand rfl) hand
  | nativeName hand => exact looks.nativeName hand
  | describe hand => exact looks.describe hand

include set tandem in
theorem akin (hand : a.Both a' (.object o) (.object o)) : Akin (w.entity? o) (w'.entity? o) := by
  rw [tandem.left.entity?, tandem.right.entity?]
  exact set.peers.object hand.object.1 hand.object.2

include set tandem in
theorem plain (hand : a.Both a' (.object o) (.object o)) : w.Plain o ∧ w'.Plain o := by
  have plain : w.Plain o := by
    intro p u
    rw [tandem.left.entity?]
    exact set.plain hand.object.1 p u
  exact ⟨plain, plain.akin (tandem.akin set hand)⟩

include set tandem in
theorem natives {f : NativeRef} {n : Native} (hand : a.Both a' (.native f) (.native f))
    (known : a.natives[f.index]? = some n) :
    w.natives[f.index]? = some n ∧ w'.natives[f.index]? = some n := by
  rw [tandem.left.natives, tandem.right.natives, set.peers.native hand.native.1 hand.native.2]
  exact ⟨known, known⟩

/-! ### Steps -/

include tandem

theorem hold {l l' : List Handle} (hand : ∀ h ∈ l, a.InHand h) (hand' : ∀ h ∈ l', a'.InHand h) :
    Tandem a a' s s' t t' {w with held := l ++ w.held} {w' with held := l' ++ w'.held} :=
  { tandem with
    left := tandem.left.hold hand
    right := tandem.right.hold hand'
    looks := {tandem.looks with} }

theorem holding {l l' : List Handle} (each : List.Forall₂ (a.Both a') l l') :
    Tandem a a' s s' t t' {w with held := l ++ w.held} {w' with held := l' ++ w'.held} :=
  tandem.hold (World.Both.inHand each).1 (World.Both.inHand each).2

theorem release (inner : Tandem a a' s s' t t' w₁ w₁') :
    Tandem a a' s s' t t' {w₁ with held := w.held} {w₁' with held := w'.held} :=
  { inner with
    left := tandem.left.release inner.left
    right := tandem.right.release inner.right
    looks := {inner.looks with} }

/-- A new list of the one world stands for that of the other. -/
theorem newList {xs xs' : List Value} (hand : List.Forall₂ (Value.Paired (a.Both a')) xs xs') :
    Tandem a a' s s' t t' (w.addList xs).1 (w'.addList xs').1 ∧
      (Value.list ⟨w.lists.size⟩).Paired (a.Both a') (.list ⟨w'.lists.size⟩) := by
  have sizes := tandem.lists
  have new : a.Both a' (.list ⟨w.lists.size⟩) (.list ⟨w'.lists.size⟩) := by
    obtain ⟨k, more⟩ := Nat.exists_eq_add_of_le (World.Endures.size_le tandem.left.lists)
    have more' : w'.lists.size = a'.lists.size + k := by omega
    rw [more, more']
    exact .list k
  have items (w : World) (xs : List Value) (r : ListRef) : (w.addList xs).1.items r =
      if r = ⟨w.lists.size⟩ then xs else w.items r := by
    obtain ⟨i⟩ := r
    simp only [World.items, World.addList, Array.getElem?_push, ListRef.mk.injEq]
    split <;> rfl
  obtain ⟨left, right⟩ := World.Both.inHand (forall₂_handles hand)
  refine ⟨{ tandem with
    left := tandem.left.addList left
    right := tandem.right.addList right
    lists := ?_
    looks := { tandem.looks with
      items := fun {r r'} both => ?_ } }, .list new⟩
  · rw [items, items]
    by_cases same : r = ⟨w.lists.size⟩
    · rw [if_pos same, if_pos ((tandem.looks.list both new).2 same)]
      exact hand
    · rw [if_neg same, if_neg (mt (tandem.looks.list both new).1 same)]
      exact tandem.looks.items both
  · simp only [World.addList, Array.size_push]
    omega

theorem newMap {d d' : Dict String Value} (hand : d.Rel (Value.Paired (a.Both a')) d') :
    Tandem a a' s s' t t' (w.addMap d).1 (w'.addMap d').1 ∧
      (Value.map ⟨w.maps.size⟩).Paired (a.Both a') (.map ⟨w'.maps.size⟩) := by
  have sizes := tandem.maps
  have new : a.Both a' (.map ⟨w.maps.size⟩) (.map ⟨w'.maps.size⟩) := by
    obtain ⟨k, more⟩ := Nat.exists_eq_add_of_le (World.Endures.size_le tandem.left.maps)
    have more' : w'.maps.size = a'.maps.size + k := by omega
    rw [more, more']
    exact .map k
  have entries (w : World) (d : Dict String Value) (r : MapRef) : (w.addMap d).1.entries r =
      if r = ⟨w.maps.size⟩ then d else w.entries r := by
    obtain ⟨i⟩ := r
    simp only [World.entries, World.addMap, Array.getElem?_push, MapRef.mk.injEq]
    split <;> rfl
  obtain ⟨left, right⟩ := World.Both.inHand hand.handles
  refine ⟨{ tandem with
    left := tandem.left.addMap left
    right := tandem.right.addMap right
    maps := ?_
    looks := { tandem.looks with
      entries := fun {r r'} both => ?_ } }, .map new⟩
  · rw [entries, entries]
    by_cases same : r = ⟨w.maps.size⟩
    · rw [if_pos same, if_pos ((tandem.looks.map both new).2 same)]
      exact hand
    · rw [if_neg same, if_neg (mt (tandem.looks.map both new).1 same)]
      exact tandem.looks.entries both
  · simp only [World.addMap, Array.size_push]
    omega

include set in
theorem record (hand : a.Both a' (.object o) (.object o)) (name : String) :
    Tandem a a' s s' t t' (w.modifyTracer t (·.record ⟨o, name⟩))
      (w'.modifyTracer t' (·.record ⟨o, name⟩)) :=
  { tandem with
    left := tandem.left.record set.new hand.left name
    right := tandem.right.record set.new' hand.right name
    looks := {tandem.looks with}
    recorded := by
      rw [World.tracer_modifyTracer, World.tracer_modifyTracer, if_pos ⟨rfl, tandem.running'⟩,
        if_pos ⟨rfl, tandem.running⟩, Tracer.dependencies_record_eq, Tracer.dependencies_record_eq,
        tandem.recorded]
    running := Nat.lt_of_lt_of_eq tandem.running Array.size_modify.symm
    running' := Nat.lt_of_lt_of_eq tandem.running' Array.size_modify.symm }

/-! ### Reads -/

theorem valueOf? (same : a.Same a' ⟨o, name⟩) : w'.valueOf? ⟨o, name⟩ = w.valueOf? ⟨o, name⟩ := by
  rw [tandem.left.valueOf?, tandem.right.valueOf?, same.value]

include set

/-- Reading an attribute that is the same in both states gives the same in both evaluations. -/
theorem getAttr (hand : v.Paired (a.Both a') v')
    (same : ∀ o, v = .object o → a.Same a' ⟨o, name⟩) (self : Performer) :
    getAttr self v name w = some (w.attr v name, w) ∧
      getAttr self v' name w' = some (w.attr v name, w') := by
  cases hand with
  | list | map => exact ⟨rfl, rfl⟩
  | atom _ hand =>
    have mine (o : ObjectId) (is : v = .object o) : a.Both a' (.object o) (.object o) :=
      hand _ (is ▸ List.mem_cons_self)
    constructor
    · refine World.getAttr_attr (fun o is => ⟨?_, (tandem.plain set (mine o is)).1⟩) self
      exact tandem.left.filled (same o is).filled
    · have attr : w'.attr v name = w.attr v name := World.attr_akin
        (fun o is => tandem.akin set (mine o is)) fun o is => tandem.valueOf? (same o is)
      rw [← attr]
      refine World.getAttr_attr (fun o is => ⟨?_, (tandem.plain set (mine o is)).2⟩) self
      exact tandem.right.filled (same o is).filled'

theorem glance_eq (hand : a.Both a' (.object o) (.object o)) (same : a.Same a' ⟨o, name⟩) :
    w'.glance ⟨o, name⟩ = w.glance ⟨o, name⟩ :=
  World.glance_akin (tandem.akin set hand) (tandem.valueOf? same)

theorem glance (hand : a.Both a' (.object o) (.object o)) (same : a.Same a' ⟨o, name⟩)
    (shows : w.glance ⟨o, name⟩ = some x) : x.Paired (a.Both a') x := by
  refine .refl fun h mem => ?_
  have live {b u : World} (endures : b.Endures u) (here : b.isLive (.object o) = true)
      (shows : u.glance ⟨o, name⟩ = some x) : b.isLive h = true := by
    have glance : b.glance ⟨o, name⟩ = some x := by
      rw [← shows]
      simp only [World.glance, World.valuation, endures.entity?, endures.valueOf?]
    exact World.isLive_of_glance here glance mem
  refine .live (live tandem.left hand.object.1 shows) (live tandem.right hand.object.2 ?_)
  rw [tandem.glance_eq set hand same, shows]

theorem attr (hand : v.Paired (a.Both a') v') (same : ∀ o, v = .object o → a.Same a' ⟨o, name⟩)
    (shows : w.attr v name = .ok x) : x.Paired (a.Both a') x := by
  cases v with
  | object o =>
    simp only [World.attr] at shows
    split at shows
    · next y found =>
      cases shows
      cases hand with
      | atom _ hand => exact tandem.glance set (hand _ List.mem_cons_self) (same o rfl) found
    · cases shows
  | _ => cases shows

/-- What is loaded is recorded, so it is the same in both states. -/
theorem loadAttr {less n : Nat} (hand : v.Paired (a.Both a') v')
    (run : loadAttr (performSparing t less n) t v name w = some (.ok x, w₁))
    (kept : w.retains w₁ t = true)
    (same : ∀ d ∈ (w₁.tracer t).dependencies, a.Same a' d) :
    ∃ w₁', LiveBinding.loadAttr (perform n) t' v' name w' = some (.ok x, w₁') ∧
      Tandem a a' s s' t t' w₁ w₁' ∧ x.Paired (a.Both a') x := by
  obtain ⟨running, _⟩ := (World.retains_iff tandem.running).1 kept
  obtain ⟨mine, mine'⟩ := World.Both.inHand hand.handles
  have inner := tandem.hold (List.forall_mem_cons.2 ⟨.inl set.new, mine⟩)
    (List.forall_mem_cons.2 ⟨.inl set.new', mine'⟩)
  rcases Action.exists_of_bind run with ⟨e, _, fails⟩ | ⟨y, u, first, rest⟩
  · cases fails
  obtain ⟨u₁, get, rfl⟩ := Action.exists_of_holding first
  cases v with
  | object o =>
    cases rest
    have recorded : a.Same a' ⟨o, name⟩ := same _
      ((World.mem_dependencies_record (Nat.lt_of_lt_of_eq running Array.size_modify) _ _).2
        (.inr rfl))
    have alike (p : ObjectId) (is : Value.object o = .object p) : a.Same a' ⟨p, name⟩ := by
      cases is
      exact recorded
    obtain ⟨get₁, _⟩ := inner.getAttr set hand alike (performSparing t less n)
    obtain ⟨_, get₂⟩ := inner.getAttr set hand alike (perform n)
    obtain ⟨shows, rfl⟩ := Prod.mk.inj (Option.some.inj (get₁.symm.trans get))
    have shown := inner.attr set hand alike shows
    cases hand with
    | atom _ hand =>
      refine ⟨w'.modifyTracer t' (·.record ⟨o, name⟩), ?_,
        tandem.record set (hand _ List.mem_cons_self) name, shown⟩
      rw [shows] at get₂
      unfold LiveBinding.loadAttr
      rw [Action.bind_apply, Action.holding, Action.within_apply, get₂]
      rfl
  | _ => cases get

/-- `getattr` reads the attribute at once. -/
theorem getattr {less n : Nat} {spare spare' : Option Value} (hand : v.Paired (a.Both a') v')
    (fallback : Option.Rel (Value.Paired (a.Both a')) spare spare')
    (same : ∀ o, v = .object o → a.Same a' ⟨o, name⟩)
    (run : (Builtin.getattr (v :: .str name :: spare.toList)).run (performSparing t less n) w =
      some (.ok x, w₁)) :
    w₁ = w ∧ ∃ x', (Builtin.getattr (v' :: .str name :: spare'.toList)).run (perform n) w' =
        some (.ok x', w') ∧ x.Paired (a.Both a') x' := by
  rw [Network.run_getattr] at run ⊢
  rcases Action.exists_of_bind run with ⟨e, _, fails⟩ | ⟨r, u, asked, rest⟩
  · cases fails
  obtain ⟨_, answer, ⟨⟩⟩ := Action.exists_of_attempt asked
  obtain ⟨m, rfl, answer, _⟩ := exists_of_sparing answer
  obtain ⟨get, _⟩ := tandem.getAttr set hand same (performSparing t less m)
  obtain ⟨_, get'⟩ := tandem.getAttr set hand same (perform m)
  obtain ⟨rfl, rfl⟩ := Prod.mk.inj (Option.some.inj (get.symm.trans answer))
  have answer' : perform (m + 1) Value (.getAttr v' name) w' = some (w.attr v name, w') := get'
  rw [Action.bind_apply, Action.attempt_apply, answer']
  dsimp only at rest ⊢
  cases shows : w.attr v name with
  | ok y =>
    rw [shows] at rest
    cases rest
    exact ⟨rfl, x, rfl, tandem.attr set hand same shows⟩
  | error e =>
    rw [shows] at rest
    cases e with
    | access cause =>
      cases fallback with
      | some paired =>
        cases rest
        exact ⟨rfl, _, rfl, paired⟩
      | none => cases rest
    | _ => cases rest

omit set tandem in
/-- A traced `getattr` that answers records what it has read. -/
theorem callTraced_getattr {self : Performer} {fallback : Option Value}
    (called : Action.holding [.tracer t] (callValue self (.native getattrRef)
      (v :: .str name :: fallback.toList)) w = some (.ok x, w₁))
    (there : w₁.nativeName getattrRef = getattrName) :
    LiveBinding.callTraced self t (.native getattrRef) (v :: .str name :: fallback.toList) w =
      some (.ok x, (v.place? name).elim w₁ fun d => w₁.modifyTracer t (·.record d)) := by
  unfold LiveBinding.callTraced
  rw [Action.bind_apply, called]
  cases v with
  | object o =>
    show (if w₁.nativeName getattrRef = getattrName then
      (do LiveBinding.record t o name; pure x) else pure x : Action Value) w₁ = _
    rw [if_pos there]
    rfl
  | _ => rfl

/-- What a traced `getattr` reads is recorded, so it is the same in both states. -/
theorem callTraced {less n : Nat} {spare spare' : Option Value}
    (known : a.natives[getattrRef.index]? = some ⟨getattrName, [], Builtin.getattr⟩)
    (own : a.Both a' (.native getattrRef) (.native getattrRef)) (hand : v.Paired (a.Both a') v')
    (fallback : Option.Rel (Value.Paired (a.Both a')) spare spare')
    (run : callTraced (performSparing t less n) t (.native getattrRef)
      (v :: .str name :: spare.toList) w = some (.ok x, w₁))
    (kept : w.retains w₁ t = true)
    (same : ∀ d ∈ (w₁.tracer t).dependencies, a.Same a' d) :
    ∃ x' w₁', LiveBinding.callTraced (perform n) t' (.native getattrRef)
        (v' :: .str name :: spare'.toList) w' = some (.ok x', w₁') ∧
      Tandem a a' s s' t t' w₁ w₁' ∧ x.Paired (a.Both a') x' := by
  obtain ⟨running, _⟩ := (World.retains_iff tandem.running).1 kept
  let args := v :: .str name :: spare.toList
  let args' := v' :: .str name :: spare'.toList
  have handed : List.Forall₂ (a.Both a') (.native getattrRef :: args.flatMap Value.handles)
      (.native getattrRef :: args'.flatMap Value.handles) := by
    have rest : List.Forall₂ (Value.Paired (a.Both a')) spare.toList spare'.toList := by
      cases fallback with
      | some paired => exact .cons paired .nil
      | none => exact .nil
    exact .cons own (forall₂_handles (.cons hand (.cons (.atom rfl nofun) rest)))
  have inner := (tandem.hold (List.forall_mem_singleton.2 (.inl set.new))
    (List.forall_mem_singleton.2 (.inl set.new'))).holding handed
  obtain ⟨code, code'⟩ := tandem.natives set own known
  rcases Action.exists_of_bind run with ⟨e, _, fails⟩ | ⟨y, u, first, _⟩
  · cases fails
  obtain ⟨u₁, called, is⟩ := Action.exists_of_holding first
  obtain ⟨u₂, native, rfl⟩ := Action.exists_of_holding called
  unfold runNative at native
  dsimp only at native
  rw [code] at native
  have there : u.nativeName getattrRef = getattrName := by
    rw [is, World.nativeName, natives_of_run native code]
  obtain ⟨⟨⟩, rfl⟩ :=
    Prod.mk.inj (Option.some.inj ((callTraced_getattr first there).symm.trans run))
  have alike (o : ObjectId) (object : v = .object o) : a.Same a' ⟨o, name⟩ := by
    subst object
    refine same _ ((World.mem_dependencies_record ?_ _ _).2 (.inr rfl))
    exact Nat.lt_of_lt_of_eq running Array.size_modify
  obtain ⟨rfl, x', native', shows⟩ := inner.getattr set hand fallback alike native
  have called' : Action.holding [.tracer t'] (callValue (perform n) (.native getattrRef) args') w' =
      some (.ok x', w') := by
    unfold callValue Action.holding
    dsimp only
    rw [Action.within_apply, Action.within_apply]
    unfold runNative
    rw [code']
    dsimp only
    rw [native']
  subst is
  refine ⟨x', _, callTraced_getattr called' ?_, ?_, shows⟩
  · rw [World.nativeName, code']
  · cases hand with
    | list | map => exact tandem
    | atom _ hand =>
      cases v with
      | object o => exact tandem.record set (hand _ List.mem_cons_self) name
      | _ => exact tandem

omit set tandem in
/-- Behind the locals a name means what outer places say. -/
theorem getName_outer {self : Performer} (plain : isReserved name = false)
    (unset : (w.layer s.locals).get? name = none) :
    getName self s name w = outerName self s name w := by
  have reserved : Reserved.ofName? name = none := by
    simpa [isReserved] using plain
  simp only [getName, reserved, Action.pure_bind, Action.read_bind, unset]

omit set tandem in
theorem getName_local {self : Performer} (plain : isReserved name = false)
    (found : (w.layer s.locals).get? name = some x) :
    getName self s name w = some (.ok x, w) := by
  have reserved : Reserved.ofName? name = none := by
    simpa [isReserved] using plain
  simp only [getName, reserved, Action.pure_bind, Action.read_bind, found]
  rfl

omit set tandem in
/-- A name that no object of the chain has is looked up in the environment. -/
theorem outerName_missing {self : Performer} (near : w.nearest? s.owner name = none) :
    outerName self s name w = some (s.environment.outer name, w) := by
  have missed : loadName self s.owner name s.tracer w = some (.ok none, w) := by
    simp only [loadName, Action.read_bind, near]
    rfl
  show (loadName self s.owner name s.tracer >>= _) w = _
  rw [Action.bind_apply, missed]
  unfold Environment.outer
  cases s.environment.globals.get? name with
  | some v => rfl
  | none => cases s.environment.builtins.get? name <;> rfl

omit set tandem in
/-- A name that an object of the chain has is read there. -/
theorem loadName_found {self : Performer} (near : w.nearest? s.owner name = some o)
    (tracer : s.tracer = some t) :
    loadName self s.owner name s.tracer w = (self _ (.readAttr o name) >>= fun v => do
      match v, some t with
      | some _, some t => Action.update (·.modifyTracer t (·.record ⟨o, name⟩))
      | _, _ => pure ()
      return v) w := by
  unfold loadName
  rw [Action.read_bind, tracer]
  exact near ▸ rfl

omit set tandem in
/-- What is read there is recorded. -/
theorem outerName_found {self : Performer} (near : w.nearest? s.owner name = some o)
    (tracer : s.tracer = some t) (answer : self _ (.readAttr o name) w = some (.ok (some x), w₁)) :
    outerName self s name w = some (.ok x, w₁.modifyTracer t (·.record ⟨o, name⟩)) := by
  show (loadName self s.owner name s.tracer >>= _) w = _
  rw [Action.bind_apply, loadName_found near tracer, Action.bind_apply, answer]
  rfl

omit set tandem in
theorem exists_of_outerName {self : Performer} (near : w.nearest? s.owner name = some o)
    (tracer : s.tracer = some t) (run : outerName self s name w = some (.ok x, w₁)) :
    ∃ r u, self _ (.readAttr o name) w = some (.ok r, u) ∧
      (r ≠ none → r = some x ∧ w₁ = u.modifyTracer t (·.record ⟨o, name⟩)) := by
  rcases Action.exists_of_bind run with ⟨e, _, fails⟩ | ⟨_, _, load, rest⟩
  · cases fails
  rw [loadName_found near tracer] at load
  rcases Action.exists_of_bind load with ⟨e, _, fails⟩ | ⟨r, u, answer, ends⟩
  · cases fails
  refine ⟨r, u, answer, fun some => ?_⟩
  cases r with
  | none => exact absurd rfl some
  | some y =>
    cases ends
    cases rest
    exact ⟨rfl, rfl⟩

/-- What a name means is recorded if it is an attribute, so it is the same in both states. -/
theorem getName {less n : Nat} (plain : isReserved name = false)
    (run : getName (performSparing t less n) s name w = some (.ok x, w₁))
    (kept : w.retains w₁ t = true)
    (same : ∀ d ∈ (w₁.tracer t).dependencies, a.Same a' d) :
    ∃ w₁', LiveBinding.getName (perform n) s' name w' = some (.ok x, w₁') ∧
      Tandem a a' s s' t t' w₁ w₁' ∧ x.Paired (a.Both a') x ∧ ∀ y, a.Outside s name y → x = y := by
  cases found : (a.layer s.locals).get? name with
  | some y =>
    have found' : (a'.layer s'.locals).get? name = some y := by
      rw [set.locals]
      exact found
    rw [← tandem.locals] at found
    rw [← tandem.locals'] at found'
    rw [getName_local plain found] at run
    cases run
    have inner := found
    rw [tandem.locals] at inner
    refine ⟨w', getName_local plain found', tandem, set.named inner, fun y outside => ?_⟩
    rw [outside.1] at inner
    cases inner
  | none =>
    have found' : (a'.layer s'.locals).get? name = none := by
      rw [set.locals]
      exact found
    rw [← tandem.locals] at found
    rw [← tandem.locals'] at found'
    rw [getName_outer plain found] at run
    simp only [getName_outer plain found']
    have places : w'.nearest? s'.owner name = w.nearest? s.owner name := by
      rw [set.owner, tandem.left.samePlaces.nearest?, tandem.right.samePlaces.nearest?]
      exact set.peers.nearest? set.plain set.here set.here' name
    cases near : w.nearest? s.owner name with
    | none =>
      have near' : w'.nearest? s'.owner name = none := places.trans near
      rw [outerName_missing near] at run
      obtain ⟨outer, rfl⟩ := Prod.mk.inj (Option.some.inj run)
      refine ⟨w', ?_, tandem, set.outer outer, fun y outside => ?_⟩
      · rw [outerName_missing near', set.environment, outer]
      · exact Except.ok.inj (outer.symm.trans outside.2.2)
    | some o =>
      have near' : w'.nearest? s'.owner name = some o := places.trans near
      have present (p : ObjectId) : w.isLive (.object p) = a.isLive (.object p) :=
        tandem.left.isLive nofun
      have present' (p : ObjectId) : w'.isLive (.object p) = a'.isLive (.object p) :=
        tandem.right.isLive nofun
      have live : a.isLive (.object o) = true := by
        rw [← present]
        exact World.isLive_of_nearest? ((present _).trans set.here) near
      have live' : a'.isLive (.object o) = true := by
        rw [← present']
        refine World.isLive_of_nearest? ?_ near'
        rw [set.owner, present', set.here']
      have hand : a.Both a' (.object o) (.object o) := .live live live'
      obtain ⟨quiet, quiet'⟩ := tandem.plain set hand
      obtain ⟨r, u, answer, ends⟩ := exists_of_outerName near set.tracer run
      obtain ⟨m, rfl, answer, _⟩ := exists_of_sparing answer
      obtain ⟨rfl, rfl⟩ := ends fun none => World.readAttr_ne_none
        (World.glance_of_nearest? near quiet) (none ▸ answer)
      obtain ⟨running, _⟩ := (World.retains_iff tandem.running).1 kept
      have recorded : a.Same a' ⟨o, name⟩ := same _
        ((World.mem_dependencies_record (Nat.lt_of_lt_of_eq running Array.size_modify) _ _).2
          (.inr rfl))
      have read := World.readAttr_glance (fun _ => tandem.left.filled recorded.filled) quiet
        (performSparing t less m)
      have read' := World.readAttr_glance (fun _ => tandem.right.filled recorded.filled') quiet'
        (perform m)
      obtain ⟨shows, rfl⟩ := Prod.mk.inj (Option.some.inj (read.symm.trans answer))
      have shows : w.glance ⟨o, name⟩ = some x := Except.ok.inj shows
      rw [tandem.glance_eq set hand recorded, shows] at read'
      have answer' : perform (m + 1) (Option Value) (.readAttr o name) w' =
        some (.ok (some x), w') :=
        read'
      refine ⟨_, outerName_found near' set.tracer' answer',
        tandem.record set hand name, tandem.glance set hand recorded shows, fun y outside => ?_⟩
      rw [tandem.left.samePlaces.nearest?, outside.2.1] at near
      cases near

end Tandem

end LiveBinding
