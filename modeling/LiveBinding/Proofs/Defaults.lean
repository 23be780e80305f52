import LiveBinding.Builtin
import LiveBinding.Proofs.Layers
import LiveBinding.Proofs.Obstacles
import LiveBinding.Proofs.Reads

/-! Reading an attribute with a default.

`getattr` with a third argument answers with it where a read is refused. A read is refused of a
value that has no such attribute, and this is what `hasattr` tells beforehand. But a read may also
evaluate a binding, and what the binding does may be refused too. Here the two are told apart: the
call with a default is the call without, except that a refusal of either kind is replaced. -/
namespace LiveBinding

namespace World
variable {w w' : World} {o : ObjectId} {name : String} {hs : List Handle}

/-! ### Holding on to what is in hand -/

/-- Nothing comes back by being held, if it is there already or is a function that keeps nothing. -/
theorem isLive_hold_eq
    (near : ∀ h ∈ hs, w.isLive h = true ∨ (∃ f, h = .native f) ∧ w.holds h = []) (o : ObjectId) :
    (w.hold hs).isLive (.object o) = w.isLive (.object o) := by
  have back {h : Handle} (gone : w.Dropped h) (other : ¬((∃ f, h = .native f) ∧ w.holds h = [])) :
      (w.hold hs).Dropped h := by
    induction gone with
    | @intro h outside inside ih =>
      refine .intro (fun root => ?_) fun g held => ih g held fun inert => ?_
      · rcases List.mem_append.1 root with kept | held
        · exact outside (List.mem_append_left _ kept)
        · rcases List.mem_append.1 held with new | before
          · exact (near h new).elim (fun live => isLive_iff.1 live (.intro outside inside)) other
          · exact outside (List.mem_append_right _ before)
      · have mem : h ∈ w.holds g := held.2
        rw [inert.2] at mem
        cases mem
  rw [Bool.eq_iff_iff]
  refine ⟨fun live => isLive_iff.2 fun gone => isLive_iff.1 live (back gone ?_), isLive_hold hs⟩
  rintro ⟨⟨_, same⟩, _⟩
  cases same

theorem samePlaces_hold
    (near : ∀ h ∈ hs, w.isLive h = true ∨ (∃ f, h = .native f) ∧ w.holds h = []) :
    w.SamePlaces (w.hold hs) where
  object o := .same _
  parent o := by
    unfold parent?
    exact congrArg (Option.filter · _) (funext fun p => isLive_hold_eq near p)

/-- A name that is no attribute is looked up without any consequences, whatever the object is. -/
theorem Descends.readAttr_of_missing (descends : w.Descends) (live : w.isLive (.object o) = true)
    (lacks : w.hasAttribute o name = false) (self : Performer) :
    readAttr self o name w = some (.ok none, w) := by
  rw [descends.hasAttribute_eq] at lacks
  rcases entity : w.entity? o with _ | d | c | ⟨p, t⟩
  · unfold readAttr
    rw [Action.read_bind, entity]
    rfl
  · rw [entity] at lacks
    exact World.readAttr_of_missing (w.declared?_eq_some.2 entity) lacks
  · rw [entity] at lacks
    unfold readAttr
    rw [Action.read_bind, entity]
    have nothing : c.attribute? name = none := by simpa using lacks
    dsimp only
    rw [nothing]
    rfl
  · rw [entity] at lacks
    have nowhere : (w.hold [.object o]).nearest? p name = none := by
      rw [(samePlaces_hold fun h mem => .inl (List.mem_singleton.1 mem ▸ live)).nearest?]
      simpa using lacks
    have found : loadName self p name t (w.hold [.object o]) =
        some (.ok none, w.hold [.object o]) := by
      unfold loadName
      rw [Action.read_bind, nowhere]
      rfl
    unfold readAttr
    rw [Action.read_bind, entity]
    exact (Action.holding_of_eq found).trans rfl

end World

/-! ### Bindings that fail -/

/-- An attribute that is there is read, and the binding that is evaluated for it fails: it has no
value yet, and the object has a read handler for it. -/
inductive Lapses : Nat → ObjectId → String → World → BindError → Prop where
  | here {n : Nat} {o : ObjectId} {d : Declared} {name : String} {w : World} {g : EngineRef}
      {e : BindError} (known : w.declared? o = some d) (unset : d.values.get? name = none)
      (has : d.hasAttribute name = true) (engine : d.engine = some g)
      (reader : (w.engine g).hasReader name = true)
      (fails : Fails (Engine.update (perform n) g o name) (w.hold [.object o]) e) :
      Lapses n o name w e
  /-- A view passes the read on. -/
  | view {n : Nat} {o p q : ObjectId} {t : Option TracerRef} {name : String} {w : World}
      {e : BindError} (entity : w.entity? o = some (.view p t))
      (nearest : (w.hold [.object o]).nearest? p name = some q)
      (lapses : Lapses n q name (w.hold [.object o]) e) : Lapses (n + 1) o name w e

section
variable {n : Nat} {w : World} {o : ObjectId} {d : Declared} {name : String} {e : BindError}

theorem fails_readDeclared {self : Performer} :
    Fails (readDeclared self o d name) w e ↔ d.values.get? name = none ∧
      d.hasAttribute name = true ∧ ∃ g, d.engine = some g ∧ (w.engine g).hasReader name = true ∧
        Fails (Engine.update self g o name) w e := by
  -- once the binding has been evaluated nothing can fail any more
  have settled (u : World) : ¬Fails
      (Action.read (·.stored? o name) >>= fun v => pure (some (v.getD .null))) u e := by
    rw [Fails.read_bind]
    exact Fails.pure _
  unfold readDeclared
  cases unset : d.values.get? name with
  | some v => simp
  | none =>
    cases has : d.hasAttribute name with
    | false => simp
    | true =>
      cases engine : d.engine with
      | none =>
        refine iff_of_false (settled w) ?_
        rintro ⟨_, _, _, same, _⟩
        cases same
      | some g =>
        show Fails (Action.read _ >>= _) w e ↔ _
        rw [Fails.read_bind]
        cases reader : (w.engine g).hasReader name with
        | false =>
          refine iff_of_false (settled w) ?_
          rintro ⟨_, _, _, same, reads, _⟩
          cases same
          rw [reader] at reads
          cases reads
        | true =>
          rw [if_pos rfl, Fails.bind]
          constructor
          · rintro (fails | ⟨_, u, _, fails⟩)
            · exact ⟨rfl, rfl, g, rfl, reader, fails⟩
            · exact absurd fails (settled u)
          · rintro ⟨_, _, _, same, _, fails⟩
            cases same
            exact .inl fails

/-- The nearest attribute of an owner chain is read, and nothing can fail afterwards. -/
theorem fails_loadName {self : Performer} {t : Option TracerRef} :
    Fails (loadName self o name t) w e ↔
      ∃ q, w.nearest? o name = some q ∧ Fails (self _ (.readAttr q name)) w e := by
  unfold loadName
  rw [Fails.read_bind]
  cases nearest : w.nearest? o name with
  | none => simp
  | some q =>
    dsimp only
    rw [Fails.bind]
    constructor
    · rintro (fails | ⟨v, u, _, fails⟩)
      · exact ⟨q, rfl, fails⟩
      · rcases v with _ | v <;> cases t <;> obtain ⟨_, run⟩ := fails <;> cases run
    · rintro ⟨_, same, fails⟩
      cases same
      exact .inl fails

theorem lapses_declared (entity : w.entity? o = some (.declared d)) :
    Lapses n o name w e ↔ d.values.get? name = none ∧ d.hasAttribute name = true ∧
      ∃ g, d.engine = some g ∧ (w.engine g).hasReader name = true ∧
        Fails (Engine.update (perform n) g o name) (w.hold [.object o]) e := by
  have known := w.declared?_eq_some.2 entity
  constructor
  · intro lapses
    cases lapses with
    | here known' unset has engine reader fails =>
      cases known.symm.trans known'
      exact ⟨unset, has, _, engine, reader, fails⟩
    | view entity' => cases entity.symm.trans entity'
  · rintro ⟨unset, has, g, engine, reader, fails⟩
    exact .here known unset has engine reader fails

theorem lapses_view {p : ObjectId} {t : Option TracerRef}
    (entity : w.entity? o = some (.view p t)) :
    Lapses n o name w e ↔ ∃ m q, n = m + 1 ∧ (w.hold [.object o]).nearest? p name = some q ∧
      Lapses m q name (w.hold [.object o]) e := by
  constructor
  · intro lapses
    cases lapses with
    | here known => cases entity.symm.trans (w.declared?_eq_some.1 known)
    | view entity' nearest lapses =>
      cases entity.symm.trans entity'
      exact ⟨_, _, rfl, nearest, lapses⟩
  · rintro ⟨m, q, rfl, nearest, lapses⟩
    exact .view entity nearest lapses

/-- Only objects with bindings, and views of them, have anything to evaluate. -/
theorem Lapses.entity (lapses : Lapses n o name w e) :
    (∃ d, w.entity? o = some (.declared d)) ∨ ∃ p t, w.entity? o = some (.view p t) := by
  cases lapses with
  | here known => exact .inl ⟨_, w.declared?_eq_some.1 known⟩
  | view entity => exact .inr ⟨_, _, entity⟩

/-- Reading an attribute of an object fails exactly if a binding that is evaluated for it does. -/
theorem fails_readAttr : Fails (readAttr (perform n) o name) w e ↔ Lapses n o name w e := by
  induction n using Nat.strong_induction_on generalizing o w with
  | _ n ih =>
    unfold readAttr
    rw [Fails.read_bind]
    rcases entity : w.entity? o with _ | d | c | ⟨p, t⟩
    · refine iff_of_false (Fails.pure none) fun lapses => ?_
      have other := lapses.entity
      simp [entity] at other
    · dsimp only
      rw [Fails.holding, fails_readDeclared]
      exact (lapses_declared entity).symm
    · refine iff_of_false (Fails.pure _) fun lapses => ?_
      have other := lapses.entity
      simp [entity] at other
    · dsimp only
      rw [Fails.holding, fails_loadName, lapses_view entity]
      constructor
      · rintro ⟨q, nearest, fails⟩
        cases n with
        | zero =>
          obtain ⟨_, run⟩ := fails
          cases run
        | succ n => exact ⟨n, q, rfl, nearest, (ih n (Nat.lt_succ_self n)).1 fails⟩
      · rintro ⟨m, q, rfl, nearest, lapses⟩
        exact ⟨q, nearest, (ih m (Nat.lt_succ_self m)).2 lapses⟩

/-- Reading an attribute of an object that has none of that name is refused, and that is all. -/
theorem getAttr_of_missing (descends : w.Descends) (live : w.isLive (.object o) = true)
    (lacks : w.hasAttribute o name = false) (self : Performer) :
    getAttr self (.object o) name w = some (.error (.noSuchAttribute (w.typeName o) name), w) := by
  unfold getAttr
  dsimp only
  rw [Action.bind_apply, descends.readAttr_of_missing live lacks]
  rfl

/-- Reading an attribute that is there fails as its binding does. -/
theorem fails_getAttr (descends : w.Descends) (has : w.hasAttribute o name = true) :
    Fails (getAttr (perform n) (.object o) name) w e ↔ Lapses n o name w e := by
  unfold getAttr
  dsimp only
  rw [Fails.bind, fails_readAttr]
  refine or_iff_left ?_
  rintro ⟨v, u, run, fails⟩
  cases v with
  | none => exact descends.readAttr_ne_none has n run
  | some v => exact Fails.pure v fails

end

/-! ### Calls -/

/-- Gives a value where an access is refused. Whatever has happened by then remains. -/
def Action.orDefault (d : Value) (a : Action Value) : Action Value := fun w =>
  match a w with
  | some (.error (.access _), w') => some (.ok d, w')
  | r => r

theorem Action.orDefault_of_access {a : Action Value} {w u : World} {c : AccessError} (d : Value)
    (run : a w = some (.error (.access c), u)) : a.orDefault d w = some (.ok d, u) := by
  rw [orDefault, run]

/-- A call of a native function while somebody holds on to a value. -/
def callBeside (n : Nat) (d : Value) (f : NativeRef) (args : List Value) : Action Value :=
  Action.holding d.handles (perform n Value (.call (.native f) args))

namespace Builtin
variable {w : World} {f g : NativeRef} {v d : Value} {name : String}

theorem run_getattr_plain (self : Performer) (v : Value) (name : String) :
    (getattr [v, .str name]).run self = self _ (.getAttr v name) := by
  funext w
  refine (congrFun (Network.run_getattr self v name none) w).trans ?_
  rw [Action.bind_apply, Action.attempt_apply]
  rcases self _ (.getAttr v name) w with _ | ⟨e | x, u⟩
  · rfl
  · cases e <;> rfl
  · rfl

theorem run_getattr_default (self : Performer) (v : Value) (name : String) (d : Value) :
    (getattr [v, .str name, d]).run self = (self _ (.getAttr v name)).orDefault d := by
  funext w
  refine (congrFun (Network.run_getattr self v name (some d)) w).trans ?_
  rw [Action.bind_apply, Action.attempt_apply, Action.orDefault]
  rcases self _ (.getAttr v name) w with _ | ⟨e | x, u⟩
  · rfl
  · cases e <;> rfl
  · rfl

/-- A call beside a value runs the code while the arguments and the value are held. -/
theorem callBeside_eq {h : Native} (known : w.natives[f.index]? = some h) (n : Nat) (d : Value)
    (args : List Value) :
    callBeside (n + 1) d f args w =
      Action.holding (.native f :: (args ++ [d]).flatMap Value.handles)
        ((h.code args).run (perform n)) w := by
  have held : (.native f :: args.flatMap Value.handles) ++ (d.handles ++ w.held) =
      (.native f :: (args ++ [d]).flatMap Value.handles) ++ w.held := by
    simp [List.flatMap_append]
  unfold callBeside Action.holding
  rw [Action.within_apply, Action.within_apply,
    perform_native (w := {w with held := d.handles ++ w.held}) known, Action.holding,
    Action.within_apply]
  dsimp only
  rw [held]
  cases (h.code args).run (perform n) _ <;> rfl

theorem holding_orDefault (hs : List Handle) (d : Value) (a : Action Value) (w : World) :
    Action.holding hs (a.orDefault d) w = (Action.holding hs a).orDefault d w := by
  unfold Action.holding
  rw [Action.within_apply]
  unfold Action.orDefault
  rw [Action.within_apply]
  rcases a {w with held := hs ++ w.held} with _ | ⟨e | x, u⟩
  · rfl
  · cases e <;> rfl
  · rfl

/-- What is held while a native function runs with these arguments. -/
abbrev inHand (f : NativeRef) (args : List Value) : List Handle :=
  .native f :: args.flatMap Value.handles

theorem callBeside_getattr (reads : w.natives[f.index]? = some ⟨"getattr", [], getattr⟩) (n : Nat)
    (v d : Value) (name : String) :
    callBeside (n + 2) d f [v, .str name] w =
      Action.holding (inHand f [v, .str name, d]) (getAttr (perform n) v name) w := by
  rw [callBeside_eq reads]
  dsimp only
  rw [run_getattr_plain]
  rfl

/-- The call with a default is the call without, but for refused accesses. -/
theorem call_getattr_default (reads : w.natives[f.index]? = some ⟨"getattr", [], getattr⟩)
    (n : Nat) (v d : Value) (name : String) :
    perform (n + 2) Value (.call (.native f) [v, .str name, d]) w =
      (callBeside (n + 2) d f [v, .str name]).orDefault d w := by
  have plain := callBeside_getattr reads n v d name
  rw [perform_native reads]
  dsimp only
  rw [run_getattr_default, holding_orDefault]
  unfold Action.orDefault
  rw [plain]
  rfl

/-- Whether an object has an attribute does not depend on the function that is called. -/
theorem hasAttribute_inHand {h : Native} (known : w.natives[f.index]? = some h)
    (inert : h.captured = []) (args : List Value) (o : ObjectId) (name : String) :
    (w.hold (inHand f args)).hasAttribute o name =
      (w.hold (args.flatMap Value.handles)).hasAttribute o name := by
  have near : ∀ h ∈ [Handle.native f], (w.hold (args.flatMap Value.handles)).isLive h = true ∨
      (∃ f, h = .native f) ∧ (w.hold (args.flatMap Value.handles)).holds h = [] := by
    intro h mem
    cases List.mem_singleton.1 mem
    refine .inr ⟨⟨f, rfl⟩, ?_⟩
    show (w.natives[f.index]?).elim [] _ = []
    rw [known, Option.elim_some, inert]
    rfl
  exact ((World.samePlaces_hold near).within name _ o).1

/-- Whether a value has an attribute, as long as these values are in hand. -/
def shows (w : World) (args : List Value) (name : String) : Value → Bool
  | .object o => (w.hold (args.flatMap Value.handles)).hasAttribute o name
  | _ => false

theorem callBeside_hasattr (asks : w.natives[g.index]? = some ⟨"hasattr", [], hasattr⟩) (n : Nat)
    (v d : Value) (name : String) :
    callBeside (n + 2) d g [v, .str name] w =
      some (.ok (.bool (shows w [v, .str name, d] name v)), w) := by
  rw [callBeside_eq asks]
  cases v with
  | object o =>
    have same := hasAttribute_inHand asks rfl [.object o, .str name, d] o name
    dsimp only
    rw [shows, ← same]
    rfl
  | _ => rfl

/-- A read of what `hasattr` does not show is refused, and that is all. -/
theorem callBeside_getattr_of_missing
    (reads : w.natives[f.index]? = some ⟨"getattr", [], getattr⟩) (descends : w.Descends) (n : Nat)
    (lacks : shows w [v, .str name, d] name v = false) :
    callBeside (n + 2) d f [v, .str name] w =
      some (.error (.noSuchAttribute (w.typeNameOf v) name), w) := by
  rw [callBeside_getattr reads]
  cases v with
  | object o =>
    have live : (w.hold (inHand f [.object o, .str name, d])).isLive (.object o) = true := by
      refine World.isLive_of_mem_roots (List.mem_append_right _ (List.mem_append_left _ ?_))
      exact List.mem_cons_of_mem _ List.mem_cons_self
    rw [shows, ← hasAttribute_inHand reads rfl] at lacks
    have descends' : (w.hold (inHand f [.object o, .str name, d])).Descends :=
      descends.of_objects rfl
    have refused := getAttr_of_missing descends' live lacks (perform n)
    exact (Action.holding_of_eq refused).trans rfl
  | _ => rfl

/-- A read of what `hasattr` shows fails as a binding that is evaluated for it does. -/
theorem fails_callBeside_getattr (reads : w.natives[f.index]? = some ⟨"getattr", [], getattr⟩)
    (descends : w.Descends) (n : Nat) {o : ObjectId} {e : BindError}
    (has : shows w [.object o, .str name, d] name (.object o) = true) :
    Fails (callBeside (n + 2) d f [.object o, .str name]) w e ↔
      Lapses n o name (w.hold (inHand f [.object o, .str name, d])) e := by
  rw [shows, ← hasAttribute_inHand reads rfl] at has
  have descends' : (w.hold (inHand f [.object o, .str name, d])).Descends := descends.of_objects rfl
  rw [← fails_getAttr descends' has, ← Fails.holding]
  exact exists_congr fun _ => by rw [callBeside_getattr reads]

end Builtin

open Builtin in
/-- **A default stands for every access that is refused.** The call with a default does what the
call without does, but gives the default where that is refused an access. If `hasattr` tells that
there is no such attribute, and so of every value that is no object, the call without a default is
refused and nothing else happens. If there is the attribute, that call fails exactly if a binding
that is evaluated for it fails. So the default stands for the attribute also if the binding is
refused an access, and only then the calls differ. -/
theorem defaults_for_refused_accesses {w : World} {f g : NativeRef}
    (reads : w.natives[f.index]? = some ⟨"getattr", [], getattr⟩)
    (asks : w.natives[g.index]? = some ⟨"hasattr", [], hasattr⟩) (descends : w.Descends) (n : Nat)
    (v d : Value) (name : String) :
    perform (n + 2) Value (.call (.native f) [v, .str name, d]) w =
      (callBeside (n + 2) d f [v, .str name]).orDefault d w ∧
    ∃ has, callBeside (n + 2) d g [v, .str name] w = some (.ok (.bool has), w) ∧
      ((∀ o, v ≠ .object o) → has = false) ∧
      (has = false →
        callBeside (n + 2) d f [v, .str name] w =
          some (.error (.noSuchAttribute (w.typeNameOf v) name), w) ∧
        perform (n + 2) Value (.call (.native f) [v, .str name, d]) w = some (.ok d, w)) ∧
      (has = true → ∃ o, v = .object o ∧
        (∀ e, Fails (callBeside (n + 2) d f [v, .str name]) w e ↔
          Lapses n o name (w.hold (inHand f [v, .str name, d])) e) ∧
        ((∀ c, ¬Lapses n o name (w.hold (inHand f [v, .str name, d])) (.access c)) →
          perform (n + 2) Value (.call (.native f) [v, .str name, d]) w =
            callBeside (n + 2) d f [v, .str name] w) ∧
        ∀ c, Lapses n o name (w.hold (inHand f [v, .str name, d])) (.access c) →
          ∃ u, callBeside (n + 2) d f [v, .str name] w = some (.error (.access c), u) ∧
            perform (n + 2) Value (.call (.native f) [v, .str name, d]) w = some (.ok d, u)) := by
  have guarded := call_getattr_default reads n v d name
  refine ⟨guarded, _, callBeside_hasattr asks n v d name, fun scalar => ?_, fun lacks => ?_,
    fun has => ?_⟩
  · cases v with
    | object o => exact absurd rfl (scalar o)
    | _ => rfl
  · have refused := callBeside_getattr_of_missing reads descends n lacks
    exact ⟨refused, guarded.trans (Action.orDefault_of_access d refused)⟩
  · obtain ⟨o, rfl⟩ : ∃ o, v = .object o := by
      cases v with
      | object o => exact ⟨o, rfl⟩
      | _ => cases has
    have fails {e : BindError} := fails_callBeside_getattr reads descends n has (e := e)
    refine ⟨o, rfl, fun e => fails, fun never => ?_, fun c lapses => ?_⟩
    · rw [guarded, Action.orDefault]
      split
      · next c u run => exact absurd (fails.1 ⟨u, run⟩) (never c)
      · rfl
    · obtain ⟨u, run⟩ := fails.2 lapses
      exact ⟨u, run, guarded.trans (Action.orDefault_of_access d run)⟩

namespace shelf

/-- The first thing of a list that is new and empty is bound to one name, and to another what
somebody refuses to tell. -/
def session : Program Unit := do
  let o ← .request (.newObject
    { typeName := "Item", parent := none, attributes := .empty
      members := [], constants := .empty, storage := .empty, config := none })
  .request (.keep "o" (.object o))
  let first ← .request (.newFunction "first_f" ⟨.empty, .empty⟩ fun _ _ => do
    .request (.getItem (← .request (.newList [])) (.int 0)))
  .request (.bind o "first" .simple first (.given 0))
  let secret ← .request (.newFunction "secret_f" ⟨.empty, .empty⟩ fun _ _ =>
    .fail (.evaluation "ask again"))
  .request (.bind o "secret" .simple secret (.given 1))

def start : World := (session.run (perform 12) Builtin.world).elim Builtin.world Prod.snd

theorem reachable : Reachable start := (Reachable.start Builtin.natives.toArray).final 12 session

theorem natives_stay : Builtin.world.NativesStay start := World.nativesStay_final 12 session _

def getattr : NativeRef := ⟨0⟩

def hasattr : NativeRef := ⟨2⟩

/-- What becomes of a call with the object and a name, while somebody holds on to a number. -/
def answer (f : NativeRef) (name : String) : Option (Except BindError Value) :=
  (callBeside 12 (.int 7) f [.object ⟨0⟩, .str name] start).map Prod.fst

theorem answers :
    answer hasattr "first" = some (.ok (.bool true)) ∧
    answer getattr "first" = some (.error (.access (.badKey "list" "0"))) ∧
    answer hasattr "secret" = some (.ok (.bool true)) ∧
    answer getattr "secret" = some (.error (.evaluation "ask again")) ∧
    answer hasattr "last" = some (.ok (.bool false)) := by
  decide +kernel

theorem ends_of_answer {f : NativeRef} {name : String} {r : Except BindError Value}
    (known : answer f name = some r) :
    ∃ u, callBeside 12 (.int 7) f [.object ⟨0⟩, .str name] start = some (r, u) := by
  obtain ⟨⟨_, u⟩, run, rfl⟩ := Option.map_eq_some_iff.1 known
  exact ⟨u, run⟩

theorem eq_of_answer {name : String} {b has : Bool}
    (known : answer hasattr name = some (.ok (.bool b)))
    (asked : callBeside 12 (.int 7) hasattr [.object ⟨0⟩, .str name] start =
      some (.ok (.bool has), start)) : has = b := by
  unfold answer at known
  rw [asked] at known
  cases known
  rfl

/-- The default stands for what is missing and not for what is kept secret. It stands for the first
thing of the empty list as well. -/
theorem stands_for_first :
    perform 12 Value (.call (.native getattr) [.object ⟨0⟩, .str "last", .int 7]) start =
      some (.ok (.int 7), start) ∧
    (∃ u, perform 12 Value (.call (.native getattr) [.object ⟨0⟩, .str "secret", .int 7]) start =
      some (.error (.evaluation "ask again"), u)) ∧
    ∃ u, perform 12 Value (.call (.native getattr) [.object ⟨0⟩, .str "first", .int 7]) start =
      some (.ok (.int 7), u) := by
  have defaults := defaults_for_refused_accesses (f := getattr) (g := hasattr)
    (natives_stay 0 _ rfl) (natives_stay 2 _ rfl) (World.descends_of_reachable reachable) 10
    (.object ⟨0⟩) (.int 7)
  obtain ⟨hasFirst, first, hasSecret, secret, hasLast⟩ := answers
  refine ⟨?_, ?_, ?_⟩
  · obtain ⟨_, has, asked, _, missing, _⟩ := defaults "last"
    exact (missing (eq_of_answer hasLast asked)).2
  · obtain ⟨_, has, asked, _, _, present⟩ := defaults "secret"
    obtain ⟨_, _, fails, same, _⟩ := present (eq_of_answer hasSecret asked)
    obtain ⟨u, run⟩ := ends_of_answer secret
    refine ⟨u, (same fun c lapses => ?_).trans run⟩
    obtain ⟨_, run'⟩ := (fails (.access c)).2 lapses
    cases run.symm.trans run'
  · obtain ⟨_, has, asked, _, _, present⟩ := defaults "first"
    obtain ⟨_, _, fails, _, stands⟩ := present (eq_of_answer hasFirst asked)
    obtain ⟨u, ended, default⟩ := stands _ ((fails _).1 (ends_of_answer first))
    exact ⟨u, default⟩

/-- The object has the attribute `first`, and reading it fails with a bad key. With a default
nothing is seen of the failure. -/
theorem hides_bad_key :
    (∃ u, callBeside 12 (.int 7) hasattr [.object ⟨0⟩, .str "first"] start =
      some (.ok (.bool true), u)) ∧
    (∃ u, callBeside 12 (.int 7) getattr [.object ⟨0⟩, .str "first"] start =
      some (.error (.access (.badKey "list" "0")), u)) ∧
    ∃ u, perform 12 Value (.call (.native getattr) [.object ⟨0⟩, .str "first", .int 7]) start =
      some (.ok (.int 7), u) := by
  obtain ⟨has, fails, _⟩ := answers
  obtain ⟨u, run⟩ := ends_of_answer fails
  have guarded := Builtin.call_getattr_default (f := getattr) (natives_stay 0 _ rfl) 10
    (.object ⟨0⟩) (.int 7) "first"
  exact ⟨ends_of_answer has, ⟨u, run⟩, u, guarded.trans (Action.orDefault_of_access _ run)⟩

end shelf

end LiveBinding
