import LiveBinding.Proofs.VeiledActions

/-! Operations that do not show a tracer.

One lemma an operation, in the order in which operations are made of each other. An operation that
runs with the tracer, and with a performer whose answers do not show it, is followed by the same
operation without. Only two things tell the runs apart: a name that is looked up in the scope of the
call, or through one of its views, is recorded, and the views that the scope gives record too. -/
namespace LiveBinding

/-- What a call comes to once it is on record. -/
def callOnRecord (self : Performer) (f : FunctionRef) (args : Arguments) (s : Scope) :
    Action Value := do
  let limit ← depthLimit
  Action.nested do
    if limit < (← Action.read (·.depth)) then
      let object ← Action.read (·.describe s.owner)
      let name ← Action.read (·.functionName f)
      Action.throw (.recursionLimit object name limit)
    else
      Action.holding (.function f :: s.handles ++ args.handles) (runCode self f s args)

theorem callFunction_apply (self : Performer) (f : FunctionRef) (args : Arguments) (s : Scope)
    (w : World) : callFunction self f args s w =
      callOnRecord self f args s
        (w.addEntry (.callStarted (w.functionName f) s.owner args.count)) := rfl

theorem callFunction_onRecord (self : Performer) (f : FunctionRef) (args : Arguments) (s : Scope) :
    callFunction self f args s = (do
      Action.log (.callStarted (← Action.read (·.functionName f)) s.owner args.count)
      callOnRecord self f args s) := rfl

theorem spend_eq : spend = (do
    match ← Action.read fun w => w.desk.allowance with
    | 0 => return false
    | n + 1 => do
      Action.update fun w => w.modifyDesk fun d => {d with allowance := n}
      return true) := by
  funext w
  rw [Action.read_bind, spend]
  cases w.desk.allowance <;> rfl

/-- Declares an attribute of an object, and gives it the engine of the object, if there is such an
object. -/
def equip (o : ObjectId) (name : String) : Action (Option EngineRef) := do
  match ← Action.read (·.declared? o) with
  | none => return none
  | some d =>
    Action.update (·.modifyDeclared o (·.declare name))
    let e ← engineFor o d
    return some e

theorem bindAttribute_eq (o : ObjectId) (name : String) (op : Operator) (f : FunctionRef)
    (key : ScopeKey) : bindAttribute o name op f key = (do
      match ← equip o name with
      | none => return ()
      | some e => Action.update (·.modifyEngine e (·.addBinding name (op.bind f key)))) := by
  funext w
  unfold bindAttribute equip
  rw [Action.read_bind, Action.bind_assoc, Action.read_bind]
  cases w.declared? o with
  | none => rfl
  | some d =>
    dsimp only
    rw [Action.bind_assoc, Action.update_bind, Action.update_bind, Action.bind_assoc]
    rfl

/-- Whatever the first performer answers with the tracer, the second answers without. -/
structure TracedCall.Unseen (T : TracedCall) (one other : Performer) : Prop where
  asked : ∀ {β : Type} {q q' : Request β}, q.Veiled T q' → (one β q).Veiled T (other β q')

/-- The request asks what a tracer has recorded. -/
def Request.reveals (t : TracerRef) : {α : Type} → Request α → Bool
  | _, .query (.tracer u) | _, .query (.tracerText u) | _, .finalize u => u = t
  | _, _ => false

namespace TracedCall.Unseen
open LiveBinding.Action.VeiledAs
variable {T : TracedCall} {k : Prop} {self other : Performer} {α : Type} {w w' : World}

/-! #### What the world is asked -/

section
variable {o : ObjectId} {v : Value}

theorem typeNameOf (same : T.Same w w') : w'.typeNameOf v = w.typeNameOf v :=
  same.answer (f := (·.typeNameOf v)) (T.typeNameOf_veil · v)

theorem typeName (same : T.Same w w') : w'.typeName o = w.typeName o :=
  same.answer (f := (·.typeName o)) (T.typeName_veil · o)

theorem declared? (same : T.Same w w') : w'.declared? o = w.declared? o :=
  same.answer (f := (·.declared? o)) (T.declared?_veil · o)

theorem stored? {name : String} (same : T.Same w w') : w'.stored? o name = w.stored? o name :=
  same.answer (f := (·.stored? o name)) (T.stored?_veil · o name)

theorem engine {e : EngineRef} (same : T.Same w w') : w'.engine e = w.engine e :=
  same.answer (f := (·.engine e)) fun _ => rfl

theorem hasReader {e : EngineRef} {name : String} (same : T.Same w w') :
    (w'.engine e).hasReader name = (w.engine e).hasReader name := by
  rw [engine same]

end

/-! #### Bodies and handlers -/

theorem globalConfig : (LiveBinding.globalConfig).Veiled T LiveBinding.globalConfig := by
  have steps (w : World) : LiveBinding.globalConfig w = (w.config.elim (do
      let c ← Action.read fun w => Config.ofVariables w.hostVariables
      Action.update fun w => {w with config := some c}
      return c) Pure.pure : Action Config) w := by
    unfold LiveBinding.globalConfig
    cases w.config <;> rfl
  refine optional (fun _ => rfl) steps steps ?_ pure
  refine reading (fun same => congrArg Config.ofVariables ?_) fun c =>
    seq (changing_apart (fun _ _ => rfl) fun _ _ => ⟨rfl, rfl⟩) fun _ => pure c
  exact same.answer (f := World.hostVariables) fun _ => rfl

theorem depthLimit : (LiveBinding.depthLimit).Veiled T LiveBinding.depthLimit := by
  have steps (w : World) : LiveBinding.depthLimit w = (w.limit.elim
      (do return (← LiveBinding.globalConfig).maxDepth) Pure.pure : Action Nat) w := by
    unfold LiveBinding.depthLimit
    cases w.limit <;> rfl
  exact optional (fun _ => rfl) steps steps (seq globalConfig fun c => pure _) pure

theorem scope (h : Handler) (owner : ObjectId) : (h.scope owner).Veiled T (h.scope owner) := by
  have storage {w w' : World} (same : T.Same w w') :
      w'.localStorage? owner h.key = w.localStorage? owner h.key :=
    same.answer (f := (·.localStorage? owner h.key)) (T.localStorage?_veil · owner h.key)
  refine reading storage fun l => ?_
  have rest (l : LayerRef) : Action.Veiled T (do
      let environment ← Action.read (·.functionEnvironment h.function)
      return (⟨owner, l, environment, none, none⟩ : Scope)) (do
      let environment ← Action.read (·.functionEnvironment h.function)
      return ⟨owner, l, environment, none, none⟩) :=
    reading (fun same => same.answer (f := (·.functionEnvironment h.function)) fun _ => rfl)
      fun _ => pure _
  cases l with
  | some l => exact rest l
  | none => exact seq (adding_apart (fun _ _ => rfl) fun _ w => w.sameKeepers_addLayer) rest

variable (H : T.Unseen self other)
include H

theorem run {p p' : Program α} (veiled : p.Veiled T p') :
    (p.run self).Veiled T (p'.run other) := by
  match p, p', veiled with
  | .done r, _, .done _ => exact ofExcept r
  | .ask q k, .ask q' k', .ask request rest =>
    have steps (self : Performer) {β : Type} (q : Request β) (k : Except BindError β → Program α)
        (w : World) : (Program.ask q k).run self w =
          ((self β q).attempt >>= fun r => (k r).run self) w := by
      rw [Program.run, Action.bind_apply, Action.attempt_apply]
      dsimp only
      rcases self β q w with _ | ⟨r, u⟩ <;> rfl
    refine .congr (steps self q k) (steps other q' k') ?_
    exact seq (H.asked request).attempt fun r => run (rest r)
termination_by structural p

/-- Code runs in a scope with the tracer and in one without. -/
theorem runCode {f : FunctionRef} {args args' : Arguments} {s s' : Scope}
    (code : ∀ {w w'}, T.Same w w' → (w.code f s args).Veiled T (w'.code f s' args')) :
    (LiveBinding.runCode self f s args).Veiled T (LiveBinding.runCode other f s' args') where
  onward begun run := (H.run (.refl _)).onward begun run
  follows same run recorded sustained := (H.run (code same)).follows same run recorded sustained
  rests _ := (H.run (.refl _)).rests trivial

theorem callOnRecord {f : FunctionRef} {args args' : Arguments} {s s' : Scope}
    (scope : s.Veiled T s') (arguments : args.Veiled T args')
    (code : ∀ {w w'}, T.Same w w' → (w.code f s args).Veiled T (w'.code f s' args')) :
    (LiveBinding.callOnRecord self f args s).Veiled T
      (LiveBinding.callOnRecord other f args' s') := by
  have owner : s'.owner = s.owner := by
    obtain ⟨t, _, rfl⟩ := scope
    rfl
  refine seq depthLimit fun limit => nested (reading (fun same => ?_) fun depth => ?_)
  · exact same.answer (f := World.depth) fun _ => rfl
  · split
    · rw [owner]
      refine reading (fun same => ?_) fun object => reading (fun same => ?_) fun name => throw _
      · exact same.answer (f := (·.describe s.owner)) (T.describe_veil · s.owner)
      · exact same.answer (f := (·.functionName f)) fun _ => rfl
    · refine holding ?_ (H.runCode code)
      simp only [List.cons_append, List.filter_cons, List.filter_append, scope.handles,
        arguments.handles]

/-- A function runs in a scope of its own, or by right in that of the call. -/
theorem callFunction {f : FunctionRef} {s s' : Scope} (scope : s.Veiled T s')
    (right : s' = s ∨ T.bodies f) (args : Arguments) :
    (LiveBinding.callFunction self f args s).Veiled T
      (LiveBinding.callFunction other f args s') := by
  have owner : s'.owner = s.owner := by
    obtain ⟨t, _, rfl⟩ := scope
    rfl
  rw [callFunction_onRecord, callFunction_onRecord, owner]
  refine reading (fun same => same.answer (f := (·.functionName f)) fun _ => rfl) fun name => ?_
  refine seq (log _) fun _ => H.callOnRecord scope (.inl rfl) fun {w w'} same => ?_
  rcases right with rfl | body
  · rw [same.code_eq]
    exact .refl _
  · exact same.code body scope (.inl rfl)

theorem callSame (f : FunctionRef) (args : Arguments) (s : Scope) :
    (LiveBinding.callFunction self f args s).Veiled T (LiveBinding.callFunction other f args s) :=
  H.callFunction (.refl s) (.inl rfl) args

theorem invoke (h : Handler) (i : Invocation) : (h.invoke self i).Veiled T (h.invoke other i) := by
  refine holdingSame i.handles ?_
  split
  · exact seq (scope h _) fun s => seq (H.callSame _ _ _) fun v => pure _
  · refine seq (addTracer _) fun u => seq (scope h _) fun s => ?_
    exact seq (H.callSame _ _ _) fun v => pure _
  · exact seq (scope h _) fun s => seq (H.callSame _ _ _) fun v => pure _
  · next change _ =>
    refine seq (scope h _) fun s => reading (fun same => ?_) fun v => ?_
    · rw [same.answer (f := (·.change? change)) (T.change?_veil · change)]
    · exact seq (H.callSame _ _ _) fun _ => pure _
  · exact throw _

theorem handlerRead (h : Handler) (owner : ObjectId) (name : String) :
    (h.read self owner name).Veiled T (h.read other owner name) := by
  refine seq (H.invoke h _) fun outcome => ?_
  cases outcome with
  | value v => exact pure v
  | traced v u => exact pure v
  | written => exact throw _

theorem readTraced (h : Handler) (owner : ObjectId) (name : String) :
    (h.readTraced self owner name).Veiled T (h.readTraced other owner name) := by
  unfold Handler.readTraced
  split
  · refine seq (H.invoke h _) fun outcome => ?_
    cases outcome with
    | traced v u => exact pure _
    | value v => exact throw _
    | written => exact throw _
  · exact throw _

theorem handlerWrite (h : Handler) (owner : ObjectId) (name : String) (change : ObjectId) :
    (h.write self owner name change).Veiled T (h.write other owner name change) :=
  seq (H.invoke h _) fun _ => pure ()

/-! #### Engines -/

omit H in
theorem settle (policy : FailurePolicy) (default : α) (owner : ObjectId) (name : String)
    (r : Except BindError α) :
    (Engine.settle policy default owner name r).Veiled T
      (Engine.settle policy default owner name r) := by
  unfold Engine.settle
  split
  · exact pure _
  · exact throw _
  · exact seq (log _) fun _ => pure _

omit H in
theorem follow (e : EngineRef) (owner : ObjectId) (name : String) (d : Dependency) :
    (Engine.follow e owner name d).Veiled T (Engine.follow e owner name d) := by
  unfold Engine.follow
  split
  · exact pure none
  · refine reading (fun same => ?_) fun r => ?_
    · exact same.answer (f := (·.registryOf? d.object)) (T.registryOf?_veil · d.object)
    · cases r with
      | none => exact pure none
      | some r =>
        exact seq (adding_apart (fun _ _ => rfl) fun _ _ => ⟨rfl, rfl⟩) fun l =>
          seq (changing_apart (fun _ _ => rfl) fun _ _ => ⟨rfl, rfl⟩) fun _ => pure _

omit H in
theorem followAll (e : EngineRef) (owner : ObjectId) (name : String) (ds : List Dependency) :
    (Engine.followAll e owner name ds).Veiled T (Engine.followAll e owner name ds) := by
  induction ds with
  | nil => exact pure []
  | cons d rest ih => exact seq (follow e owner name d) fun first => seq ih fun _ => pure _

omit H in
/-- An attribute is linked anew to what another tracer has recorded. -/
theorem relink {t : TracerRef} (other : t ≠ T.tracer) (e : EngineRef) (owner : ObjectId)
    (name : String) : Action.Veiled T
    (do Engine.conclude e owner name t; Engine.relink e owner name t)
    (do Engine.conclude e owner name t; Engine.relink e owner name t) := by
  have record (w : World) : (T.veil w).tracer t = w.tracer t := by
    rw [T.tracer_veil, if_neg other]
  have concludes : T.Plain fun w =>
      let consulted := (w.tracer t).dependencies.filter fun d => w.has d.object
      w.modifyEngine e (·.note (.evaluated name owner consulted w.links.size)) :=
    { veil := fun w => by
        dsimp only
        rw [record, funext (T.has_veil w)]
        rfl
      views := fun _ _ _ _ => .rfl
      tracers := fun _ => rfl
      held := fun _ => rfl
      functions := fun _ _ _ => id }
  have links (ls : List LinkRef) := changing_apart (T := T) (k := True)
    (g := (·.modifyEngine e fun g => {g with links := g.links.insert name ls})) (fun _ _ => rfl)
    fun _ w => w.sameKeepers_modifyEngine e fun _ => rfl
  refine seq (changing concludes fun _ w => w.sameKeepers_modifyEngine e fun _ => rfl) fun _ =>
    reading (fun same => ?_) fun config => ?_
  · rw [engine same]
  · dsimp only
    split
    · refine reading (fun same => ?_) fun ds => seq (drain other) fun _ => ?_
      · rw [same.answer (f := (·.tracer t)) record]
      · refine seq (followAll e owner name ds) fun ls => seq (log _) fun _ => ?_
        exact seq (pure ls) links
    · exact seq (pure []) links

theorem evaluate (e : EngineRef) (owner : ObjectId) (name : String) (h : Handler) :
    (Engine.evaluate self e owner name h).Veiled T (Engine.evaluate other e owner name h) := by
  unfold Engine.evaluate
  split
  · refine seqOf (P := fun x => x.2 ≠ T.tracer) (H.readTraced h owner name) ?_ fun x apart => ?_
    · -- the tracer of the evaluation is newer than every tracer that was there
      intro w u x begun succeeded
      obtain ⟨_, _, new, _⟩ := Handler.exists_of_readTraced succeeded
      rw [new]
      rintro same
      rw [Begun, ← same] at begun
      exact Nat.lt_irrefl _ begun
    · have linked := seq (relink apart e owner name) fun _ => pure (T := T) (some x.1)
      rwa [Action.bind_assoc] at linked
  · exact seq (H.handlerRead h owner name) fun v => pure (some v)

theorem readBinding (e : EngineRef) (owner : ObjectId) (name : String) :
    (Engine.read self e owner name).Veiled T (Engine.read other e owner name) := by
  refine reading engine fun g => ?_
  split
  · exact pure none
  · next h _ =>
    exact underLimit _ (seq (attempt (H.evaluate e owner name h)) fun r => settle _ _ _ _ r)

theorem writeBinding (e : EngineRef) (owner : ObjectId) (name : String) (change : ObjectId) :
    (Engine.write self e owner name change).Veiled T
      (Engine.write other e owner name change) := by
  refine reading engine fun g => ?_
  split
  · exact log _
  · split
    · exact pure ()
    · next h _ =>
      refine underLimit _ (seq (attempt (H.handlerWrite h owner name change)) fun r => ?_)
      exact settle _ _ _ _ r

theorem updateBinding (e : EngineRef) (owner : ObjectId) (name : String) :
    (Engine.update self e owner name).Veiled T (Engine.update other e owner name) := by
  refine holdingSame _ (seq (H.readBinding e owner name) fun v => ?_)
  cases v with
  | none => exact pure ()
  | some v =>
    refine reading (fun same => ?_) fun text => seq (log _) fun _ => ?_
    · exact same.answer (f := (·.text v)) (T.text_veil · v)
    · exact guarding e name (H.asked (.same _))

/-! #### Changes -/

theorem refresh (l : Link) (c : Change) :
    (LiveBinding.refresh self l c).Veiled T (LiveBinding.refresh other l c) := by
  refine reading (fun same => same.isLive nofun) fun engine => ?_
  refine reading (fun same => same.isLive nofun) fun owner => ?_
  split
  · refine seq (log _) fun _ => seq (attempt (H.updateBinding l.engine l.owner l.name)) fun r => ?_
    cases r with
    | ok _ => exact pure ()
    | error e => exact log _
  · exact pure ()

theorem react (change : ObjectId) (x : Observer) :
    (LiveBinding.react self change x).Veiled T (LiveBinding.react other change x) := by
  cases x with
  | watcher c =>
    have steps (self : Performer) (w : World) : LiveBinding.react self change (.watcher c) w =
        (w.watchers[c.index]?.elim (Pure.pure ()) fun x => watch self x change) w := by
      rw [LiveBinding.react]
      dsimp only
      cases w.watchers[c.index]? <;> rfl
    exact optional (fun _ => rfl) (steps self) (steps other) (pure ()) fun x =>
      seq (attempt (H.run (.refl (x.code change)))) fun _ => pure ()
  | link l =>
    have steps (self : Performer) (w : World) : LiveBinding.react self change (.link l) w =
        (w.links[l.index]?.elim (Pure.pure ()) fun x => Action.read (·.change? change) >>=
          (·.elim (Pure.pure ()) (LiveBinding.refresh self x))) w := by
      rw [LiveBinding.react]
      dsimp only
      cases w.links[l.index]? with
      | none => rfl
      | some x =>
        rw [Option.elim_some, Action.read_bind]
        cases w.change? change <;> rfl
    refine optional (fun _ => rfl) (steps self) (steps other) (pure ()) fun x => ?_
    exact optional (T.change?_veil · change) (fun _ => rfl) (fun _ => rfl) (pure ()) (H.refresh x)

theorem inform (change : ObjectId) (x : Observer) :
    (LiveBinding.inform self change x).Veiled T (LiveBinding.inform other change x) :=
  seq (changing (T.plain_tell x change) fun _ _ => ⟨rfl, rfl⟩) fun _ => H.react change x

theorem deliver (change : ObjectId) (xs : List Observer) :
    (LiveBinding.deliver self change xs).Veiled T (LiveBinding.deliver other change xs) := by
  induction xs with
  | nil => exact pure ()
  | cons x rest ih => exact seq (H.inform change x) fun _ => ih

theorem notify (r : RegistryRef) (change : ObjectId) :
    (LiveBinding.notify self r change).Veiled T (LiveBinding.notify other r change) := by
  refine reading (fun same => ?_) fun c => ?_
  · exact same.answer (f := (·.change? change)) (T.change?_veil · change)
  · cases c with
    | none => exact pure 0
    | some c =>
      refine reading (fun same => ?_) fun observers => ?_
      · rw [same.answer (f := (·.registry r)) fun _ => rfl]
      · cases observers with
        | none => exact pure 0
        | some xs =>
          refine reading (fun same => same.liveObservers xs) fun live => ?_
          refine seq (changing_apart (fun _ _ => rfl) fun _ _ => ⟨rfl, rfl⟩) fun _ =>
            seq (log _) fun _ => ?_
          exact seq (holdingSame _ (H.deliver change live)) fun _ => pure _

/-- What the engine of an object does about a change. -/
theorem writeBack (o : ObjectId) (name : String) (change : ObjectId) : Action.Veiled T
    (do
      match ← Action.read (·.engineOf? o) with
      | some e => Action.holding [.engine e] (Engine.write self e o name change)
      | none => Pure.pure () : Action Unit)
    (do
      match ← Action.read (·.engineOf? o) with
      | some e => Action.holding [.engine e] (Engine.write other e o name change)
      | none => Pure.pure () : Action Unit) := by
  refine reading (fun same => ?_) fun e => ?_
  · exact same.answer (f := (·.engineOf? o)) (T.engineOf?_veil · o)
  · cases e with
    | none => exact pure ()
    | some e => exact holdingSame _ (H.writeBinding e o name change)

theorem dispatch (o : ObjectId) (kind : ChangeKind) (name : String) (old new : Value) :
    (LiveBinding.dispatch self o kind name old new).Veiled T
      (LiveBinding.dispatch other o kind name old new) := by
  refine seq (addObject (.same _) fun _ w => w.sameKeepers_addObject nofun) fun change =>
    holdingSame _ (reading (fun same => ?_) fun r => ?_)
  · exact same.answer (f := (·.registryOf? o)) (T.registryOf?_veil · o)
  · cases r with
    | none => exact H.writeBack o name change
    | some r => exact seq (H.notify r change) fun _ => H.writeBack o name change

omit H in
theorem modifyDeclared (o : ObjectId) (f : Declared → Declared) :
    (Action.update (·.modifyDeclared o f)).Loose T (Action.update (·.modifyDeclared o f)) :=
  changing (plain_modifyDeclared o f) False.elim

theorem assignDeclared (o : ObjectId) (d : Declared) (name : String) (v : Value) :
    (LiveBinding.assignDeclared self o d name v).Loose T
      (LiveBinding.assignDeclared other o d name v) := by
  have told (kind : ChangeKind) (old : Value) : Action.Loose T
      (do storeValue o name v; LiveBinding.dispatch self o kind name old v)
      (do storeValue o name v; LiveBinding.dispatch other o kind name old v) :=
    seq (modifyDeclared o _) fun _ => H.dispatch o kind name old v
  unfold LiveBinding.assignDeclared
  split
  · exact throw _
  · split
    · exact throw _
    · split
      · next old _ =>
        refine reading (fun same => ?_) fun equal => ?_
        · exact same.answer (f := (·.equal old v)) (T.equal_veil · old v)
        · cases equal with
          | true => exact pure ()
          | false => exact told .update old
      · exact told .create .null

/-- Through a view it is the nearest object that is assigned to. -/
theorem assignThrough (o owner : ObjectId) (name : String) (v : Value) : Action.Veiled T
    (do
      match ← Action.read (·.nearest? owner name) with
      | some target => Action.holding [.object o] (self _ (.setAttr (.object target) name v))
      | none => Action.throw (.noSuchAttribute (← Action.read (·.typeName owner)) name))
    (do
      match ← Action.read (·.nearest? owner name) with
      | some target => Action.holding [.object o] (other _ (.setAttr (.object target) name v))
      | none => Action.throw (.noSuchAttribute (← Action.read (·.typeName owner)) name)) := by
  refine reading (fun same => same.nearest? owner name) fun target => ?_
  cases target with
  | some target => exact holdingSame _ (H.asked (.same _))
  | none => exact reading typeName fun _ => throw _

theorem assign (o : ObjectId) (name : String) (v : Value) :
    (LiveBinding.assign self o name v).Loose T (LiveBinding.assign other o name v) := by
  refine readingObject fun x x' object => ?_
  cases object with
  | same =>
    rcases x with _ | d | c | ⟨owner, t⟩
    · exact throw _
    · exact holdingSame _ (H.assignDeclared o d name v)
    · dsimp only
      split
      · exact throw _
      · exact throw _
    · exact (H.assignThrough o owner name v).any
  | view owner => exact (H.assignThrough o owner name v).any

theorem setAttr (v : Value) (name : String) (x : Value) :
    (LiveBinding.setAttr self v name x).Loose T (LiveBinding.setAttr other v name x) := by
  unfold LiveBinding.setAttr
  split
  · exact H.assign _ name x
  · exact reading typeNameOf fun _ => throw _

theorem setName {s s' : Scope} (scope : s.Veiled T s') (name : String) (x : Value) :
    (LiveBinding.setName self s name x).Loose T (LiveBinding.setName other s' name x) := by
  obtain ⟨t, _, rfl⟩ := scope
  unfold LiveBinding.setName
  split
  · exact throw _
  · refine reading (fun same => same.nearest? s.owner name) fun o => ?_
    cases o with
    | some o => exact H.assign o name x
    | none => exact changing_apart (fun _ _ => rfl) False.elim

theorem emit (o : ObjectId) (name : String) (v : Value) :
    (LiveBinding.emit self o name v).Veiled T (LiveBinding.emit other o name v) := by
  refine reading (fun same => same.hasAttribute o name) fun there => ?_
  split
  · exact holdingSame _ (H.dispatch o .event name .null v)
  · exact reading typeName fun _ => throw _

theorem clear (o : ObjectId) (name : String) :
    (LiveBinding.clear self o name).Loose T (LiveBinding.clear other o name) := by
  refine reading declared? fun d => ?_
  cases d with
  | none => exact pure ()
  | some d =>
    dsimp only
    split
    · exact throw _
    · split
      · exact pure ()
      · exact seq (modifyDeclared o _) fun _ => H.dispatch o .delete name _ .null

/-! #### Attributes that are read -/

/-- A tracer records what it is asked to, and one that is hidden leaves no trace. -/
theorem loadName (owner : ObjectId) (name : String) {t t' : Option TracerRef}
    (hides : T.Hides t t') :
    (LiveBinding.loadName self owner name t).Veiled T
      (LiveBinding.loadName other owner name t') := by
  refine reading (fun same => same.nearest? owner name) fun o => ?_
  cases o with
  | none => exact pure none
  | some o =>
    refine seq (H.asked (.same _)) fun v => ?_
    cases v with
    | none => exact pure none
    | some v =>
      obtain rfl | ⟨rfl, rfl⟩ := hides
      · cases t' with
        | none => exact pure (some v)
        | some t => exact seq (Action.VeiledAs.record t _) fun _ => pure (some v)
      · exact recordHere _ (pure (some v))

theorem readDeclared (o : ObjectId) (d : Declared) (name : String) :
    (LiveBinding.readDeclared self o d name).Veiled T
      (LiveBinding.readDeclared other o d name) := by
  have found : Action.Veiled T
      (do return some ((← Action.read (·.stored? o name)).getD .null) : Action (Option Value))
      (do return some ((← Action.read (·.stored? o name)).getD .null)) :=
    reading stored? fun _ => pure _
  unfold LiveBinding.readDeclared
  split
  · exact pure _
  · split
    · exact pure none
    · split
      · next e _ =>
        refine reading hasReader fun reader => ?_
        cases reader with
        | true => exact seq (H.updateBinding e o name) fun _ => found
        | false => exact found
      · exact found

theorem readAttr (o : ObjectId) (name : String) :
    (LiveBinding.readAttr self o name).Veiled T (LiveBinding.readAttr other o name) := by
  refine readingObject fun x x' object => ?_
  cases object with
  | same =>
    rcases x with _ | d | c | ⟨owner, t⟩
    · exact pure none
    · exact holdingSame _ (H.readDeclared o d name)
    · exact pure _
    · exact holdingSame _ (H.loadName owner name (.inl rfl))
  | view owner => exact holdingSame _ (H.loadName owner name (.inr ⟨rfl, rfl⟩))

theorem getAttr (v : Value) (name : String) :
    (LiveBinding.getAttr self v name).Veiled T (LiveBinding.getAttr other v name) := by
  cases v with
  | object o =>
    refine seq (H.readAttr o name) fun x => ?_
    cases x with
    | some x => exact pure x
    | none => exact reading typeName fun _ => throw _
  | _ => exact reading typeNameOf fun _ => throw _

theorem populateAll (o : ObjectId) (e : EngineRef) (names : List String) :
    (LiveBinding.populateAll self o e names).Veiled T
      (LiveBinding.populateAll other o e names) := by
  induction names with
  | nil => exact pure ()
  | cons name rest ih =>
    refine reading hasReader fun reader => reading (fun same => ?_) fun unset => ?_
    · rw [stored? same]
    · split
      · exact seq (H.readAttr o name) fun _ => ih
      · exact ih

theorem populate (o : ObjectId) :
    (LiveBinding.populate self o).Veiled T (LiveBinding.populate other o) := by
  refine reading (fun same => ?_) fun e => ?_
  · exact same.answer (f := (·.engineOf? o)) (T.engineOf?_veil · o)
  · cases e with
    | none => exact pure ()
    | some e =>
      refine reading (fun same => ?_) fun names => holdingSame _ (H.populateAll o e names)
      rw [engine same]

/-! #### Declaring and binding -/

omit H in
/-- Slots are only added. -/
theorem sustained_addSlots {slots : Dict ScopeKey LayerRef}
    {storage : List (ScopeKey × Dict String Value)} {r : Except BindError (Dict ScopeKey LayerRef)}
    (run : LiveBinding.addSlots slots storage w = some (r, w')) (sustained : T.Sustained w) :
    T.Sustained w' := by
  induction storage generalizing slots w with
  | nil =>
    cases run
    exact sustained
  | cons slot rest ih =>
    exact ih run (sustained.grows (List.Subset.refl _) (w.keeps_addLayer slot.2))

omit H in
theorem addSlots (slots : Dict ScopeKey LayerRef) (storage : List (ScopeKey × Dict String Value)) :
    (LiveBinding.addSlots slots storage).Loose T (LiveBinding.addSlots slots storage) := by
  induction storage generalizing slots with
  | nil => exact pure slots
  | cons slot rest ih =>
    refine afterAdding (adding_apart (fun _ _ => rfl) False.elim)
      (fun {w m r} _ run sustained => ?_) fun l => ih _
    cases run
    exact sustained.grows (List.Subset.refl _) (w.keeps_addLayer slot.2)

omit H in
theorem newObject (b : Blueprint) :
    (LiveBinding.newObject b).Loose T (LiveBinding.newObject b) := by
  refine after (adding_apart (fun _ _ => rfl) fun _ _ => ⟨rfl, rfl⟩) fun registry =>
    afterAdding (addSlots _ _) (fun _ => sustained_addSlots) fun storage => ?_
  refine add (fun begun => .of_eq begun rfl) (fun {w w'} same sustained => ?_) False.elim
  have has : w'.has = w.has := funext fun o => same.answer (f := (·.has o)) (T.has_veil · o)
  rw [has]
  exact ⟨congrArg ObjectId.mk same.sizes.2.1, same.addObject (.same _) sustained⟩

omit H in
theorem newEngine (config : Option Config) :
    (LiveBinding.newEngine config).Veiled T (LiveBinding.newEngine config) := by
  have start (c : Config) : Action.Veiled T (Action.add (·.addEngine (.start c)))
      (Action.add (·.addEngine (.start c))) :=
    adding_apart (fun _ _ => rfl) fun _ w => w.sameKeepers_addEngine c
  cases config with
  | some c => exact seq (pure c) start
  | none => exact seq globalConfig start

omit H in
theorem declare (o : ObjectId) (name : String) :
    (Action.update (·.modifyDeclared o (·.declare name))).Veiled T
      (Action.update (·.modifyDeclared o (·.declare name))) := by
  refine changing (plain_modifyDeclared o _) fun _ w => w.sameKeepers_modifyDeclared o fun d => ?_
  unfold Declared.declare
  split <;> rfl

omit H in
theorem engineFor (o : ObjectId) (d : Declared) :
    (LiveBinding.engineFor o d).Loose T (LiveBinding.engineFor o d) := by
  unfold LiveBinding.engineFor
  cases d.engine with
  | some e => exact pure e
  | none => exact after (newEngine _) fun e => seq (modifyDeclared o _) fun _ => pure e

omit H in
theorem equip (o : ObjectId) (name : String) :
    (LiveBinding.equip o name).Loose T (LiveBinding.equip o name) := by
  refine reading declared? fun d => ?_
  cases d with
  | none => exact pure none
  | some d =>
    exact after (declare o name) fun _ => seq (engineFor o d) fun e => pure (some e)

omit H in
/-- An object that has no engine loses nothing when it is given one. -/
theorem sustained_equip {o : ObjectId} {name : String} {r : Except BindError (Option EngineRef)}
    (begun : T.Begun w) (run : LiveBinding.equip o name w = some (r, w'))
    (sustained : T.Sustained w) : T.Sustained w' := by
  unfold LiveBinding.equip at run
  rw [Action.read_bind] at run
  cases known : w.declared? o with
  | none =>
    rw [known] at run
    cases run
    exact sustained
  | some d =>
    rw [known] at run
    let w₁ := w.modifyDeclared o (·.declare name)
    have begun₁ : T.Begun w₁ := begun
    have sustained₁ : T.Sustained w₁ := ((declare o name).rests trivial begun rfl).2 sustained
    replace run : (LiveBinding.engineFor o d >>= fun e => Pure.pure (some e)) w₁ =
      some (r, w') := run
    unfold LiveBinding.engineFor at run
    cases engine : d.engine with
    | some e =>
      rw [engine] at run
      have same : w₁ = w' := congrArg Prod.snd (Option.some.inj run)
      exact same ▸ sustained₁
    | none =>
      rw [engine] at run
      obtain ⟨c, w₂, made, objects, _⟩ := World.newEngine_run (w := w₁) d.config
      have sustained₂ := ((newEngine d.config).rests trivial begun₁ made).2 sustained₁
      rw [Action.bind_assoc, Action.bind_apply, made] at run
      cases run
      refine sustained₂.grows (List.Subset.refl _) (World.keeps_modifyDeclared _ o fun d' here => ?_)
      have same : (w₂.addEngine (.start c)).1.declared? o = w₁.declared? o := by
        simp only [World.declared?, World.entity?, World.addEngine, objects]
      rw [same, World.declared?_modifyDeclared, if_pos rfl, known] at here
      cases here
      have bare : (d.declare name).engine = none := by
        unfold Declared.declare
        split <;> exact engine
      rw [Entity.handles, bare]
      exact List.append_subset.2 ⟨List.subset_append_left _ _, List.nil_subset _⟩

omit H in
theorem bindAttribute (o : ObjectId) (name : String) (op : Operator) (f : FunctionRef)
    (key : ScopeKey) :
    (LiveBinding.bindAttribute o name op f key).Loose T
      (LiveBinding.bindAttribute o name op f key) := by
  rw [bindAttribute_eq]
  refine afterAdding (equip o name) sustained_equip fun e => ?_
  cases e with
  | none => exact pure ()
  | some e => exact changing_apart (fun _ _ => rfl) False.elim

omit H in
theorem localSlot (o : ObjectId) (key : ScopeKey) :
    (LiveBinding.localSlot o key).Loose T (LiveBinding.localSlot o key) := by
  refine reading (fun same => ?_) fun l => ?_
  · exact same.answer (f := (·.localStorage? o key)) (T.localStorage?_veil · o key)
  · cases l with
    | some l => exact pure l
    | none =>
      exact after (adding_apart (fun _ _ => rfl) fun _ w => w.sameKeepers_addLayer) fun l =>
        seq (modifyDeclared o _) fun _ => pure l

/-! #### Names and paths -/

omit H in
theorem delName {s s' : Scope} (scope : s.Veiled T s') (name : String) :
    (LiveBinding.delName s name).Loose T (LiveBinding.delName s' name) := by
  obtain ⟨t, _, rfl⟩ := scope
  refine reading (fun same => ?_) fun there => ?_
  · exact same.answer (f := fun w => (w.layer s.locals).contains name) fun _ => rfl
  · split
    · exact changing_apart (fun _ _ => rfl) False.elim
    · exact throw _

omit H in
/-- The reserved names mean the same, but for that of the tracer. -/
theorem reservedValue {s s' : Scope} (scope : s.Veiled T s') {r : Reserved}
    (right : s' = s ∨ r ≠ .tracer) :
    (LiveBinding.reservedValue s r).Veiled T (LiveBinding.reservedValue s' r) := by
  obtain ⟨t, hides, rfl⟩ := scope
  cases r with
  | self => exact pure _
  | change => exact pure _
  | tracer =>
    have same : t = s.tracer := by
      rcases right with same | other
      · exact congrArg Scope.tracer same
      · exact absurd rfl other
    rw [same]
    exact pure _
  | nonlocals =>
    refine reading (fun same => same.answer (f := (·.has s.owner)) (T.has_veil · s.owner)) ?_
    intro there
    split
    · refine seq (addObject ?_ fun _ w => w.sameKeepers_addObject nofun) fun view => pure _
      obtain rfl | ⟨here, rfl⟩ := hides
      · exact .same _
      · rw [here]
        exact .view _
    · exact pure none

theorem outerName {s s' : Scope} (scope : s.Veiled T s') (name : String) :
    (LiveBinding.outerName self s name).Veiled T (LiveBinding.outerName other s' name) := by
  obtain ⟨t, hides, rfl⟩ := scope
  refine seq (H.loadName s.owner name hides) fun v => ?_
  cases v with
  | some v => exact pure v
  | none =>
    dsimp only
    cases s.environment.globals.get? name with
    | some v => exact pure v
    | none =>
      cases s.environment.builtins.get? name with
      | some v => exact pure v
      | none => exact throw _

/-- Without a reserved meaning a name is looked for in the locals first. -/
theorem plainName {s s' : Scope} (scope : s.Veiled T s') (name : String) : Action.Veiled T
    (do
      match ← Action.read fun w => (w.layer s.locals).get? name with
      | some v => return v
      | none => LiveBinding.outerName self s name : Action Value)
    (do
      match ← Action.read fun w => (w.layer s'.locals).get? name with
      | some v => return v
      | none => LiveBinding.outerName other s' name : Action Value) := by
  have locals : s'.locals = s.locals := by
    obtain ⟨t, _, rfl⟩ := scope
    rfl
  rw [locals]
  refine reading (fun same => ?_) fun v => ?_
  · exact same.answer (f := fun w => (w.layer s.locals).get? name) fun _ => rfl
  · cases v with
    | some v => exact pure v
    | none => exact H.outerName scope name

/-- A name other than that of the tracer means the same. -/
theorem getName {s s' : Scope} (scope : s.Veiled T s') {name : String}
    (right : s' = s ∨ name ≠ Reserved.tracer.name) :
    (LiveBinding.getName self s name).Veiled T (LiveBinding.getName other s' name) := by
  unfold LiveBinding.getName
  cases given : Reserved.ofName? name with
  | none => exact H.plainName scope name
  | some r =>
    refine seq (reservedValue scope (right.imp_right fun other => ?_)) fun v => ?_
    · rintro rfl
      have is : Reserved.tracer.name = name := by simpa using List.find?_some given
      exact other is.symm
    · cases v with
      | some v => exact pure v
      | none => exact H.plainName scope name

theorem followPath (path : Path) (names : List String) (v : Value) :
    (LiveBinding.follow self path names v).Veiled T
      (LiveBinding.follow other path names v) := by
  induction names generalizing v with
  | nil => exact pure v
  | cons name rest ih =>
    refine seq (attempt (H.getAttr v name)) fun x => ?_
    cases x with
    | ok x => exact ih x
    | error e =>
      cases e with
      | access cause => exact reading typeNameOf fun _ => throw _
      | _ => exact throw _

theorem resolve {s s' : Scope} (scope : s.Veiled T s') {path : Path}
    (right : s' = s ∨ path.root ≠ Reserved.tracer.name) :
    (LiveBinding.resolve self s path).Veiled T (LiveBinding.resolve other s' path) :=
  seq (mapError _ (H.getName scope right)) fun v => H.followPath path path.hops v

omit H in
theorem setItem (v key x : Value) :
    (LiveBinding.setItem v key x).Loose T (LiveBinding.setItem v key x) := by
  have badKey (c key : Value) : Action.Loose T (fun w => some (.error (w.badKey c key), w))
      (fun w => some (.error (w.badKey c key), w) : Action Unit) := by
    exact choosing (f := (·.badKey c key)) (g := Action.throw) (h := Action.throw)
      (fun same => same.answer (f := (·.badKey c key)) (T.badKey_veil · c key)) throw
  have notSubscriptable (v : Value) : Action.Loose T
      (fun w => some (.error (w.notSubscriptable v), w))
      (fun w => some (.error (w.notSubscriptable v), w) : Action Unit) := by
    exact choosing (f := (·.notSubscriptable v)) (g := Action.throw) (h := Action.throw)
      (fun same => same.answer (f := (·.notSubscriptable v)) (T.notSubscriptable_veil · v)) throw
  cases v with
  | list r =>
    cases key with
    | int i =>
      have steps (w : World) : LiveBinding.setItem (.list r) (.int i) x w =
          ((World.place? i (w.items r).length).elim
            (fun w => some (.error (w.badKey (.list r) (.int i)), w))
            fun n => Action.update (·.modifyList r fun items => items.set n x)) w := by
        simp only [LiveBinding.setItem, World.setItem]
        cases World.place? i (w.items r).length <;> rfl
      exact optional (fun _ => rfl) steps steps (badKey _ _) fun n =>
        changing_apart (fun _ _ => rfl) False.elim
    | _ => exact badKey _ _
  | map r =>
    cases key with
    | str k =>
      exact changing_apart (g := (·.modifyMap r fun entries => entries.insert k x)) (fun _ _ => rfl)
        False.elim
    | _ => exact badKey _ _
  | _ => exact notSubscriptable _

theorem assignTarget {s s' : Scope} (scope : s.Veiled T s') (v : Value) {target : Target}
    (right : s' = s ∨ target.root? ≠ some Reserved.tracer.name) :
    (LiveBinding.assignTarget self s v target).Loose T
      (LiveBinding.assignTarget other s' v target) := by
  have root {name : String} (is : target.root? = some name) :
      s' = s ∨ name ≠ Reserved.tracer.name :=
    right.imp_right fun other same => other (is.trans (congrArg some same))
  cases target with
  | name name =>
    show Action.Loose T (if isReserved name then _ else _) (if isReserved name then _ else _)
    split
    · exact throw _
    · exact mapError _ (H.setName scope name v)
  | attr base name =>
    exact after (H.resolve scope (root rfl)) fun o => mapError _ (H.setAttr o name v)
  | item base key =>
    exact after (H.resolve scope (root rfl)) fun o => mapError _ (setItem o key v)
  | call function args =>
    refine after (mapError _ (H.getName scope (root rfl))) fun f => reading (fun same => ?_) ?_
    · cases f with
      | native n =>
        exact same.answer (f := fun w => decide (w.nativeName n = getattrName)) fun _ => rfl
      | _ => rfl
    · intro invertible
      split
      · split
        · exact mapError _ (H.setAttr _ _ v)
        · exact throw _
      · exact throw _
  | unsupported shape => exact throw _

theorem invert {s s' : Scope} (scope : s.Veiled T s') (v : Value) {target : Target}
    (right : s' = s ∨ target.root? ≠ some Reserved.tracer.name) :
    (LiveBinding.invert self s target v).Loose T (LiveBinding.invert other s' target v) := by
  refine seq (attempt (holdingSame _ (H.assignTarget scope v right))) fun r => ?_
  cases r with
  | ok _ => exact pure ()
  | error e =>
    refine reading (fun same => ?_) fun text => seq (log _) fun _ => throw e
    exact same.answer (f := (·.targetText target)) (T.targetText_veil · target)

/-! #### Calls and traces -/

theorem runNative (f : NativeRef) (args : List Value) :
    (LiveBinding.runNative self f args).Veiled T (LiveBinding.runNative other f args) := by
  have steps (self : Performer) (w : World) : LiveBinding.runNative self f args w =
      (w.natives[f.index]?.elim (Pure.pure .null) fun n => (n.code args).run self) w := by
    rw [LiveBinding.runNative]
    cases w.natives[f.index]? <;> rfl
  exact optional (fun _ => rfl) (steps self) (steps other) (pure Value.null) fun n =>
    H.run (.refl (n.code args))

theorem callValue (f : Value) (args : List Value) :
    (LiveBinding.callValue self f args).Veiled T (LiveBinding.callValue other f args) := by
  unfold LiveBinding.callValue
  split
  · exact holdingSame _ (H.runNative _ args)
  · exact reading typeNameOf fun _ => throw _

theorem loadAttr (t : TracerRef) (v : Value) (name : String) :
    (LiveBinding.loadAttr self t v name).Veiled T (LiveBinding.loadAttr other t v name) := by
  refine seq (holdingSame _ (H.getAttr v name)) fun x => ?_
  cases v with
  | object o => exact seq (Action.VeiledAs.record t _) fun _ => pure x
  | _ => exact pure x

omit H in
theorem told (t : TracerRef) (f : Value) (args : List Value) (x : Value) :
    (LiveBinding.told t f args x).Veiled T (LiveBinding.told t f args x) := by
  have steps (w : World) : LiveBinding.told t f args x w =
      ((w.readBy f args).elim (Pure.pure x) fun d => do
        Action.update (·.modifyTracer t (·.record d))
        return x) w := by
    rw [LiveBinding.told]
    cases w.readBy f args <;> rfl
  exact optional (fun _ => rfl) steps steps (pure x) fun d =>
    seq (Action.VeiledAs.record t d) fun _ => pure x

theorem callTraced (t : TracerRef) (f : Value) (args : List Value) :
    (LiveBinding.callTraced self t f args).Veiled T
      (LiveBinding.callTraced other t f args) := by
  rw [callTraced_eq, callTraced_eq]
  exact seq (holdingSame _ (H.callValue f args)) fun x => told t f args x

/-! #### Requests -/

omit H in
theorem visible {s s' : Scope} (scope : s.Veiled T s') {name : String}
    (right : s' = s ∨ name ≠ Reserved.tracer.name) (same : T.Same w w') :
    w'.visible s' name = w.visible s name := by
  have available {r : Reserved} (given : Reserved.ofName? name = some r) :
      w'.available s' r = w.available s r := by
    obtain ⟨t, _, rfl⟩ := scope
    cases r with
    | self => rfl
    | change => rfl
    | nonlocals => exact same.answer (f := (·.has s.owner)) (T.has_veil · s.owner)
    | tracer =>
      have is : Reserved.tracer.name = name := by simpa using List.find?_some given
      exact right.elim (fun same => by rw [same]; rfl) fun other => absurd is.symm other
  have layer : w'.layer s.locals = w.layer s.locals :=
    same.answer (f := (·.layer s.locals)) fun _ => rfl
  have parts : s'.owner = s.owner ∧ s'.locals = s.locals ∧ s'.environment = s.environment := by
    obtain ⟨t, _, rfl⟩ := scope
    exact ⟨rfl, rfl, rfl⟩
  unfold World.visible
  rw [parts.1, parts.2.1, parts.2.2, layer, same.nearest? s.owner name]
  cases given : Reserved.ofName? name with
  | none => rfl
  | some r => simp only [available given]

omit H in
/-- What is asked of the world, apart from the record of the tracer. -/
theorem query (q : Query α) (mute : (Request.query q).reveals T.tracer = false)
    (same : T.Same w w') : q.answer w' = q.answer w := by
  cases q with
  | typeName v => exact typeNameOf same
  | isTrue v => exact same.answer (f := (·.isTrue v)) (T.isTrue_veil · v)
  | equal a b => exact same.answer (f := (·.equal a b)) (T.equal_veil · a b)
  | text v => exact same.answer (f := (·.text v)) (T.text_veil · v)
  | snapshot v => exact same.answer (f := (·.snapshot v)) (T.snapshot_veil · v)
  | describe o => exact same.answer (f := (·.describe o)) (T.describe_veil · o)
  | hasAttribute o name => exact same.hasAttribute o name
  | stored o name => exact stored? same
  | parent o => exact same.parent? o
  | localStorage o key =>
    exact same.answer (f := (·.localStorage? o key)) (T.localStorage?_veil · o key)
  | registryOf o => exact same.answer (f := (·.registryOf? o)) (T.registryOf?_veil · o)
  | engineOf o => exact same.answer (f := (·.engineOf? o)) (T.engineOf?_veil · o)
  | change o => exact same.answer (f := (·.change? o)) (T.change?_veil · o)
  | visible s name => exact visible (.refl s) (.inl rfl) same
  | tracer t =>
    have other : t ≠ T.tracer := of_decide_eq_false mute
    refine same.answer (f := (·.tracer t)) fun w => ?_
    rw [T.tracer_veil, if_neg other]
  | observerCount r name =>
    have registry : w'.registry r = w.registry r :=
      same.answer (f := (·.registry r)) fun _ => rfl
    show ((w'.registry r).observers name).countP _ = ((w.registry r).observers name).countP _
    rw [registry]
    refine List.countP_congr fun x _ => Bool.eq_iff_iff.1 (same.isLive ?_)
    cases x <;> exact nofun
  | scopeText s => exact same.answer (f := (·.scopeText s)) (T.scopeText_veil · s)
  | inverterText s =>
    exact congrArg (fun text => World.record "Inverter" [("scope", text)])
      (same.answer (f := (·.scopeText s)) (T.scopeText_veil · s))
  | tracerText t =>
    have other : t ≠ T.tracer := of_decide_eq_false mute
    exact same.answer (f := fun w => w.tracerText (w.tracer t)) (T.tracerText_veil · other)
  | changeText o =>
    refine same.answer (f := fun w => (w.change? o).elim "" w.changeText) fun w => ?_
    rw [T.change?_veil, funext (T.changeText_veil w)]
  | items r => exact same.answer (f := (·.items r)) fun _ => rfl
  | entries r => exact same.answer (f := (·.entries r)) fun _ => rfl
  | nativeName f => exact same.answer (f := (·.nativeName f)) fun _ => rfl
  | layer l => exact same.answer (f := (·.layer l)) fun _ => rfl
  | functionName f => exact same.answer (f := (·.functionName f)) fun _ => rfl
  | functionEnvironment f => exact same.answer (f := (·.functionEnvironment f)) fun _ => rfl
  | observedNames r => exact same.answer (f := fun w => (w.registry r).slots.size) fun _ => rfl
  | engine e => exact engine same
  | variablesConfig =>
    exact same.answer (f := fun w => Config.ofVariables w.hostVariables) fun _ => rfl
  | kept drawer label =>
    exact same.answer (f := fun w => w.desk.kept.get? (drawer, label)) fun _ => rfl

omit H in
/-- Labels may change as long as others still keep what they are to keep. -/
theorem relabel (g : Desk → Desk) :
    (Action.update (·.modifyDesk g)).Loose T (Action.update (·.modifyDesk g)) := by
  refine update (fun begun => .of_eq begun rfl) (fun {w w'} same _ sustained => ?_) False.elim
  have veil (w : World) : T.veil (w.modifyDesk g) = (T.veil w).modifyDesk g := rfl
  exact {same with veiled := by rw [veil, veil, same.veiled], sustained := sustained}

omit H in
theorem spend : (LiveBinding.spend).Veiled T LiveBinding.spend := by
  rw [spend_eq]
  refine reading (fun same => ?_) fun n => ?_
  · exact same.answer (f := fun w => w.desk.allowance) fun _ => rfl
  · cases n with
    | zero => exact pure false
    | succ n => exact seq (changing_apart (fun _ _ => rfl) fun _ _ => ⟨rfl, rfl⟩) fun _ => pure true

/-- Every request is answered with the tracer as it is without, unless it asks what the tracer has
recorded. -/
theorem respond {q q' : Request α} (veiled : q.Veiled T q') (mute : q.reveals T.tracer = false) :
    Action.Veiled T
      (fun w => (LiveBinding.respond self α q w).filter fun x => T.sustains w && T.sustains x.2)
      (LiveBinding.respond other α q') := by
  have quiet {k : Prop} {β : Type} {a b : Action β} (veiled : a.VeiledAs T k b) :=
    sustained (fun w u => T.sustains w && T.sustains u) (fun w u kept =>
      ((Bool.and_eq_true _ _).mp kept).imp sustains_iff.1 sustains_iff.1) veiled
  cases veiled with
  | holding handles body => exact quiet (holding handles (H.run body))
  | visible scope other => exact quiet (k := False) (read (visible scope (.inr other)))
  | getName scope other => exact quiet (H.getName scope (.inr other))
  | setName scope => exact quiet (H.setName scope _ _)
  | delName scope => exact quiet (delName scope _)
  | invert scope other => exact quiet (H.invert scope _ (.inr other))
  | callFunction scope body => exact quiet (H.callFunction scope (.inr body) _)
  | same =>
    cases q with
    | keep label k => exact quiet (relabel _)
    | release drawer label => exact quiet (relabel _)
    | query q => exact quiet (k := False) (read (query q mute))
    | holding hs p => exact quiet (holdingSame hs (H.run (.refl p)))
    | newList items => exact quiet (seq (adding_apart (fun _ _ => rfl) False.elim) fun _ => pure _)
    | newMap entries => exact quiet (seq (adding_apart (fun _ _ => rfl) False.elim) fun _ => pure _)
    | newNative name captured code =>
      exact quiet (adding_apart (f := fun w =>
        let added := w.addNative ⟨name, captured, code⟩
        (added.1, Value.native added.2)) (fun _ _ => rfl) False.elim)
    | newFunction name environment code =>
      exact quiet (adding (f := fun w => w.addFunction ⟨name, environment, code⟩)
        { veil := fun _ => rfl
          views := fun _ _ _ _ => .rfl
          tracers := fun _ => rfl
          held := fun _ => rfl
          functions := fun w i x here => by
            rw [World.addFunction, Array.getElem?_push, if_neg]
            · exact here
            · exact Nat.ne_of_lt (Array.getElem?_eq_some_iff.1 here).1 } (fun _ => rfl) False.elim)
    | getAttr v name => exact quiet (H.getAttr v name)
    | setAttr v name x => exact quiet (H.setAttr v name x)
    | getItem v key =>
      refine quiet (k := False)
        (choosing (f := (·.getItem v key)) (g := Action.ofExcept) (h := Action.ofExcept)
        (fun same => ?_) ofExcept)
      exact same.answer (f := (·.getItem v key)) (T.getItem_veil · v key)
    | setItem v key x => exact quiet (setItem v key x)
    | call f args => exact quiet (H.callValue f args)
    | newObject b => exact quiet (newObject b)
    | newChange c => exact quiet (addObject (.same _) False.elim)
    | readAttr o name => exact quiet (H.readAttr o name)
    | emit o name x => exact quiet (H.emit o name x)
    | clear o name => exact quiet (H.clear o name)
    | populate o => exact quiet (H.populate o)
    | bind o name op f key => exact quiet (bindAttribute o name op f key)
    | localSlot o key => exact quiet (localSlot o key)
    | newLayer locals =>
      exact quiet (adding_apart (f := (·.addLayer locals)) (fun _ _ => rfl) False.elim)
    | storeLocal l name v => exact quiet (changing_apart (fun _ _ => rfl) False.elim)
    | getName s name => exact quiet (H.getName (.refl s) (.inl rfl))
    | setName s name x => exact quiet (H.setName (.refl s) name x)
    | delName s name => exact quiet (delName (.refl s) name)
    | invert s target x => exact quiet (H.invert (.refl s) x (.inl rfl))
    | callFunction f args s => exact quiet (H.callSame f args s)
    | freshKey =>
      exact quiet (adding_apart (f := fun w =>
        ({w with freshKeys := w.freshKeys + 1}, ScopeKey.fresh w.freshKeys)) (fun _ _ => rfl)
        False.elim)
    | newRegistry =>
      exact quiet (adding_apart (f := (·.addRegistry .empty)) (fun _ _ => rfl) False.elim)
    | subscribe r name code =>
      exact quiet (seq (adding_apart (fun _ _ => rfl) False.elim) fun c =>
        seq (changing_apart (fun _ _ => rfl) fun _ _ => ⟨rfl, rfl⟩) fun _ => pure _)
    | notify r change => exact quiet (H.notify r change)
    | newTracer owner name => exact quiet (k := False) (addTracer _)
    | trace t o name => exact quiet (k := False) (Action.VeiledAs.record t _)
    | loadAttr t v name => exact quiet (H.loadAttr t v name)
    | callTraced t f args => exact quiet (H.callTraced t f args)
    | finalize t =>
      have other : t ≠ T.tracer := of_decide_eq_false mute
      refine quiet (k := False)
        (reading (fun same => ?_) fun ds => seq (drain other) fun _ => pure ds)
      rw [same.answer (f := (·.tracer t)) fun w => by rw [T.tracer_veil, if_neg other]]
    | invoke h i => exact quiet (H.invoke h i)
    | readWith h owner name => exact quiet (H.handlerRead h owner name)
    | readTraced h owner name => exact quiet (H.readTraced h owner name)
    | writeWith h owner name change => exact quiet (H.handlerWrite h owner name change)
    | newEngine config => exact quiet (newEngine config)
    | addBinding e name op f key => exact quiet (changing_apart (fun _ _ => rfl) False.elim)
    | readBinding e owner name => exact quiet (holdingSame _ (H.readBinding e owner name))
    | writeBinding e owner name change =>
      exact quiet (holdingSame _ (H.writeBinding e owner name change))
    | updateBinding e owner name => exact quiet (H.updateBinding e owner name)
    | clearSubscriptions e => exact quiet (changing_apart (fun _ _ => rfl) False.elim)
    | globalConfig => exact quiet globalConfig
    | setGlobalConfig c =>
      exact quiet (after globalConfig fun _ => changing_apart (fun _ _ => rfl) False.elim)
    | setVariables v => exact quiet (changing_apart (fun _ _ => rfl) False.elim)
    | record e => exact quiet (changing_apart (fun _ _ => rfl) False.elim)
    | spend => exact quiet spend

end TracedCall.Unseen

end LiveBinding
