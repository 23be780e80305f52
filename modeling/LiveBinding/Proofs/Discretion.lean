import LiveBinding.Proofs.Determined
import LiveBinding.Proofs.Recording

/-! Operations that leave a tracer to its evaluation.

One lemma an operation, in the order in which operations are made of each other. Whatever an
operation asks a performer for leaves the tracer alone, so the operation records no more than what
it reads for the request that it answers. The tracers of other evaluations are newer than any tracer
that is there when these begin, and an engine that links an attribute anew drains no other. -/
namespace LiveBinding

/-- The first performer leaves the tracer alone, and what it answers the second answers too. -/
structure Discreet (t : TracerRef) (one other : Performer) : Prop where
  asked : ∀ (β : Type) (q : Request β), (one β q).Refines (Records t []) (other β q)
  persists : ∀ (β : Type) (q : Request β), (one β q).Keeps World.Persists

namespace Discreet
open LiveBinding.Action Records Steady
variable {t : TracerRef} {α β : Type} {w : World}

section
variable {a b : Action α} {f g : α → Action β}

theorem pure (x : α) : (Pure.pure x : Action α).Refines (Records t []) (Pure.pure x) :=
  (steady.pure x).refines

theorem throw (e : BindError) :
    (Action.throw e : Action α).Refines (Records t []) (Action.throw e) :=
  (steady.throw e).refines

theorem log (e : LogEntry) : (Action.log e).Refines (Records t []) (Action.log e) :=
  (steady.log e).refines

theorem seq (first : a.Refines (Records t []) b) (next : ∀ x, (f x).Refines (Records t []) (g x)) :
    (a >>= f).Refines (Records t []) (b >>= g) := fun w => (first w).silently next

theorem attempt (refines : a.Refines (Records t []) b) :
    a.attempt.Refines (Records t []) b.attempt := fun w => (refines w).attempt

theorem holding (hs : List Handle) (refines : a.Refines (Records t []) b) :
    (Action.holding hs a).Refines (Records t []) (Action.holding hs b) := fun _ =>
    .holding (refines _)

theorem reading {f : World → α} {g h : α → Action β}
    (next : ∀ x, (g x).Refines (Records t []) (h x)) :
    (Action.read f >>= g).Refines (Records t []) (Action.read f >>= h) := fun w => next _ w

theorem reading_at {f : World → α} {g h : α → Action β} {ds : List Dependency}
    (next : (g (f w)).RefinesAt (Records t ds) w (h (f w))) :
    (Action.read f >>= g).RefinesAt (Records t ds) w (Action.read f >>= h) := next

/-- Goes on from a change that does not touch tracers. -/
theorem changing {f : World → World} {g h : Unit → Action β}
    (same : ∀ w, (f w).tracers = w.tracers) (next : (g ()).Refines (Records t []) (h ())) :
    (Action.update f >>= g).Refines (Records t []) (Action.update f >>= h) := fun w r w' run =>
  ⟨(next _ r w' run).1, (of_tracers (same w)).trans (next _ r w' run).2⟩

/-- Goes on with a cell that is none of a tracer. -/
theorem adding {f : World → World × α} {g h : α → Action β}
    (same : ∀ w, (f w).1.tracers = w.tracers) (next : ∀ x, (g x).Refines (Records t []) (h x)) :
    (Action.add f >>= g).Refines (Records t []) (Action.add f >>= h) := fun w r w' run =>
  ⟨(next _ _ r w' run).1, (of_tracers (same w)).trans (next _ _ r w' run).2⟩

end

variable {self other : Performer} (H : Discreet t self other)
include H

/-! #### Bodies and handlers -/

theorem run (p : Program α) : (p.run self).Refines (Records t []) (p.run other) := by
  match p with
  | .done r => exact (steady.ofExcept r).refines
  | .ask q k =>
    intro w r w' ended
    unfold Program.run at ended ⊢
    split at ended
    · cases ended
    · next r' u answer =>
      obtain ⟨also, here⟩ := H.asked _ q w _ _ answer
      obtain ⟨rest, there⟩ := run (k r') u r w' ended
      rw [also]
      exact ⟨rest, here.trans there⟩
termination_by structural p

theorem callFunction (f : FunctionRef) (args : Arguments) (s : Scope) :
    (LiveBinding.callFunction self f args s).Refines (Records t [])
      (LiveBinding.callFunction other f args s) := by
  intro w
  have called : Records t [] w (w.called f args s) := of_tracers rfl
  rw [RefinesAt, callFunction_eq, callFunction_eq]
  by_cases allowed : w.depth + 1 ≤ w.limitInForce
  · rw [if_pos allowed, if_pos allowed]
    intro r w' run
    have code : (runCode self f s args).Refines (Records t []) (runCode other f s args) :=
      fun w => H.run (w.code f s args) w
    have body := holding (.function f :: s.handles ++ args.handles) code
    obtain ⟨also, here⟩ := RefinesAt.within (fun here => here) (body _) r w' run
    exact ⟨also, called.trans here⟩
  · rw [if_neg allowed, if_neg allowed]
    intro r w' run
    cases run
    exact ⟨rfl, called⟩

theorem invoke (h : Handler) (i : Invocation) :
    (h.invoke self i).Refines (Records t []) (h.invoke other i) := by
  have scope (owner : ObjectId) := (steady (t := t)).scope h owner
  refine holding i.handles ?_
  split
  · exact seq (scope _).refines fun s => seq (H.callFunction _ _ _) fun v => pure _
  · have traced (owner : ObjectId) (name : String) :
        (Action.add (·.addTracer (.start owner name))).Keeps (Records t []) :=
      fun w => .of_eq rfl (newTracer _ w)
    refine seq (traced _ _).refines fun u => seq (scope _).refines fun s => ?_
    exact seq (H.callFunction _ _ _) fun v => pure _
  · exact seq (scope _).refines fun s => seq (H.callFunction _ _ _) fun v => pure _
  · refine seq (scope _).refines fun s => reading fun v => ?_
    exact seq (H.callFunction _ _ _) fun _ => pure _
  · exact throw _

theorem handlerRead (h : Handler) (owner : ObjectId) (name : String) :
    (h.read self owner name).Refines (Records t []) (h.read other owner name) := by
  refine seq (H.invoke h _) fun outcome => ?_
  cases outcome with
  | value v => exact pure v
  | traced v u => exact pure v
  | written => exact throw _

theorem readTraced (h : Handler) (owner : ObjectId) (name : String) :
    (h.readTraced self owner name).Refines (Records t []) (h.readTraced other owner name) := by
  unfold Handler.readTraced
  split
  · refine seq (H.invoke h _) fun outcome => ?_
    cases outcome with
    | traced v u => exact pure _
    | value v => exact throw _
    | written => exact throw _
  · exact throw _

theorem handlerWrite (h : Handler) (owner : ObjectId) (name : String) (change : ObjectId) :
    (h.write self owner name change).Refines (Records t []) (h.write other owner name change) :=
  seq (H.invoke h _) fun _ => pure ()

/-! #### Engines -/

omit H in
/-- Linking an attribute anew drains no tracer but that of the evaluation. -/
theorem relink {u : TracerRef} (apart : u ≠ t) (e : EngineRef) (owner : ObjectId) (name : String) :
    (do Engine.conclude e owner name u; Engine.relink e owner name u).Keeps (Records t []) :=
  steady.relink e owner name u (fun _ _ => of_tracers rfl) (drain apart) (fun _ _ => of_tracers rfl)
    (fun _ _ _ _ => of_tracers rfl) fun _ _ => of_tracers rfl

theorem evaluate (e : EngineRef) (owner : ObjectId) (name : String) (h : Handler) :
    (Engine.evaluate self e owner name h).Refines (Records t [])
      (Engine.evaluate other e owner name h) := by
  intro w
  unfold Engine.evaluate
  split
  · have reads := H.readTraced h owner name w
    intro r w' run
    rcases exists_of_bind run with ⟨e', failed, rfl⟩ | ⟨x, u, succeeded, rest⟩
    · obtain ⟨also, here⟩ := reads _ _ failed
      exact ⟨by rw [bind_apply, also], here⟩
    · obtain ⟨also, here⟩ := reads _ _ succeeded
      refine ⟨by rw [bind_apply, also]; exact rest, fun inside => ?_⟩
      -- the tracer of the evaluation is newer than every tracer that was there
      obtain ⟨_, _, new, _⟩ := Handler.exists_of_readTraced succeeded
      have apart : x.2 ≠ t := by
        rw [new]
        rintro rfl
        exact Nat.lt_irrefl _ inside
      have linked := steady.seq (relink apart e owner name) fun _ => steady.pure (some x.1)
      rw [Action.bind_assoc] at linked
      exact (here.trans (linked u r w' rest)) inside
  · exact seq (H.handlerRead h owner name) (fun v => pure (some v)) w

theorem readBinding (e : EngineRef) (owner : ObjectId) (name : String) :
    (Engine.read self e owner name).Refines (Records t []) (Engine.read other e owner name) := by
  refine reading fun g => ?_
  split
  · exact pure none
  · next h _ =>
    refine fun w => .within (fun here => here) ?_
    exact seq (attempt (H.evaluate e owner name h)) (fun r => (steady.settle _ _ _ _ r).refines) _

theorem writeBinding (e : EngineRef) (owner : ObjectId) (name : String) (change : ObjectId) :
    (Engine.write self e owner name change).Refines (Records t [])
      (Engine.write other e owner name change) := by
  refine reading fun g => ?_
  split
  · exact log _
  · split
    · exact pure ()
    · next h _ =>
      refine fun w => .within (fun here => here) ?_
      exact seq (attempt (H.handlerWrite h owner name change))
        (fun r => (steady.settle _ _ _ _ r).refines) _

theorem updateBinding (e : EngineRef) (owner : ObjectId) (name : String) :
    (Engine.update self e owner name).Refines (Records t [])
      (Engine.update other e owner name) := by
  refine holding _ (seq (H.readBinding e owner name) fun v => ?_)
  cases v with
  | none => exact pure ()
  | some v =>
    refine reading fun text => seq (log _) fun _ w => ?_
    have up : (w.guard e name).tracers = w.tracers := by
      unfold World.guard
      split <;> rfl
    refine .within (fun {w'} here => (of_tracers up).trans (here.trans (of_tracers ?_)))
      (H.asked _ _ _)
    show (w.unguard w' e name).tracers = w'.tracers
    unfold World.unguard
    split <;> rfl

/-! #### Changes -/

theorem refresh (l : Link) (c : Change) :
    (LiveBinding.refresh self l c).Refines (Records t []) (LiveBinding.refresh other l c) := by
  refine reading fun engine => reading fun owner => ?_
  split
  · refine seq (log _) fun _ => seq (attempt (H.updateBinding l.engine l.owner l.name)) fun r => ?_
    cases r with
    | ok _ => exact pure ()
    | error e => exact log _
  · exact pure ()

theorem react (change : ObjectId) (x : Observer) :
    (LiveBinding.react self change x).Refines (Records t [])
      (LiveBinding.react other change x) := by
  intro w
  have silent : (Pure.pure () : Action Unit).RefinesAt (Records t []) w (Pure.pure ()) := pure () w
  cases x with
  | watcher c =>
    cases found : w.watchers[c.index]? with
    | none =>
      refine .congr ?_ ?_ silent
      all_goals simp only [LiveBinding.react, found, Action.pure_apply]
    | some x =>
      have watched : (watch self x change).Refines (Records t []) (watch other x change) :=
        seq (attempt (H.run (x.code change))) fun _ => pure ()
      refine .congr ?_ ?_ (watched w)
      all_goals simp only [LiveBinding.react, found]
  | link l =>
    cases found : w.links[l.index]? with
    | none =>
      refine .congr ?_ ?_ silent
      all_goals simp only [LiveBinding.react, found, Action.pure_apply]
    | some x =>
      cases what : w.change? change with
      | none =>
        refine .congr ?_ ?_ silent
        all_goals simp only [LiveBinding.react, found, what, Action.pure_apply]
      | some c =>
        refine .congr ?_ ?_ (H.refresh x c w)
        all_goals simp only [LiveBinding.react, found, what]

theorem inform (change : ObjectId) (x : Observer) :
    (LiveBinding.inform self change x).Refines (Records t [])
      (LiveBinding.inform other change x) :=
  changing (fun _ => rfl) (H.react change x)

theorem deliver (change : ObjectId) (xs : List Observer) :
    (LiveBinding.deliver self change xs).Refines (Records t [])
      (LiveBinding.deliver other change xs) := by
  induction xs with
  | nil => exact pure ()
  | cons x rest ih => exact seq (H.inform change x) fun _ => ih

theorem notify (r : RegistryRef) (change : ObjectId) :
    (LiveBinding.notify self r change).Refines (Records t [])
      (LiveBinding.notify other r change) := by
  refine reading fun c => ?_
  cases c with
  | none => exact pure 0
  | some c =>
    refine reading fun observers => ?_
    cases observers with
    | none => exact pure 0
    | some xs =>
      refine reading fun live => changing (fun _ => rfl) (seq (log _) fun _ => ?_)
      exact seq (holding _ (H.deliver change live)) fun _ => pure _

/-- What the engine of an object does about a change. -/
theorem writeBack (o : ObjectId) (name : String) (change : ObjectId) : Action.Refines (Records t [])
    (do
      match ← Action.read (·.engineOf? o) with
      | some e => Action.holding [.engine e] (Engine.write self e o name change)
      | none => Pure.pure () : Action Unit)
    (do
      match ← Action.read (·.engineOf? o) with
      | some e => Action.holding [.engine e] (Engine.write other e o name change)
      | none => Pure.pure () : Action Unit) := by
  refine reading fun e => ?_
  cases e with
  | none => exact pure ()
  | some e => exact holding _ (H.writeBinding e o name change)

theorem dispatch (o : ObjectId) (kind : ChangeKind) (name : String) (old new : Value) :
    (LiveBinding.dispatch self o kind name old new).Refines (Records t [])
      (LiveBinding.dispatch other o kind name old new) := by
  refine adding (fun _ => rfl) fun change => holding _ (reading fun r => ?_)
  cases r with
  | none => exact H.writeBack o name change
  | some r => exact seq (H.notify r change) fun _ => H.writeBack o name change

theorem assignDeclared (o : ObjectId) (d : Declared) (name : String) (v : Value) :
    (LiveBinding.assignDeclared self o d name v).Refines (Records t [])
      (LiveBinding.assignDeclared other o d name v) := by
  have told (kind : ChangeKind) (old : Value) : Action.Refines (Records t [])
      (do storeValue o name v; LiveBinding.dispatch self o kind name old v)
      (do storeValue o name v; LiveBinding.dispatch other o kind name old v) :=
    changing (fun _ => rfl) (H.dispatch o kind name old v)
  unfold LiveBinding.assignDeclared
  split
  · exact throw _
  · split
    · exact throw _
    · split
      · next old _ =>
        refine reading fun same => ?_
        cases same with
        | true => exact pure ()
        | false => exact told .update old
      · exact told .create .null

theorem assign (o : ObjectId) (name : String) (v : Value) :
    (LiveBinding.assign self o name v).Refines (Records t [])
      (LiveBinding.assign other o name v) := by
  refine reading fun entity => ?_
  split
  · exact holding _ (H.assignDeclared o _ name v)
  · split
    · exact throw _
    · exact throw _
  · refine reading fun target => ?_
    split
    · exact holding _ (H.asked _ _)
    · exact reading fun _ => throw _
  · exact throw _

theorem setAttr (v : Value) (name : String) (x : Value) :
    (LiveBinding.setAttr self v name x).Refines (Records t [])
      (LiveBinding.setAttr other v name x) := by
  unfold LiveBinding.setAttr
  split
  · exact H.assign _ name x
  · exact reading fun _ => throw _

theorem setName (s : Scope) (name : String) (x : Value) :
    (LiveBinding.setName self s name x).Refines (Records t [])
      (LiveBinding.setName other s name x) := by
  unfold LiveBinding.setName
  split
  · exact throw _
  · refine reading fun o => ?_
    cases o with
    | some o => exact H.assign o name x
    | none => exact (steady.storeLocal _ _ _).refines

theorem emit (o : ObjectId) (name : String) (v : Value) :
    (LiveBinding.emit self o name v).Refines (Records t []) (LiveBinding.emit other o name v) := by
  refine reading fun there => ?_
  split
  · exact holding _ (H.dispatch o .event name .null v)
  · exact reading fun _ => throw _

theorem clear (o : ObjectId) (name : String) :
    (LiveBinding.clear self o name).Refines (Records t []) (LiveBinding.clear other o name) := by
  refine reading fun d => ?_
  cases d with
  | none => exact pure ()
  | some d =>
    dsimp only
    split
    · exact throw _
    · split
      · exact pure ()
      · exact changing (fun _ => rfl) (H.dispatch o .delete name _ .null)

/-! #### Attributes that are read -/

theorem loadName_at (owner : ObjectId) (name : String) (u : Option TracerRef) :
    (loadName self owner name u).RefinesAt
      (Records t (if u = some t then chainReads other owner name w else [])) w
      (loadName other owner name u) := by
  refine reading_at ?_
  unfold chainReads
  cases w.nearest? owner name with
  | none =>
    rw [ite_self]
    exact pure none w
  | some o =>
    have asked := H.asked _ (.readAttr o name) w
    by_cases own : u = some t
    · subst own
      rw [if_pos rfl]
      refine asked.records fun v w' _ => ?_
      cases v with
      | none => exact pure none w'
      | some v =>
        have recorded := Records.record (t := t) t ⟨o, name⟩ w'
        rw [if_pos rfl] at recorded
        intro r w'' run
        cases run
        exact ⟨rfl, recorded⟩
    · rw [if_neg own]
      refine asked.silently fun v w' => ?_
      cases v with
      | none => exact pure none w'
      | some v =>
        cases u with
        | none => exact pure (some v) w'
        | some u =>
          have recorded := Records.record (t := t) u ⟨o, name⟩ w'
          rw [if_neg fun same => own (congrArg some same)] at recorded
          intro r w'' run
          cases run
          exact ⟨rfl, recorded⟩

theorem readDeclared (o : ObjectId) (d : Declared) (name : String) :
    (LiveBinding.readDeclared self o d name).Refines (Records t [])
      (LiveBinding.readDeclared other o d name) := by
  have found : (do return some ((← Action.read (·.stored? o name)).getD .null) :
      Action (Option Value)).Keeps (Records t []) := steady.seq (steady.read _) fun _ =>
      steady.pure _
  unfold LiveBinding.readDeclared
  split
  · exact pure _
  · split
    · exact pure none
    · split
      · next e _ =>
        refine reading fun reader => ?_
        cases reader with
        | true => exact seq (H.updateBinding e o name) fun _ => found.refines
        | false => exact found.refines
      · exact found.refines

/-- Reading an attribute of an object is recorded if the object is a view of the tracer. -/
theorem readAttr_at (o : ObjectId) (name : String) :
    (readAttr self o name).RefinesAt (Records t (viewReads other t (.object o) name w)) w
      (readAttr other o name) := by
  refine reading_at ?_
  cases found : w.entity? o with
  | none =>
    rw [viewReads, World.viewed?, found]
    exact pure none w
  | some x =>
    rw [viewReads, World.viewed?, found]
    cases x with
    | declared d => exact holding _ (H.readDeclared o d name) w
    | change c => exact pure _ w
    | view owner u =>
      have loaded := H.loadName_at (w := w.hold [.object o]) owner name u
      dsimp only
      split at loaded
      · next own =>
        rw [if_pos own]
        exact .holding loaded
      · next own =>
        rw [if_neg own]
        exact .holding loaded

theorem getAttr_at (v : Value) (name : String) :
    (getAttr self v name).RefinesAt (Records t (viewReads other t v name w)) w
      (getAttr other v name) := by
  cases v with
  | object o =>
    refine (H.readAttr_at o name).silently fun x => ?_
    cases x with
    | some x => exact pure x
    | none => exact reading fun _ => throw _
  | _ => exact reading (fun _ => throw _) w

omit H in
/-- What is known to be a declared object is no view. -/
theorem viewReads_of_registry {o : ObjectId} {r : RegistryRef} (known : w.registryOf? o = some r)
    (name : String) : viewReads other t (.object o) name w = [] := by
  obtain ⟨d, declared, _⟩ := Option.map_eq_some_iff.1 known
  simp only [viewReads, World.viewed?, w.declared?_eq_some.1 declared]

theorem populateAll_at {o : ObjectId} {r : RegistryRef} (known : w.registryOf? o = some r)
    (e : EngineRef) (names : List String) :
    (populateAll self o e names).RefinesAt (Records t []) w (populateAll other o e names) := by
  induction names generalizing w with
  | nil => exact pure () w
  | cons name rest ih =>
    refine reading_at (reading_at ?_)
    split
    · have read := H.readAttr_at (w := w) o name
      rw [viewReads_of_registry known] at read
      intro r' w'' run
      rcases exists_of_bind run with ⟨e', failed, rfl⟩ | ⟨x, w', succeeded, others⟩
      · obtain ⟨also, here⟩ := read _ _ failed
        exact ⟨by rw [bind_apply, also], here⟩
      · -- the object is still a declared one when its attribute has been read
        have reading := (World.frame_persists.itself H.persists).readAttr o name
        have persists := reading.keeps w _ _ succeeded
        obtain ⟨also, here⟩ := read _ _ succeeded
        obtain ⟨ends, there⟩ := ih (persists.registryOf? known) _ _ others
        exact ⟨by rw [bind_apply, also]; exact ends, here.trans there⟩
    · exact ih known

theorem populate (o : ObjectId) :
    (LiveBinding.populate self o).Refines (Records t []) (LiveBinding.populate other o) := by
  intro w
  refine reading_at ?_
  cases engine : w.engineOf? o with
  | none => exact pure () w
  | some e =>
    obtain ⟨d, declared, _⟩ := Option.bind_eq_some_iff.1 engine
    have known : w.registryOf? o = some d.registry := by rw [World.registryOf?, declared]; rfl
    exact reading_at (.holding (H.populateAll_at (w := w.hold _) known e _))

/-! #### Names and paths -/

omit H in
theorem reservedValue_of_unavailable {s : Scope} {r : Reserved} (gone : w.available s r = false) :
    reservedValue s r w = some (.ok none, w) := by
  cases r with
  | self => cases gone
  | change =>
    rw [World.available, Option.isSome_eq_false_iff, Option.isNone_iff_eq_none] at gone
    rw [reservedValue, gone]
    rfl
  | tracer =>
    rw [World.available, Option.isSome_eq_false_iff, Option.isNone_iff_eq_none] at gone
    rw [reservedValue, gone]
    rfl
  | nonlocals =>
    have gone : w.has s.owner = false := gone
    simp only [reservedValue, Action.read_bind, gone]
    rfl

omit H in
theorem exists_of_available {s : Scope} {r : Reserved} (given : w.available s r = true) :
    ∃ v w', reservedValue s r w = some (.ok (some v), w') ∧ w'.tracers = w.tracers := by
  cases r with
  | self => exact ⟨_, w, rfl, rfl⟩
  | change =>
    obtain ⟨o, change⟩ := Option.isSome_iff_exists.1 given
    exact ⟨.object o, w, by rw [reservedValue, change]; rfl, rfl⟩
  | tracer =>
    obtain ⟨u, tracer⟩ := Option.isSome_iff_exists.1 given
    exact ⟨.tracer u, w, by rw [reservedValue, tracer]; rfl, rfl⟩
  | nonlocals =>
    have given : w.has s.owner = true := given
    refine ⟨.object ⟨w.objects.size⟩, (w.addObject (.view s.owner s.tracer)).1, ?_, rfl⟩
    simp only [reservedValue, Action.read_bind, given]
    rfl

theorem outerName_at (s : Scope) (name : String) :
    (outerName self s name).RefinesAt
      (Records t (if s.tracer = some t then chainReads other s.owner name w else [])) w
      (outerName other s name) := by
  refine (H.loadName_at s.owner name s.tracer).silently fun v => ?_
  cases v with
  | some v => exact pure v
  | none =>
    cases s.environment.globals.get? name with
    | some v => exact pure v
    | none =>
      cases s.environment.builtins.get? name with
      | some v => exact pure v
      | none => exact throw _

theorem nameBehind_at (s : Scope) (name : String) : Action.RefinesAt
    (Records t (if s.tracer = some t ∧ (w.layer s.locals).contains name = false then
      chainReads other s.owner name w else [])) w
    (do
      match ← Action.read fun w => (w.layer s.locals).get? name with
      | some v => return v
      | none => outerName self s name : Action Value)
    (do
      match ← Action.read fun w => (w.layer s.locals).get? name with
      | some v => return v
      | none => outerName other s name : Action Value) := by
  refine reading_at ?_
  unfold Dict.contains
  cases (w.layer s.locals).get? name with
  | some v =>
    rw [if_neg (by simp)]
    exact pure v w
  | none =>
    have outer := H.outerName_at (w := w) s name
    simpa using outer

/-- The meaning of a name is recorded if it is an attribute and the scope is one of the tracer. -/
theorem getName_at (s : Scope) (name : String) :
    (getName self s name).RefinesAt (Records t (nameReads other t s name w)) w
      (getName other s name) := by
  have behind := H.nameBehind_at (w := w) s name
  unfold getName nameReads World.nearer
  cases Reserved.ofName? name with
  | none => exact behind
  | some r =>
    dsimp only
    by_cases given : w.available s r = true
    · obtain ⟨v, w', means, same⟩ := exists_of_available given
      rw [if_neg (by simp [given])]
      intro r' w'' run
      rw [bind_apply, means] at run ⊢
      cases run
      exact ⟨rfl, of_tracers same⟩
    · rw [Bool.not_eq_true] at given
      have skipped (f : Option Value → Action Value) : (reservedValue s r >>= f) w = f none w := by
        rw [bind_apply, reservedValue_of_unavailable given]
      simp only [given, Bool.false_or]
      exact .congr (skipped _) (skipped _) behind

theorem follow_at (path : Path) (names : List String) (v : Value) :
    (follow self path names v).RefinesAt
      (Records t ((hops other names v w).flatMap (Hop.reads other t))) w
      (follow other path names v) := by
  induction names generalizing v w with
  | nil => exact pure v w
  | cons name rest ih =>
    intro r w'' run
    rcases exists_of_bind run with ⟨e, failed, _⟩ | ⟨x, w', attempted, others⟩
    · obtain ⟨_, _, ⟨⟩⟩ := exists_of_attempt failed
    · obtain ⟨read, ended, same⟩ := exists_of_attempt attempted
      cases same
      obtain ⟨also, here⟩ := H.getAttr_at v name _ _ ended
      rw [hops, List.flatMap_cons, onSuccess, also, follow, bind_apply, attempt_apply, also]
      cases x with
      | ok x =>
        obtain ⟨ends, there⟩ := ih x r w'' others
        exact ⟨ends, here.trans there⟩
      | error e =>
        -- a failure ends the path
        rw [List.flatMap_nil, List.append_nil]
        cases e with
        | access cause =>
          cases others
          exact ⟨rfl, here⟩
        | _ =>
          cases others
          exact ⟨rfl, here⟩

theorem resolve_at (s : Scope) (path : Path) :
    (resolve self s path).RefinesAt
      (Records t (nameReads other t s path.root w ++
        ((getName other s path.root).onSuccess w (hops other path.hops)).flatMap
        (Hop.reads other t)))
      w (resolve other s path) := by
  rw [onSuccess_flatMap, ← onSuccess_mapError BindError.unresolved]
  exact (H.getName_at s path.root).mapError.records fun v w' _ => H.follow_at path path.hops v

theorem invert_at (s : Scope) (target : Target) (v : Value) :
    (invert self s target v).RefinesAt
      (Records t ((Request.invert s target v).reads other t w)) w (invert other s target v) := by
  refine (RefinesAt.attempt (.holding ?_)).silently fun r => ?_
  · cases target with
    | name name =>
      show RefinesAt _ _ (if isReserved name then _ else _) (if isReserved name then _ else _)
      split
      · exact throw _ _
      · exact (H.setName s name v _).mapError
    | attr base name =>
      exact (H.resolve_at s base).silently fun o w => (H.setAttr o name v w).mapError
    | item base key =>
      exact (H.resolve_at s base).silently fun o w => ((steady.setItem o key v).refines w).mapError
    | call function args =>
      show RefinesAt (Records t (nameReads other t s function _ ++ [])) _ _ _
      rw [List.append_nil]
      refine (H.getName_at s function).mapError.silently fun f => reading fun invertible => ?_
      split
      · split
        · exact fun w => (H.setAttr _ _ v w).mapError
        · exact throw _
      · exact throw _
    | unsupported shape => exact throw _ _
  · cases r with
    | ok _ => exact pure ()
    | error e => exact reading fun _ => seq (log _) fun _ => throw e

/-! #### Calls and traces -/

theorem runNative (f : NativeRef) (args : List Value) :
    (LiveBinding.runNative self f args).Refines (Records t [])
      (LiveBinding.runNative other f args) := by
  intro w
  cases found : w.natives[f.index]? with
  | none =>
    refine .congr ?_ ?_ (pure .null w)
    all_goals simp only [LiveBinding.runNative, found, Action.pure_apply]
  | some n =>
    refine .congr ?_ ?_ (H.run (n.code args) w)
    all_goals simp only [LiveBinding.runNative, found]

theorem callValue (f : Value) (args : List Value) :
    (LiveBinding.callValue self f args).Refines (Records t [])
      (LiveBinding.callValue other f args) := by
  unfold LiveBinding.callValue
  split
  · exact holding _ (H.runNative _ args)
  · exact reading fun _ => throw _

omit H in
theorem record_at (u : TracerRef) (o : ObjectId) (name : String) (x : α) :
    RefinesAt (Records t (if u = t then [⟨o, name⟩] else [])) w
      (do LiveBinding.record u o name; return x) (do LiveBinding.record u o name; return x) := by
  intro r w' run
  cases run
  exact ⟨rfl, Records.record u _ w⟩

theorem loadAttr_at (u : TracerRef) (v : Value) (name : String) :
    (loadAttr self u v name).RefinesAt
      (Records t ((Request.loadAttr u v name).reads other t w)) w (loadAttr other u v name) := by
  refine RefinesAt.records (.holding (H.getAttr_at v name)) fun x w' _ => ?_
  cases v with
  | object o => exact record_at u o name x
  | _ =>
    show RefinesAt (Records t (if u = t then [] else [])) w' _ _
    rw [ite_self]
    exact pure x w'

omit H in
theorem told_at (u : TracerRef) (f : Value) (args : List Value) (x : Value) :
    (told u f args x).RefinesAt (Records t (if u = t then (w.readBy f args).toList else [])) w
      (told u f args x) := by
  cases read : w.readBy f args with
  | none =>
    have same : told u f args x w = (Pure.pure x : Action Value) w := by
      rw [told, read]
      rfl
    refine .congr same same ?_
    rw [Option.toList_none, ite_self]
    exact pure x w
  | some d =>
    have same : told u f args x w =
        (do LiveBinding.record u d.object d.name; return x : Action Value) w := by
      rw [told, read]
      rfl
    exact .congr same same (record_at u d.object d.name x)

theorem callTraced_at (u : TracerRef) (f : Value) (args : List Value) :
    (callTraced self u f args).RefinesAt
      (Records t ((Request.callTraced u f args).reads other t w)) w
      (callTraced other u f args) := by
  rw [callTraced_eq, callTraced_eq]
  exact (RefinesAt.holding (H.callValue f args _)).records fun x w' _ => told_at u f args x

/-- What a request records is what it reads, unless it starts the tracer over. -/
theorem respond_at (q : Request α) (lasts : q.empties t = false) :
    (respond self α q).RefinesAt (Records t (q.reads other t w)) w (respond other α q) := by
  have quiet {β : Type} {a : Action β} (keeps : a.Keeps (Records t [])) :
      a.RefinesAt (Records t []) w a := keeps.refines w
  have unseen {f : World → World} (same : ∀ w, (f w).tracers = w.tracers) :
      (Action.update f).RefinesAt (Records t []) w (Action.update f) :=
    quiet fun w => .of_eq rfl (of_tracers (same w))
  have F := steady (t := t)
  cases q with
  | query q => exact quiet (F.read _)
  | holding hs p => exact holding hs (H.run p) w
  | newList items => exact seq (F.addList items).refines (fun _ => pure _) w
  | newMap entries => exact seq (F.addMap entries).refines (fun _ => pure _) w
  | newNative name captured code => exact quiet fun w => .of_eq rfl (of_tracers rfl)
  | newFunction name environment code => exact quiet fun w => .of_eq rfl (of_tracers rfl)
  | getAttr v name => exact H.getAttr_at v name
  | setAttr v name x => exact H.setAttr v name x w
  | getItem v key => exact quiet fun w => F.of_eq rfl
  | setItem v key x => exact quiet (F.setItem v key x)
  | call f args => exact H.callValue f args w
  | newObject b =>
    exact quiet (F.newObject b (fun _ => of_tracers rfl) fun _ _ => of_tracers rfl)
  | newChange c => exact quiet fun w => .of_eq rfl (of_tracers rfl)
  | readAttr o name => exact H.readAttr_at o name
  | emit o name x => exact H.emit o name x w
  | clear o name => exact H.clear o name w
  | populate o => exact H.populate o w
  | bind o name op f key =>
    exact quiet (F.bindAttribute o name op f key (fun _ => of_tracers rfl)
      (fun _ _ => of_tracers rfl) (fun _ _ => of_tracers rfl) fun _ _ => of_tracers rfl)
  | localSlot o key => exact quiet (F.localSlot o key fun _ _ => of_tracers rfl)
  | newLayer locals => exact quiet (F.addLayer locals)
  | storeLocal l name v => exact quiet (F.storeLocal l name v)
  | getName s name => exact H.getName_at s name
  | setName s name x => exact H.setName s name x w
  | delName s name => exact quiet (F.delName s name)
  | invert s target x => exact H.invert_at s target x
  | callFunction f args s => exact H.callFunction f args s w
  | freshKey => exact quiet F.freshKey
  | newRegistry => exact quiet fun w => .of_eq rfl (of_tracers rfl)
  | subscribe r name code =>
    have added : (Action.add (·.addWatcher ⟨code⟩)).Keeps (Records t []) :=
      fun w => .of_eq rfl (of_tracers rfl)
    exact quiet (F.seq added fun c w => F.seq_update (of_tracers rfl) (F.pure _ _))
  | notify r change => exact H.notify r change w
  | newTracer owner name => exact quiet fun w => .of_eq rfl (newTracer _ w)
  | trace u o name =>
    intro r w' run
    cases run
    exact ⟨rfl, Records.record u _ w⟩
  | loadAttr u v name => exact H.loadAttr_at u v name
  | callTraced u f args => exact H.callTraced_at u f args
  | finalize u =>
    have apart : u ≠ t := of_decide_eq_false lasts
    exact quiet (F.seq (F.read _) fun _ w => F.seq_update (drain apart w) (F.pure _ _))
  | invoke h i => exact H.invoke h i w
  | readWith h owner name => exact H.handlerRead h owner name w
  | readTraced h owner name => exact H.readTraced h owner name w
  | writeWith h owner name change => exact H.handlerWrite h owner name change w
  | newEngine config => exact quiet (F.newEngine config fun _ _ => of_tracers rfl)
  | addBinding e name op f key => exact unseen fun _ => rfl
  | readBinding e owner name => exact holding _ (H.readBinding e owner name) w
  | writeBinding e owner name change => exact holding _ (H.writeBinding e owner name change) w
  | updateBinding e owner name => exact H.updateBinding e owner name w
  | clearSubscriptions e => exact unseen fun _ => rfl
  | globalConfig => exact quiet F.globalConfig
  | setGlobalConfig c => exact quiet (F.setGlobalConfig c)
  | setVariables | keep | release | record => exact unseen fun _ => rfl
  | spend => exact quiet F.spend

end Discreet

end LiveBinding
