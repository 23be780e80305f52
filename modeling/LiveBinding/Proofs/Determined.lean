import LiveBinding.Proofs.Tracing
import LiveBinding.Proofs.Handlers

/-! What a traced evaluation depends on.

Two evaluations of one traced body are taken step by step. As long as what the first has recorded is
the same in both states, the second does what the first did and records the same. The states need
not have the same tables: nothing but what is there in both of them is compared. -/
namespace LiveBinding
variable {a a' w w' w₁ : World} {s s' : Scope} {t t' : TracerRef} {α : Type}

/-! ### Bodies -/

/-- A request follows another if what answers the one answers the other. -/
theorem follow_request {less n : Nat} {q q' : Request α} {x : α} {T : α → World → Prop}
    (run : (Program.request q).run (performSparing t less n) w = some (.ok x, w₁))
    (step : ∀ m, respond (performSparing t less m) α q w = some (.ok x, w₁) →
      w.retains w₁ t = true → (∀ v ∈ q.lookedInto, w.Shallow (w.containers - less) v) →
      ∃ x' w₁', respond (perform m) α q' w' = some (.ok x', w₁') ∧ T x' w₁') :
    ∃ x' w₁', (Program.request q').run (perform n) w' = some (.ok x', w₁') ∧ T x' w₁' := by
  rw [Program.run_request] at run ⊢
  obtain ⟨m, rfl, answer, kept, shallow⟩ := exists_of_sparing run
  exact step m answer kept shallow

/-- **What a traced body does is determined by what it has recorded.** -/
theorem Traced.follow {b b' : Scope → TracerRef → Program α} {P : α → α → Prop} {x : α} {n : Nat}
    (traced : Traced (a.grounds a' s) b b' P) (set : Setting a a' s s' t t')
    (tandem : Tandem a a' s s' t t' w w')
    (run : (b s t).run (performSparing t (a.containers - a'.containers) n) w = some (.ok x, w₁))
    (same : ∀ d ∈ (w₁.tracer t).dependencies, a.Same a' d) :
    ∃ x' w₁', (b' s' t').run (perform n) w' = some (.ok x', w₁') ∧
      Tandem a a' s s' t t' w₁ w₁' ∧ P x x' := by
  induction traced generalizing w w' w₁ n with
  | give here =>
    cases run
    exact ⟨_, w', rfl, tandem, here⟩
  | fail => cases run
  | bind first next ihf ihn =>
    rw [Program.run_bind] at run
    rcases Action.exists_of_bind run with ⟨e, _, fails⟩ | ⟨y, u, begins, ends⟩
    · cases fails
    -- what the first part has recorded is still on record when the second has ended
    obtain ⟨running, _⟩ := retained_of_run tandem.running begins
    obtain ⟨_, kept⟩ := retained_of_run running ends
    obtain ⟨y', u', begins', tandem', here⟩ := ihf tandem begins fun d mem => same d (kept d mem)
    obtain ⟨x', w₁', ends', rest⟩ := ihn y y' here tandem' ends same
    refine ⟨x', w₁', ?_, rest⟩
    rw [Program.run_bind, Action.bind_apply, begins']
    exact ends'
  | hold hand inner ih =>
    refine follow_request run fun m answer _ _ => ?_
    obtain ⟨u, ends, rfl⟩ := Action.exists_of_holding answer
    obtain ⟨x', u', ends', tandem', here⟩ := ih (tandem.holding hand) ends same
    refine ⟨x', {u' with held := w'.held}, ?_, tandem.release tandem', here⟩
    show Action.holding _ (Program.run (perform m) _) w' = _
    rw [Action.holding, Action.within_apply, ends']
  | @look _ q q' values =>
    refine follow_request run fun m answer _ shallow => ?_
    cases answer
    refine ⟨q.answer w, w', ?_, tandem, rfl⟩
    show some (Except.ok (q'.answer w'), w') = _
    rw [tandem.answer values shallow]
  | @items r r' hand =>
    refine follow_request run fun m answer _ _ => ?_
    cases answer
    exact ⟨w'.items r', w', rfl, tandem, tandem.looks.items hand⟩
  | @entries r r' hand =>
    refine follow_request run fun m answer _ _ => ?_
    cases answer
    exact ⟨w'.entries r', w', rfl, tandem, tandem.looks.entries hand⟩
  | @item v v' key key' hand hand' =>
    refine follow_request run fun m answer _ _ => ?_
    obtain ⟨found, rfl⟩ := Prod.mk.inj (Option.some.inj answer)
    obtain ⟨x', found', paired⟩ := tandem.looks.getItem hand hand' found
    refine ⟨x', w', ?_, tandem, paired⟩
    show some (w'.getItem v' key', w') = _
    rw [found']
  | @list xs xs' hand =>
    refine follow_request run fun m answer _ _ => ?_
    cases answer
    obtain ⟨later, new⟩ := tandem.newList hand
    exact ⟨.list ⟨w'.lists.size⟩, (w'.addList xs').1, rfl, later, new⟩
  | @map d d' hand =>
    refine follow_request run fun m answer _ _ => ?_
    cases answer
    obtain ⟨later, new⟩ := tandem.newMap hand
    exact ⟨.map ⟨w'.maps.size⟩, (w'.addMap d').1, rfl, later, new⟩
  | @call f code args args' known own hand inner ih =>
    refine follow_request run fun m answer _ _ => ?_
    obtain ⟨u, native, rfl⟩ := Action.exists_of_holding answer
    obtain ⟨there, there'⟩ := tandem.natives set own known
    unfold runNative at native
    dsimp only at native
    rw [there] at native
    have held := tandem.holding (.cons own (forall₂_handles hand))
    obtain ⟨x', u', ends', tandem', here⟩ := ih held native same
    refine ⟨x', {u' with held := w'.held}, ?_, tandem.release tandem', here⟩
    show Action.holding _ (runNative (perform m) f args') w' = _
    rw [Action.holding, Action.within_apply]
    unfold runNative
    rw [there']
    dsimp only
    rw [ends']
  | name plain =>
    refine follow_request run fun m answer kept _ => ?_
    obtain ⟨w₁', answer', tandem', paired, means⟩ := tandem.getName set plain answer kept same
    exact ⟨x, w₁', answer', tandem', paired, fun y outside => ⟨means y outside, means y outside⟩⟩
  | load hand =>
    refine follow_request run fun m answer kept _ => ?_
    obtain ⟨w₁', rest⟩ := tandem.loadAttr set hand answer kept same
    exact ⟨x, w₁', rest⟩
  | getattr known own hand fallback =>
    exact follow_request run fun m answer kept _ =>
      tandem.callTraced set known own hand fallback answer kept same

/-! ### Traced reads -/

namespace World

variable (f : FunctionRef) (args : Arguments) (s : Scope)

theorem layer_entering (w : World) : (w.entering f args s).layer = w.layer := rfl

theorem tracers_entering (w : World) : (w.entering f args s).tracers = w.tracers := rfl

theorem lists_entering (w : World) : (w.entering f args s).lists = w.lists := rfl

theorem maps_entering (w : World) : (w.entering f args s).maps = w.maps := rfl

variable {f args s}

theorem Endures.entering (endures : a.Endures w)
    (hand : ∀ h ∈ .function f :: s.handles ++ args.handles, a.InHand h) :
    a.Endures (w.entering f args s) := {endures.hold hand with}

end World

namespace Handler
variable {h : Handler} {o : ObjectId} {name : String} {v : Value} {self : Performer} {u : World}

/-- The scope of a traced evaluation. -/
def scopeOf (h : Handler) (o : ObjectId) (w : World) : Scope :=
  {h.scopeFor o w with tracer := some ⟨w.tracers.size⟩}

/-- The world in which a traced evaluation has got its tracer and its scope. -/
def opened (h : Handler) (o : ObjectId) (name : String) (w : World) : World :=
  h.ready o (World.addTracer {w with held := [.object o] ++ w.held} (.start o name)).1

/-- The world in which the code of a traced evaluation starts. -/
def begun (h : Handler) (o : ObjectId) (name : String) (w : World) : World :=
  (h.opened o name w).entering h.function (.traced ⟨w.tracers.size⟩) (h.scopeOf o w)

/-- The code of a traced evaluation. -/
def body (h : Handler) (w : World) (s : Scope) (t : TracerRef) : Program Value :=
  w.code h.function s (.traced t)

theorem scope_opened (h : Handler) (o : ObjectId) (name : String) (w : World) :
    h.scope o (World.addTracer {w with held := [.object o] ++ w.held} (.start o name)).1 =
      some (.ok {h.scopeOf o w with tracer := none}, h.opened o name w) := h.scope_eq o _

/-- A traced read calls the function in its scope, with a tracer. -/
theorem readTraced_eq (kind : h.kind = .tracedRead) :
    h.readTraced self o name w =
      match callFunction self h.function (.traced ⟨w.tracers.size⟩) (h.scopeOf o w)
        (h.opened o name w) with
      | none => none
      | some (.error e, u) => some (.error e, {u with held := w.held})
      | some (.ok v, u) => some (.ok (v, ⟨w.tracers.size⟩), {u with held := w.held}) := by
  unfold readTraced invoke
  rw [if_pos kind, Action.bind_apply, Action.holding, Action.within_apply]
  simp only [kind, Invocation.handles]
  rw [Action.add_bind, Action.bind_apply, scope_opened]
  simp only [Action.bind_apply, World.addTracer, scopeOf]
  generalize callFunction self h.function _ _ (h.opened o name w) = ends
  rcases ends with _ | ⟨_ | v, u⟩ <;> rfl

theorem limitInForce_opened : (h.opened o name w).limitInForce = w.limitInForce := by
  unfold opened ready
  split <;> rfl

theorem depth_opened : (h.opened o name w).depth = w.depth := by
  unfold opened ready
  split <;> rfl

theorem code_opened : (h.opened o name w).code = w.code := by
  unfold opened ready
  split <;> rfl

/-- A call that begins a traced evaluation runs the body, if there is room. -/
theorem callFunction_opened (room : w.depth + 1 ≤ w.limitInForce) :
    callFunction self h.function (.traced ⟨w.tracers.size⟩) (h.scopeOf o w) (h.opened o name w) =
      match (h.body w (h.scopeOf o w) ⟨w.tracers.size⟩).run self (h.begun o name w) with
      | none => none
      | some (r, u) =>
        some (r, {u with depth := u.depth - 1, held := (h.opened o name w).held}) := by
  have room : (h.opened o name w).depth + 1 ≤ (h.opened o name w).limitInForce := by
    rw [limitInForce_opened, depth_opened]
    exact room
  rw [callFunction_entering room, code_opened]
  rfl

theorem exists_of_readTraced {t : TracerRef}
    (run : h.readTraced self o name w = some (.ok (v, t), w₁)) :
    h.kind = .tracedRead ∧ w.depth + 1 ≤ w.limitInForce ∧ t = ⟨w.tracers.size⟩ ∧
      ∃ u, (h.body w (h.scopeOf o w) t).run self (h.begun o name w) = some (.ok v, u) ∧
        w₁ = {u with depth := u.depth - 1, held := w.held} := by
  have kind : h.kind = .tracedRead := by
    by_contra other
    rw [readTraced, if_neg other] at run
    cases run
  rw [readTraced_eq kind] at run
  have room : w.depth + 1 ≤ w.limitInForce := by
    by_contra beyond
    rw [callFunction_eq, limitInForce_opened, depth_opened, if_neg beyond] at run
    cases run
  rw [callFunction_opened room] at run
  generalize ran : (h.body w (h.scopeOf o w) ⟨w.tracers.size⟩).run self (h.begun o name w) =
    ends at run
  rcases ends with _ | ⟨_ | x, u⟩
  · cases run
  · cases run
  · cases run
    exact ⟨kind, room, rfl, u, ran, rfl⟩

theorem readTraced_of_run (kind : h.kind = .tracedRead) (room : w.depth + 1 ≤ w.limitInForce)
    (run : (h.body w (h.scopeOf o w) ⟨w.tracers.size⟩).run self (h.begun o name w) =
      some (.ok v, u)) :
    h.readTraced self o name w =
      some (.ok (v, ⟨w.tracers.size⟩), {u with depth := u.depth - 1, held := w.held}) := by
  rw [readTraced_eq kind, callFunction_opened room, run]

/-! ### Two states -/

/-- Two states in which a traced read finds the same things in the same places, but for the values
of attributes: as far as they are there in both states, the same objects with the same parents,
containers and native functions, the same code in the same environment and with the same locals, and
as many bodies that may be called. The read has its owner and its function, and nobody has a view.
What is gone in one of the states may be anything in the other. -/
structure Alike (h : Handler) (o : ObjectId) (w w' : World) : Prop where
  peers : w.Peers w'
  plain : ∀ {p}, w.isLive (.object p) = true → w.Plain p
  owner : w.isLive (.object o) = true
  owner' : w'.isLive (.object o) = true
  function : w.isLive (.function h.function) = true
  function' : w'.isLive (.function h.function) = true
  code : w'.functions[h.function.index]? = w.functions[h.function.index]?
  locals : (w'.localStorage? o h.key).map w'.layer = (w.localStorage? o h.key).map w.layer
  depth : w'.depth = w.depth
  limit : w'.limitInForce = w.limitInForce

/-- A function holds its environment. -/
theorem isLive_of_environment {f : FunctionRef} (live : w.isLive (.function f) = true) {g : Handle}
    (mem : g ∈ (w.functionEnvironment f).handles) : w.isLive g = true := by
  have there : f.index < w.functions.size := by
    apply Nat.lt_of_not_le
    intro outside
    rw [World.functionEnvironment, Array.getElem?_eq_none outside] at mem
    cases mem
  exact World.isLive_of_holds live ⟨World.mem_holders.2 there, mem⟩

/-- An object holds its layers of locals, and they hold the locals. -/
theorem isLive_of_slot (live : w.isLive (.object o) = true) {l : LayerRef}
    (slot : w.localStorage? o h.key = some l) :
    w.isLive (.layer l) = true ∧ ∀ g ∈ (w.layer l).handles, w.isLive g = true := by
  obtain ⟨d, known, found⟩ := Option.bind_eq_some_iff.1 slot
  have entity := w.declared?_eq_some.1 known
  have held : w.isLive (.layer l) = true := by
    refine World.isLive_of_holds live ⟨World.mem_holders.2 ?_, ?_⟩
    · exact (Array.getElem?_eq_some_iff.1 entity).1
    · rw [World.holds, entity]
      refine List.mem_append_left _ (List.mem_append_right _ ?_)
      exact List.mem_map_of_mem (Dict.get?_eq_some.1 found)
  refine ⟨held, fun g mem => ?_⟩
  have there : l.index < w.layers.size := by
    apply Nat.lt_of_not_le
    intro outside
    rw [World.layer, Array.getElem?_eq_none outside] at mem
    cases mem
  exact World.isLive_of_holds held ⟨World.mem_holders.2 there, mem⟩

/-- Everything is as it was when the code of a traced evaluation starts. -/
theorem endures_begun (owner : w.isLive (.object o) = true)
    (function : w.isLive (.function h.function) = true) (name : String) :
    w.Endures (h.begun o name w) := by
  have traced : w.Endures
    (World.addTracer {w with held := [.object o] ++ w.held} (.start o name)).1 :=
    ((World.Endures.refl w).hold (List.forall_mem_singleton.2 (.inr owner))).addTracer
    (.inr owner) name
  have opened : w.Endures (h.opened o name w) := by
    unfold Handler.opened Handler.ready
    split
    · exact traced
    · exact traced.addLayer
  have mine : w.InHand (.tracer ⟨w.tracers.size⟩) := .inl (Nat.le_refl _)
  have layer : w.InHand (.layer (h.scopeOf o w).locals) := by
    unfold scopeOf scopeFor
    cases slot : w.localStorage? o h.key with
    | some l => exact .inr (isLive_of_slot owner slot).1
    | none => exact .inl (Nat.le_refl _)
  have environment (g : Handle) (mem : g ∈ (h.scopeOf o w).environment.handles) : w.InHand g :=
    .inr (isLive_of_environment function mem)
  have scope (g : Handle) (mem : g ∈ (h.scopeOf o w).handles) : w.InHand g := by
    rcases List.mem_append.1 mem with mem | mem
    · rcases List.mem_append.1 mem with mem | mem
      · rcases mem with _ | ⟨_, _ | ⟨_, mem⟩⟩
        · exact .inr owner
        · exact layer
        · exact environment g mem
      · cases mem
    · cases List.mem_singleton.1 mem
      exact mine
  refine opened.entering fun g mem => ?_
  rcases List.mem_append.1 mem with mem | mem
  · rcases mem with _ | ⟨_, mem⟩
    · exact .inr function
    · exact scope g mem
  · cases List.mem_singleton.1 mem
    exact mine

/-- The locals of a traced evaluation. -/
theorem layer_begun (name : String) : (h.begun o name w).layer (h.scopeOf o w).locals =
    ((w.localStorage? o h.key).map w.layer).getD .empty := by
  let u := (World.addTracer {w with held := [.object o] ++ w.held} (.start o name)).1
  have slot : u.localStorage? o h.key = w.localStorage? o h.key := rfl
  have opened : h.opened o name w =
      if (w.localStorage? o h.key).isSome = true then u else (u.addLayer .empty).1 := by
    rw [← slot]
    rfl
  rw [begun, World.layer_entering, opened]
  unfold scopeOf scopeFor
  cases w.localStorage? o h.key with
  | some l => rfl
  | none =>
    show ((w.layers.push .empty)[w.layers.size]?).getD .empty = _
    rw [Array.getElem?_push_size]
    rfl

theorem layer_scopeOf (h : Handler) (o : ObjectId) (w : World) :
    w.layer (h.scopeOf o w).locals = ((w.localStorage? o h.key).map w.layer).getD .empty := by
  unfold scopeOf scopeFor
  cases w.localStorage? o h.key with
  | some l => rfl
  | none =>
    show (w.layers[w.layers.size]?).getD .empty = _
    rw [Array.getElem?_eq_none (Nat.le_refl _)]
    rfl

theorem tracer_begun (name : String) :
    (h.begun o name w).tracer ⟨w.tracers.size⟩ = .start o name := by
  have same : (h.begun o name w).tracers = w.tracers.push (.start o name) := by
    rw [begun, World.tracers_entering]
    unfold opened ready
    split <;> rfl
  rw [World.tracer, same, Array.getElem?_push_size]
  rfl

theorem tables_begun (name : String) :
    (h.begun o name w).lists = w.lists ∧ (h.begun o name w).maps = w.maps ∧
      (h.begun o name w).tracers.size = w.tracers.size + 1 := by
  rw [begun, World.lists_entering, World.maps_entering, World.tracers_entering]
  unfold opened ready
  split
  · exact ⟨rfl, rfl, Array.size_push _⟩
  · exact ⟨rfl, rfl, Array.size_push _⟩

/-- A world that has the containers, the native functions and the objects of another looks the same
whenever that one does. -/
theorem looks_begun {H : Handle → Handle → Prop} {h' : Handler} {o' : ObjectId} {w' : World}
    (looks : w.SameLooks H w') (name name' : String) :
    (h.begun o name w).SameLooks H (h'.begun o' name' w') := by
  have same (h : Handler) (o : ObjectId) (w : World) (name : String) :
      (h.begun o name w).natives = w.natives ∧ (h.begun o name w).objects = w.objects := by
    unfold begun opened ready World.entering
    split <;> exact ⟨rfl, rfl⟩
  obtain ⟨natives, objects⟩ := same h o w name
  obtain ⟨natives', objects'⟩ := same h' o' w' name'
  obtain ⟨lists, maps, _⟩ := tables_begun (h := h) (o := o) (w := w) name
  obtain ⟨lists', maps', _⟩ := tables_begun (h := h') (o := o') (w := w') name'
  exact { looks with
    nativeName := fun hand => by
      simpa only [World.nativeName, natives, natives'] using looks.nativeName hand
    typeName := fun hand => by
      simpa only [World.typeName, World.entity?, objects, objects'] using looks.typeName hand
    items := fun hand => by
      simpa only [World.items, lists, lists'] using looks.items hand
    entries := fun hand => by
      simpa only [World.entries, maps, maps'] using looks.entries hand }

/-- What a name means outside is there as long as the environment is. -/
theorem within_of_outer {f : FunctionRef} (live : w.isLive (.function f) = true) {n : String}
    (found : (w.functionEnvironment f).outer n = .ok v) {g : Handle} (mem : g ∈ v.handles) :
    w.isLive g = true := by
  apply isLive_of_environment live
  unfold Environment.outer at found
  split at found
  · next there =>
    cases found
    exact List.mem_append_left _ (List.mem_flatMap.2 ⟨_, Dict.get?_eq_some.1 there, mem⟩)
  · split at found
    · next there =>
      cases found
      exact List.mem_append_right _ (List.mem_flatMap.2 ⟨_, Dict.get?_eq_some.1 there, mem⟩)
    · cases found

namespace Alike
variable (alike : h.Alike o w w')
include alike

theorem environment : w'.functionEnvironment h.function = w.functionEnvironment h.function := by
  rw [World.functionEnvironment, World.functionEnvironment, alike.code]

theorem body : h.body w' = h.body w := by
  funext s t
  rw [Handler.body, Handler.body, World.code, World.code, alike.code]

theorem setting :
    Setting w w' (h.scopeOf o w) (h.scopeOf o w') ⟨w.tracers.size⟩ ⟨w'.tracers.size⟩ where
  peers := alike.peers
  plain := alike.plain
  owner := rfl
  here := alike.owner
  here' := alike.owner'
  environment := alike.environment
  outer {n v} found := World.Both.paired fun g mem => by
    have found' : (w'.functionEnvironment h.function).outer n = .ok v := by
      rw [alike.environment]
      exact found
    exact ⟨within_of_outer alike.function found mem, within_of_outer alike.function' found' mem⟩
  locals := by
    rw [layer_scopeOf, layer_scopeOf, alike.locals]
  named {n v} found := by
    have locals := alike.locals
    rw [layer_scopeOf] at found
    cases slot : w.localStorage? o h.key with
    | none =>
      rw [slot] at found
      cases found
    | some l =>
      rw [slot] at found locals
      obtain ⟨l', slot', same⟩ := Option.map_eq_some_iff.1 locals
      refine World.Both.paired fun g mem => ?_
      have held : g ∈ (w.layer l).handles := List.mem_flatMap.2 ⟨_, Dict.get?_eq_some.1 found, mem⟩
      refine ⟨(isLive_of_slot alike.owner slot).2 g held, ?_⟩
      apply (isLive_of_slot alike.owner' slot').2
      rw [same]
      exact held
  tracer := rfl
  tracer' := rfl
  new := Nat.le_refl _
  new' := Nat.le_refl _

/-- The evaluations begin side by side. -/
theorem tandem (name : String) :
    Tandem w w' (h.scopeOf o w) (h.scopeOf o w') ⟨w.tracers.size⟩ ⟨w'.tracers.size⟩
      (h.begun o name w) (h.begun o name w') where
  left := endures_begun alike.owner alike.function name
  right := endures_begun alike.owner' alike.function' name
  looks := looks_begun alike.peers.looks name name
  lists := by
    rw [(tables_begun name).1, (tables_begun name).1, Nat.add_comm]
  maps := by
    rw [(tables_begun name).2.1, (tables_begun name).2.1, Nat.add_comm]
  locals := by
    rw [layer_begun, layer_scopeOf]
  locals' := by
    rw [layer_begun, layer_scopeOf]
  recorded := by
    rw [tracer_begun, tracer_begun]
  running := by
    rw [(tables_begun name).2.2]
    exact Nat.lt_succ_self _
  running' := by
    rw [(tables_begun name).2.2]
    exact Nat.lt_succ_self _

end Alike

/-- **Tracing misses nothing.** A traced read that succeeds is determined by what its tracer has
recorded: in a state that has the same things in the same places, and in which what has been
recorded has the same values, the read gives the same value and records the same in the same order,
whatever other attributes hold. What has been recorded and has a read binding has to be stored, for
otherwise the read would evaluate it.

A list or map that the body has made has another reference if there are not as many in the other
state, and the same contents however deep one looks. References are numbers here, so other code that
runs meanwhile could empty the tracer by a number that it was never given; and one that looks into a
value could stop before its end where there are fewer containers. `performSparing` sees to it that
neither happens. -/
theorem evaluation_determined {n : Nat} (alike : h.Alike o w w')
    (traced : Traced (w.grounds w' (h.scopeOf o w)) (h.body w) (h.body w)
      (Value.Paired (w.Both w')))
    (run : h.readTraced (performSparing ⟨w.tracers.size⟩ (w.containers - w'.containers) n) o name
      w = some (.ok (v, t), w₁))
    (same : ∀ d ∈ (w₁.tracer t).dependencies, w.Same w' d) :
    h.readTraced (perform n) o name w = some (.ok (v, t), w₁) ∧
      ∃ v' t' w₁', h.readTraced (perform n) o name w' = some (.ok (v', t'), w₁') ∧
        (w₁'.tracer t').dependencies = (w₁.tracer t).dependencies ∧ v.Paired (w.Both w') v' ∧
        ∀ depth, w₁'.snapshotWithin depth v' = w₁.snapshotWithin depth v := by
  refine ⟨((World.frame_persists.checking _ n).readTraced h o name w trivial _ _ run).1, ?_⟩
  obtain ⟨kind, room, rfl, u, ran, rfl⟩ := exists_of_readTraced run
  obtain ⟨v', u', ran', tandem, paired⟩ := traced.follow alike.setting (alike.tandem name) ran same
  have room' : w'.depth + 1 ≤ w'.limitInForce := by
    rw [alike.depth, alike.limit]
    exact room
  rw [← alike.body] at ran'
  refine ⟨v', _, _, readTraced_of_run kind room' ran', tandem.recorded, paired, fun depth => ?_⟩
  have looks : World.SameLooks (w.Both w') {u with depth := u.depth - 1, held := w.held}
      {u' with depth := u'.depth - 1, held := w'.held} := {tandem.looks with}
  exact looks.snapshotWithin (.inl rfl) paired

end Handler

namespace dimmer

/-- What the room has for a gain if it is on, and otherwise what it has for a rest. It comes in a
list. -/
def brightness (s : Scope) (t : TracerRef) : Program Value := do
  let on ← .request (.getName s "on")
  let lit ← Program.query (.isTrue on)
  let room ← .request (.getName s "room")
  if lit then
    let gain ← .request (.loadAttr t room "gain")
    .request (.newList [gain])
  else
    let f ← .request (.getName s "getattr")
    .request (.callTraced t f [room, .str "rest", .int 0])

def room : Declared where
  typeName := "Room"
  parent := none
  members := ["gain", "rest"]
  constants := []
  values := .ofList [("on", .bool true), ("gain", .int 3)]
  storage := .empty
  registry := ⟨0⟩
  config := none
  engine := some ⟨0⟩

def lamp (spare : Int64) : Declared where
  typeName := "Lamp"
  parent := some ⟨0⟩
  members := []
  constants := []
  values := .ofList [("room", .object ⟨0⟩), ("spare", .int spare)]
  storage := .empty
  registry := ⟨1⟩
  config := none
  engine := none

def handler : Handler := ⟨.tracedRead, ⟨0⟩, .given 0⟩

/-- A lamp in a room that has a binding for its gain and has evaluated it. -/
def start : World :=
  { Builtin.world with
    objects := #[.declared room, .declared (lamp 8)]
    registries := #[.empty, .empty]
    functions := #[⟨"brightness", Builtin.environment .empty, fun s a =>
        match a with
        | .traced t => brightness s t
        | _ => .fail (.evaluation "expected a tracer")⟩,
      ⟨"gain", Builtin.environment .empty, fun _ _ => .done (.ok (.int 3))⟩]
    engines := #[(Engine.start default).addBinding "gain" (Operator.simple.bind ⟨1⟩ (.given 0))]
    held := [.object ⟨1⟩, .function ⟨0⟩] }

/-- Later on, the lamp has another spare, and the change of it and a list that was of use for the
moment are gone. -/
def later : World :=
  { start with
    objects := #[.declared room, .declared (lamp 9),
      .change ⟨.update, ⟨1⟩, "spare", .int 8, .int 9⟩]
    lists := #[[.int 9]] }

example : perform 2 Unit (.setAttr (.object ⟨1⟩) "spare" (.int 9))
    (start.addList [.int 9]).1 = some (.ok (), later) := rfl

theorem attributes_lamp (spare other : Int64) (n : String) :
    (lamp spare).hasAttribute n = (lamp other).hasAttribute n := by
  simp only [Declared.hasAttribute, lamp, Dict.contains, Dict.ofList, Dict.insertAll, List.foldl,
    Dict.get?_insert]
  split
  · rfl
  · split <;> rfl

def isContainer : Handle → Bool
  | .list _ | .map _ => true
  | _ => false

/-- Nobody holds a list or a map at the start. -/
theorem not_isLive_of_container {h : Handle} (container : isContainer h = true) :
    ¬ start.isLive h = true := by
  have outside : ∀ h ∈ start.roots, isContainer h = false := by decide +kernel
  have inside : ∀ g ∈ start.holders, ∀ h ∈ start.holds g, isContainer h = false := by decide +kernel
  have none {hs : List Handle} (empty : ∀ h ∈ hs, isContainer h = false) : h ∉ hs := fun mem =>
    Bool.false_ne_true ((empty h mem).symm.trans container)
  exact fun live => World.isLive_iff.1 live
    (.intro (none outside) fun g held => absurd held.2 (none (inside g held.1)))

theorem alike : handler.Alike ⟨1⟩ start later where
  peers :=
    { object := fun {o} here _ => by
        rcases o with ⟨_ | _ | _ | n⟩
        · exact .same _
        · exact .declared rfl (attributes_lamp 9 8)
        · have gone : start.isLive (.object ⟨2⟩) = false := by decide +kernel
          rw [gone] at here
          cases here
        · exact .same none
      parent := fun {o} here _ => by
        rcases o with ⟨_ | _ | _ | n⟩
        · decide +kernel
        · decide +kernel
        · have gone : start.isLive (.object ⟨2⟩) = false := by decide +kernel
          rw [gone] at here
          cases here
        · rfl
      native := fun _ _ => rfl
      list := fun {r} here _ => absurd here (not_isLive_of_container rfl)
      map := fun {r} here _ => absurd here (not_isLive_of_container rfl) }
  plain {o} _ p t view := by
    rcases o with ⟨_ | _ | n⟩
    · cases view
    · cases view
    · cases view
  owner := by decide +kernel
  owner' := by decide +kernel
  function := by decide +kernel
  function' := by decide +kernel
  code := rfl
  locals := rfl
  depth := rfl
  limit := rfl

theorem traced : Traced (start.grounds later (handler.scopeOf ⟨1⟩ start)) brightness brightness
    (Value.Paired (start.Both later)) := by
  refine .bind (.name (by decide +kernel)) fun on on' ⟨here, _⟩ => .bind (.look (.isTrue here)) ?_
  rintro _ lit rfl
  refine .bind (.name (by decide +kernel)) fun room room' ⟨hand, _⟩ => ?_
  cases lit with
  | true =>
    exact .bind (.load hand) fun gain gain' paired => .list (.cons paired .nil)
  | false =>
    refine .bind (.name (by decide +kernel)) fun f f' ⟨paired, known⟩ => ?_
    obtain ⟨rfl, rfl⟩ := known (.native getattrRef) ⟨rfl, by decide +kernel, rfl⟩
    cases paired with
    | atom _ own =>
      have fallback : Option.Rel
          (Value.Paired (start.grounds later (handler.scopeOf ⟨1⟩ start)).hand)
          (some (.int 0)) (some (.int 0)) := .some (.atom rfl nofun)
      exact .getattr rfl (own _ List.mem_cons_self) hand fallback

theorem shines : (handler.readTraced (performSparing ⟨0⟩ 0 6) ⟨1⟩ "brightness" start).map
    (fun x => (x.1, (x.2.tracer ⟨0⟩).dependencies, x.2.items ⟨0⟩)) =
      some (.ok (.list ⟨0⟩, ⟨0⟩), [⟨⟨0⟩, "on"⟩, ⟨⟨1⟩, "room"⟩, ⟨⟨0⟩, "gain"⟩], [.int 3]) := by
  decide +kernel

/-- The lamp shines as brightly when what it does not look at has changed. -/
theorem as_bright : ∃ v t w, handler.readTraced (perform 6) ⟨1⟩ "brightness" later =
    some (.ok (v, t), w) ∧ (w.tracer t).dependencies = [⟨⟨0⟩, "on"⟩, ⟨⟨1⟩, "room"⟩, ⟨⟨0⟩, "gain"⟩] ∧
    w.snapshotWithin 1 v = .list [.int 3] := by
  obtain ⟨⟨r, w₁⟩, run, is⟩ := Option.map_eq_some_iff.1 shines
  obtain ⟨rfl, rest⟩ := Prod.mk.inj is
  obtain ⟨recorded, items⟩ := Prod.mk.inj rest
  have stored (d : Dependency) (set : (start.valueOf? d).isSome = true)
      (same : later.valueOf? d = start.valueOf? d) : start.Same later d :=
    ⟨.inr set, .inr (same ▸ set), same⟩
  obtain ⟨_, v, t, w, again, same, _, snapshots⟩ :=
    Handler.evaluation_determined alike traced run (by
    intro d mem
    rw [recorded] at mem
    simp only [List.mem_cons, List.not_mem_nil, or_false] at mem
    rcases mem with rfl | rfl | rfl
    · exact stored _ (by decide +kernel) (by decide +kernel)
    · exact stored _ (by decide +kernel) (by decide +kernel)
    · exact stored _ (by decide +kernel) (by decide +kernel))
  refine ⟨v, t, w, again, same.trans recorded, (snapshots 1).trans ?_⟩
  show Snapshot.list ((w₁.items ⟨0⟩).map _) = _
  rw [items]
  rfl

end dimmer

end LiveBinding
