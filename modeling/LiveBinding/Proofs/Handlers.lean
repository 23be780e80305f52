import LiveBinding.Proofs.Steps

/-! Handlers at work.

A handler gets a scope for one evaluation, a traced one gets a tracer as well, and then its
function is called. What the function does is up to whoever uses these rules. -/
namespace LiveBinding
variable {start w w' : World} {x : Dependency} {e : EngineRef} {h : Handler}
  {c : Surroundings}

/-- Where a handler looks names up for an object. -/
def World.surroundingsFor? (w : World) (o : ObjectId) (h : Handler) : Option Surroundings :=
  (match w.localStorage? o h.key with
    | some l => w.layers[l.index]?
    | none => some .empty).map fun locals => ⟨o, locals, w.functionEnvironment h.function⟩

theorem World.surroundings?_of_handlerOf (handler : w.handlerOf? x = some (e, h)) :
    w.surroundings? x = w.surroundingsFor? x.object h := by
  rw [surroundings?, handler]
  rfl

/-- A scope looks names up in the surroundings of a body, and its tracer is there. -/
structure Inside (w : World) (c : Surroundings) (s : Scope) (t : TracerRef) : Prop where
  owner : s.owner = c.owner
  locals : w.layers[s.locals.index]? = some c.locals
  environment : s.environment = c.environment
  tracer : s.tracer = some t
  running : t.index < w.tracers.size

theorem Inside.mono {s : Scope} {t : TracerRef} (inside : Inside w c s t)
    (grows : w.Extends w') (more : w.tracers.size ≤ w'.tracers.size) : Inside w' c s t :=
  ⟨inside.owner, grows.layers inside.locals, inside.environment, inside.tracer,
    Nat.lt_of_lt_of_le inside.running more⟩

/-! ### Calls -/

/-- The world in which the code of a function runs once the function has been called. -/
def World.calling (w : World) (f : FunctionRef) (args : Arguments) (s : Scope) : World :=
  { w.addEntry (.callStarted (w.functionName f) s.owner args.count) with
    depth := w.depth + 1
    held := (Handle.function f :: s.handles ++ args.handles) ++ w.held }

theorem World.slight_calling {n : Nat} (w : World) (f : FunctionRef) (args : Arguments)
    (s : Scope) : w.Slight n (w.calling f args s) :=
  (w.slight_addEntry _).trans (slight_progress n _ _ _ _)

/-- A call of the body of a bound attribute is put on record. -/
theorem World.calls_calling (grows : start.Extends w) (handler : start.handlerOf? x = some (e, h))
    {g : Function} (code : start.functions[h.function.index]? = some g) {args : Arguments}
    {s : Scope} (owner : s.owner = x.object)
    (count : args.count = if h.kind = .tracedRead then 1 else 0) :
    (w.calling h.function args s).calls = w.calls ++ [x].filterMap start.bodyCall? := by
  have call : start.bodyCall? x = some (w.functionName h.function, s.owner, args.count) := by
    rw [bodyCall?, handler, grows.functionName code, count, owner]
    rfl
  rw [List.filterMap_cons_some call]
  exact w.calls_addEntry _

/-- A call that the limit in force allows runs the code. -/
theorem callFunction_leads {f : FunctionRef} {args : Arguments} {s : Scope} {limit : Nat}
    (given : w.limit = some limit) (room : w.depth < limit)
    {Q : Except BindError Value → World → Prop}
    (runs : Leads (w.calling f args s) (fun self => (w.code f s args).run self) fun r w' =>
      Q r {w' with depth := w'.depth - 1, held := w.held}) :
    Leads w (fun self => callFunction self f args s) Q :=
  Leads.step (fun self => callFunction_of_allowed given (by omega) self f args s)
    (Leads.nested (Leads.holding runs))

/-! ### Handlers -/

namespace Handler

/-- The scope of an evaluation looks names up in the surroundings that there were from the
start. -/
theorem scope_run (grows : start.Extends w) {o : ObjectId} {g : Function}
    (code : start.functions[h.function.index]? = some g)
    (found : start.surroundingsFor? o h = some c) :
    ∃ s layers, h.scope o w = some (.ok s, {w with layers := layers}) ∧
      (∀ {i : Nat} {locals}, w.layers[i]? = some locals → layers[i]? = some locals) ∧
      s.owner = c.owner ∧ layers[s.locals.index]? = some c.locals ∧
      s.environment = c.environment ∧ s.change = none ∧ s.tracer = none := by
  obtain ⟨locals, there, rfl⟩ := Option.map_eq_some_iff.1 found
  have environment : w.functionEnvironment h.function = start.functionEnvironment h.function := by
    rw [World.functionEnvironment, World.functionEnvironment, grows.functions code, code]
  have slot := grows.localStorage? o h.key
  cases stored : start.localStorage? o h.key with
  | some l =>
    rw [stored] at there slot
    refine ⟨⟨o, l, w.functionEnvironment h.function, none, none⟩, w.layers, ?_, id, rfl,
      grows.layers there, environment, rfl, rfl⟩
    unfold Handler.scope
    simp only [Action.read_bind, slot]
    rfl
  | none =>
    rw [stored] at there slot
    cases there
    refine ⟨⟨o, ⟨w.layers.size⟩, w.functionEnvironment h.function, none, none⟩,
      w.layers.push .empty, ?_, World.getElem?_push_of_eq_some _, rfl, Array.getElem?_push_size,
      environment, rfl, rfl⟩
    unfold Handler.scope
    simp only [Action.read_bind, slot]
    rfl

/-- A world in which a traced evaluation has got its scope and its tracer. -/
structure Opened (w : World) (c : Surroundings) (w₁ : World) (s : Scope) : Prop where
  slips : w.Slips w.tracers.size w₁
  limit : w₁.limit = w.limit
  inside : Inside w₁ c s ⟨w.tracers.size⟩
  unchanged : s.change = none
  blank : (w₁.tracer ⟨w.tracers.size⟩).dependencies = []

/-- A traced handler calls its function with a new tracer, and gives it back with the value. -/
theorem readTraced_leads (grows : start.Extends w) (kind : h.kind = .tracedRead) {g : Function}
    (code : start.functions[h.function.index]? = some g)
    (found : start.surroundingsFor? x.object h = some c) {Q : Value → World → Prop}
    (called : ∀ {w₁ s}, Opened w c w₁ s →
      Leads w₁ (fun self => callFunction self h.function (.traced ⟨w.tracers.size⟩) s)
        fun r w' => ∃ u, r = .ok u ∧ Q u {w' with held := w.held}) :
    Leads w (fun self => h.readTraced self x.object x.name) fun r w' =>
      ∃ u, r = .ok (u, ⟨w.tracers.size⟩) ∧ Q u w' := by
  let t : TracerRef := ⟨w.tracers.size⟩
  let w₁ := {w with held := (Invocation.read x.object x.name).handles ++ w.held}
  let w₂ := (w₁.addTracer (.start x.object x.name)).1
  have enter : w.Slips w.tracers.size w₂ :=
    .trans (.progress w w.limit _) ⟨w₁.slight_addTracer x.object x.name, rfl, rfl⟩
  obtain ⟨s, layers, run, old, owner, locals, environment, unchanged, _⟩ :=
    scope_run (grows.trans enter.slight.grows) code found
  let w₃ := {w₂ with layers := layers}
  have opened : Opened w c w₃ {s with tracer := some t} := {
    slips := enter.trans ⟨.of_grows (.of_tables rfl rfl rfl rfl id id old id id id) rfl rfl rfl rfl
      rfl fun whole => ⟨whole.items, whole.entries⟩, rfl, rfl⟩
    limit := rfl
    inside := by
      refine ⟨owner, locals, environment, rfl, ?_⟩
      show w.tracers.size < (w.tracers.push _).size
      rw [Array.size_push]
      omega
    unchanged := unchanged
    blank := by
      show (w₂.tracer t).dependencies = []
      rw [World.tracer_addTracer, if_pos rfl]
      rfl }
  have invoked : Leads w (fun self => h.invoke self (.read x.object x.name)) fun r w' =>
      ∃ u, r = .ok (.traced u t) ∧ Q u w' := by
    obtain ⟨_, f, key⟩ := h
    cases kind
    refine Leads.holding (Leads.add (Leads.after (fun _ => run) (Leads.seq
      ((called opened).mono ?_))))
    rintro r w' ⟨u, rfl, here⟩
    exact ⟨u, rfl, Leads.pure ⟨u, rfl, here⟩⟩
  unfold readTraced
  simp only [if_pos kind]
  refine Leads.seq (invoked.mono ?_)
  rintro r w' ⟨u, rfl, here⟩
  exact ⟨_, rfl, Leads.pure ⟨u, rfl, here⟩⟩

/-- A standard handler calls its function without arguments. -/
theorem read_leads (grows : start.Extends w) (kind : h.kind = .standardRead) {g : Function}
    (code : start.functions[h.function.index]? = some g)
    (found : start.surroundingsFor? x.object h = some c) {n : Nat} {Q : Value → World → Prop}
    (called : ∀ {w₁ s}, w.Slips n w₁ → w₁.limit = w.limit → s.owner = c.owner →
      w₁.layers[s.locals.index]? = some c.locals → s.environment = c.environment →
      s.change = none → s.tracer = none →
        Leads w₁ (fun self => callFunction self h.function .none s)
        fun r w' => ∃ u, r = .ok u ∧ Q u {w' with held := w.held}) :
    Leads w (fun self => h.read self x.object x.name) fun r w' => ∃ u, r = .ok u ∧ Q u w' := by
  let w₁ := {w with held := (Invocation.read x.object x.name).handles ++ w.held}
  have enter : w.Slips n w₁ := .progress w w.limit _
  obtain ⟨s, layers, run, old, owner, locals, environment, unchanged, untraced⟩ :=
    scope_run (grows.trans enter.slight.grows) code found
  let w₂ := {w₁ with layers := layers}
  have ready : w.Slips n w₂ := enter.trans
    ⟨.of_grows (.of_tables rfl rfl rfl rfl id id old id id id) rfl rfl rfl rfl rfl
      fun whole => ⟨whole.items, whole.entries⟩, rfl, rfl⟩
  have invoked : Leads w (fun self => h.invoke self (.read x.object x.name)) fun r w' =>
      ∃ u, r = .ok (.value u) ∧ Q u w' := by
    obtain ⟨_, f, key⟩ := h
    cases kind
    refine Leads.holding (Leads.after (fun _ => run) (Leads.seq
      ((called ready rfl owner locals environment unchanged untraced).mono ?_)))
    rintro r w' ⟨u, rfl, here⟩
    exact ⟨u, rfl, Leads.pure ⟨u, rfl, here⟩⟩
  refine Leads.seq (invoked.mono ?_)
  rintro r w' ⟨u, rfl, here⟩
  exact ⟨_, rfl, Leads.pure ⟨u, rfl, here⟩⟩

/-- A handler of inverted writes calls its function with the new value. -/
theorem write_leads (grows : start.Extends w) (kind : h.kind = .invertedWrite) {g : Function}
    (code : start.functions[h.function.index]? = some g)
    (found : start.surroundingsFor? x.object h = some c) {change : ObjectId} {n : Nat}
    {z : Change} (known : w.change? change = some z) {Q : World → Prop}
    (called : ∀ {w₁ s}, w.Slips n w₁ → w₁.limit = w.limit → s.owner = c.owner →
      w₁.layers[s.locals.index]? = some c.locals → s.environment = c.environment →
      s.change = none → Leads w₁ (fun self => callFunction self h.function (.inverted s z.new) s)
        fun r w' => (∃ u, r = .ok u) ∧ Q {w' with held := w.held}) :
    Leads w (fun self => h.write self x.object x.name change) fun r w' => r = .ok () ∧ Q w' := by
  let w₁ := {w with held := (Invocation.write x.object x.name change).handles ++ w.held}
  have enter : w.Slips n w₁ := .progress w w.limit _
  obtain ⟨s, layers, run, old, owner, locals, environment, unchanged, _⟩ :=
    scope_run (grows.trans enter.slight.grows) code found
  let w₂ := {w₁ with layers := layers}
  have ready : w.Slips n w₂ := enter.trans
    ⟨.of_grows (.of_tables rfl rfl rfl rfl id id old id id id) rfl rfl rfl rfl rfl
      fun whole => ⟨whole.items, whole.entries⟩, rfl, rfl⟩
  have value : (w₂.change? change).elim .null Change.new = z.new := by
    show (w.change? change).elim _ _ = _
    rw [known]
    rfl
  have invoked : Leads w (fun self => h.invoke self (.write x.object x.name change)) fun r w' =>
      r = .ok .written ∧ Q w' := by
    obtain ⟨_, f, key⟩ := h
    cases kind
    refine Leads.holding (Leads.after (fun _ => run) (Leads.read ?_))
    rw [value]
    refine Leads.seq ((called ready rfl owner locals environment unchanged).mono ?_)
    rintro r w' ⟨⟨u, rfl⟩, here⟩
    exact ⟨u, rfl, Leads.pure ⟨rfl, here⟩⟩
  refine Leads.seq (invoked.mono ?_)
  rintro r w' ⟨rfl, here⟩
  exact ⟨_, rfl, Leads.pure ⟨rfl, here⟩⟩

end Handler

/-! ### Engines -/

/-- A read is an evaluation under the limit of the engine. -/
theorem Engine.read_of_evaluate {Q : Value → World → Prop}
    (reader : ((w.engine e).bindings.get? x.name).bind Binding.read = some h)
    (evaluated : Leads {w with limit := some (w.engine e).config.maxDepth}
      (fun self => Engine.evaluate self e x.object x.name h) fun r w' =>
        ∃ u, r = .ok (some u) ∧ Q u {w' with limit := w.limit}) :
    Leads w (fun self => Engine.read self e x.object x.name) fun r w' =>
      ∃ u, r = .ok (some u) ∧ Q u w' := by
  refine Leads.congr (b := fun self => Action.underLimit (w.engine e).config.maxDepth do
    let r ← Action.attempt (Engine.evaluate self e x.object x.name h)
    Engine.settle (w.engine e).config.policy none x.object x.name r) (fun self => ?_) ?_
  · unfold Engine.read
    rw [Action.read_bind]
    simp only [reader]
  refine Leads.underLimit (Leads.seq (Leads.attempt (evaluated.mono ?_)))
  rintro r w' ⟨u, rfl, here⟩
  exact ⟨_, rfl, Leads.of_eq (fun self => rfl) ⟨u, rfl, here⟩⟩

/-- A traced evaluation that succeeds is put on record and linked anew. -/
theorem Engine.read_leads (reader : ((w.engine e).bindings.get? x.name).bind Binding.read = some h)
    (kind : h.kind = .tracedRead) {Q : Value → World → Prop}
    (evaluated : Leads {w with limit := some (w.engine e).config.maxDepth}
      (fun self => h.readTraced self x.object x.name) fun r w₁ => ∃ u t, r = .ok (u, t) ∧
        ∃ w₂, (do Engine.conclude e x.object x.name t; Engine.relink e x.object x.name t :
          Action Unit) w₁ = some (.ok (), w₂) ∧ Q u {w₂ with limit := w.limit}) :
    Leads w (fun self => Engine.read self e x.object x.name) fun r w' =>
      ∃ u, r = .ok (some u) ∧ Q u w' := by
  refine Engine.read_of_evaluate reader ?_
  unfold Engine.evaluate
  simp only [kind, if_true]
  refine Leads.seq (evaluated.mono ?_)
  rintro r w₁ ⟨u, t, rfl, w₂, run, here⟩
  refine ⟨_, rfl, Leads.of_eq (fun self => ?_) ⟨u, rfl, here⟩⟩
  have ends : ((do
      Engine.conclude e x.object x.name t
      Engine.relink e x.object x.name t : Action Unit) >>= fun _ =>
        pure (some u)) w₁ = some (.ok (some u), w₂) :=
    (Action.bind_apply _ _ _).trans (by rw [run]; rfl)
  rw [Action.bind_assoc] at ends
  exact ends

/-- Any other evaluation gives what its handler gives. -/
theorem Engine.readStandard_leads
    (reader : ((w.engine e).bindings.get? x.name).bind Binding.read = some h)
    (kind : h.kind ≠ .tracedRead) {Q : Value → World → Prop}
    (evaluated : Leads {w with limit := some (w.engine e).config.maxDepth}
      (fun self => h.read self x.object x.name) fun r w' =>
        ∃ u, r = .ok u ∧ Q u {w' with limit := w.limit}) :
    Leads w (fun self => Engine.read self e x.object x.name) fun r w' =>
      ∃ u, r = .ok (some u) ∧ Q u w' := by
  refine Engine.read_of_evaluate reader ?_
  unfold Engine.evaluate
  simp only [kind, if_false]
  refine Leads.seq (evaluated.mono ?_)
  rintro r w' ⟨u, rfl, here⟩
  exact ⟨u, rfl, Leads.pure ⟨u, rfl, here⟩⟩

/-- A write that is not suppressed runs the write handler. -/
theorem Engine.write_leads {change : ObjectId}
    (writer : ((w.engine e).bindings.get? x.name).bind Binding.write = some h)
    (free : x.name ∉ (w.engine e).guards) {Q : World → Prop}
    (written : Leads {w with limit := some (w.engine e).config.maxDepth}
      (fun self => h.write self x.object x.name change) fun r w' =>
        r = .ok () ∧ Q {w' with limit := w.limit}) :
    Leads w (fun self => Engine.write self e x.object x.name change) fun r w' =>
      r = .ok () ∧ Q w' := by
  refine Leads.congr (b := fun self => Action.underLimit (w.engine e).config.maxDepth do
    let r ← Action.attempt (h.write self x.object x.name change)
    Engine.settle (w.engine e).config.policy () x.object x.name r) (fun self => ?_) ?_
  · unfold Engine.write
    rw [Action.read_bind, if_neg (by simpa using free)]
    simp only [writer]
  refine Leads.underLimit (Leads.seq (Leads.attempt (written.mono ?_)))
  rintro r w' ⟨rfl, here⟩
  exact ⟨_, rfl, Leads.of_eq (fun self => rfl) ⟨rfl, here⟩⟩

end LiveBinding
