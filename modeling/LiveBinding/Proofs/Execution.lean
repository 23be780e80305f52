import LiveBinding.Action.Perform

/-! How actions run.

Elementary actions and sequences that start with one are evaluated by rewriting, so a
proof about an operation can execute it symbolically. -/
namespace LiveBinding

namespace Action
variable {α β : Type}

@[simp] theorem pure_apply (a : α) (w : World) : (pure a : Action α) w = some (.ok a, w) := rfl

@[simp] theorem succeed_apply (a : α) (w : World) : succeed a w = some (.ok a, w) := rfl

@[simp] theorem throw_apply (e : BindError) (w : World) :
    (throw e : Action α) w = some (.error e, w) := rfl

@[simp] theorem read_apply (f : World → α) (w : World) : read f w = some (.ok (f w), w) := rfl

@[simp] theorem update_apply (f : World → World) (w : World) :
    update f w = some (.ok (), f w) := rfl

@[simp] theorem add_apply (f : World → World × α) (w : World) :
    add f w = some (.ok (f w).2, (f w).1) := rfl

@[simp] theorem log_apply (e : LogEntry) (w : World) : log e w = some (.ok (), w.addEntry e) := rfl

theorem bind_apply (a : Action α) (f : α → Action β) (w : World) :
    (a >>= f) w = match a w with
      | none => none
      | some (.error e, w) => some (.error e, w)
      | some (.ok x, w) => f x w := rfl

@[simp] theorem pure_bind (a : α) (f : α → Action β) (w : World) : (pure a >>= f) w = f a w := rfl

@[simp] theorem succeed_bind (a : α) (f : α → Action β) (w : World) :
    (succeed a >>= f) w = f a w := rfl

@[simp] theorem throw_bind (e : BindError) (f : α → Action β) (w : World) :
    (throw e >>= f) w = some (.error e, w) := rfl

@[simp] theorem read_bind (f : World → α) (g : α → Action β) (w : World) :
    (read f >>= g) w = g (f w) w := rfl

@[simp] theorem update_bind (f : World → World) (g : Unit → Action β) (w : World) :
    (update f >>= g) w = g () (f w) := rfl

@[simp] theorem add_bind (f : World → World × α) (g : α → Action β) (w : World) :
    (add f >>= g) w = g (f w).2 (f w).1 := rfl

@[simp] theorem log_bind (e : LogEntry) (g : Unit → Action β) (w : World) :
    (log e >>= g) w = g () (w.addEntry e) := rfl

theorem bind_assoc {γ : Type} (a : Action α) (f : α → Action β) (g : β → Action γ) :
    a >>= f >>= g = a >>= fun x => f x >>= g := by
  funext w
  simp only [bind_apply]
  rcases a w with _ | ⟨_ | x, w'⟩ <;> rfl

theorem attempt_apply (a : Action α) (w : World) :
    a.attempt w = match a w with
      | none => none
      | some (r, w) => some (.ok r, w) := rfl

theorem within_apply (enter : World → World) (leave : World → World → World) (a : Action α)
    (w : World) :
    a.within enter leave w = match a (enter w) with
      | none => none
      | some (r, w') => some (r, leave w w') := rfl

/-- The world an action leaves is looked up once it is known to succeed. -/
theorem eq_some_of_isOk {a : Action Unit} {w d : World}
    (ok : ((a w).any fun x => x.1.isOk) = true) : a w = some (.ok (), (a w).elim d Prod.snd) := by
  cases ends : a w with
  | none =>
    rw [ends] at ok
    cases ok
  | some x =>
    rw [ends] at ok
    obtain ⟨_ | _, w'⟩ := x
    · cases ok
    · rfl

/-! ### Taking a run apart -/

/-- A sequence that has ended failed in its first part, or went on from it. -/
theorem exists_of_bind {a : Action α} {f : α → Action β} {w w' : World} {r : Except BindError β}
    (run : (a >>= f) w = some (r, w')) :
    (∃ e, a w = some (.error e, w') ∧ r = .error e) ∨
      ∃ x w₁, a w = some (.ok x, w₁) ∧ f x w₁ = some (r, w') := by
  rw [bind_apply] at run
  split at run
  · cases run
  · next e w₁ failed =>
    cases run
    exact .inl ⟨e, failed, rfl⟩
  · next x w₁ succeeded => exact .inr ⟨x, w₁, succeeded, run⟩

/-- Nothing is done after an action whose value is not needed. -/
theorem exists_of_ignored {a : Action α} {b : β} {w w' : World} {r : Except BindError β}
    (run : (a >>= fun _ => pure b) w = some (r, w')) : ∃ r', a w = some (r', w') := by
  rcases exists_of_bind run with ⟨e, failed, _⟩ | ⟨x, w₁, succeeded, rest⟩
  · exact ⟨_, failed⟩
  · cases rest
    exact ⟨_, succeeded⟩

theorem exists_of_attempt {a : Action α} {w w' : World} {r : Except BindError (Except BindError α)}
    (run : a.attempt w = some (r, w')) : ∃ r', a w = some (r', w') ∧ r = .ok r' := by
  rw [attempt_apply] at run
  split at run
  · cases run
  · next r' w₁ ended =>
    cases run
    exact ⟨r', ended, rfl⟩

/-- Rewording failures does not make any up. -/
theorem of_mapError {f : BindError → BindError} {a : Action α} {x : α} {w w' : World}
    (run : a.mapError f w = some (.ok x, w')) : a w = some (.ok x, w') := by
  unfold mapError at run
  split at run
  · cases run
  · cases run
  · next ended =>
    cases run
    exact ended

theorem exists_of_within {enter : World → World} {leave : World → World → World} {a : Action α}
    {w w' : World} {r : Except BindError α} (run : a.within enter leave w = some (r, w')) :
    ∃ w₁, a (enter w) = some (r, w₁) ∧ w' = leave w w₁ := by
  rw [within_apply] at run
  split at run
  · cases run
  · next r' w₁ ended =>
    cases run
    exact ⟨w₁, ended, rfl⟩

theorem exists_of_holding {hs : List Handle} {a : Action α} {w w' : World}
    {r : Except BindError α} (run : holding hs a w = some (r, w')) :
    ∃ w₁, a {w with held := hs ++ w.held} = some (r, w₁) ∧ w' = {w₁ with held := w.held} :=
  exists_of_within run

end Action

/-! ### Configuration -/

theorem globalConfig_of_some {w : World} {c : Config} (given : w.config = some c) :
    globalConfig w = some (.ok c, w) := by
  simp only [globalConfig, given]

theorem globalConfig_of_none {w : World} (given : w.config = none) :
    globalConfig w =
      some (.ok (.ofVariables w.hostVariables),
        {w with config := some (.ofVariables w.hostVariables)}) := by
  simp only [globalConfig, given]

/-- The limit on nested bodies in force: that of the innermost engine at work, or the global one. -/
def World.limitInForce (w : World) : Nat :=
  w.limit.getD (w.config.getD (.ofVariables w.hostVariables)).maxDepth

/-- The limit in force has been asked for. Only the global one takes looking at the host's
variables, and only once. -/
def World.limitAsked (w : World) : World :=
  { w with
    config :=
      if w.limit.isSome then w.config else some (w.config.getD (.ofVariables w.hostVariables)) }

theorem World.limitAsked_of_some {w : World} {n : Nat} (given : w.limit = some n) :
    w.limitAsked = w := by
  cases w
  cases given
  rfl

theorem depthLimit_eq (w : World) : depthLimit w = some (.ok w.limitInForce, w.limitAsked) := by
  cases given : w.limit with
  | some n => simp only [depthLimit, given, w.limitAsked_of_some given, World.limitInForce,
      Option.getD_some]
  | none =>
    cases config : w.config with
    | some c =>
      have same : w.limitAsked = w := by
        cases w
        cases given
        cases config
        rfl
      simp [depthLimit, given, Action.bind, globalConfig_of_some config, same, World.limitInForce,
        config]
    | none =>
      simp [depthLimit, given, Action.bind, globalConfig_of_none config, World.limitAsked,
        World.limitInForce, config]

/-! ### Calls -/

/-- A call is on record and the limit in force is known. -/
def World.called (w : World) (f : FunctionRef) (args : Arguments) (s : Scope) : World :=
  (w.addEntry (.callStarted (w.functionName f) s.owner args.count)).limitAsked

/-- One body deeper, with some more things held. -/
def World.enter (w : World) (hs : List Handle) : World :=
  {w with depth := w.depth + 1, held := hs ++ w.held}

/-- The world in which the code of a function starts that has been called. -/
def World.entering (w : World) (f : FunctionRef) (args : Arguments) (s : Scope) : World :=
  (w.called f args s).enter (.function f :: s.handles ++ args.handles)

/-- A call runs the body, one level deeper, exactly if the limit in force allows that level. -/
theorem callFunction_eq (self : Performer) (f : FunctionRef) (args : Arguments) (s : Scope)
    (w : World) :
    callFunction self f args s w =
      if w.depth + 1 ≤ w.limitInForce then
        Action.nested (Action.holding (.function f :: s.handles ++ args.handles)
          (runCode self f s args)) (w.called f args s)
      else
        some (.error (.recursionLimit (w.describe s.owner) (w.functionName f) w.limitInForce),
          w.called f args s) := by
  unfold callFunction
  rw [Action.read_bind, Action.log_bind, Action.bind_apply, depthLimit_eq]
  show Action.nested _ (w.called f args s) = _
  unfold Action.nested
  rw [Action.within_apply, Action.within_apply, Action.read_bind]
  by_cases within : w.depth + 1 ≤ w.limitInForce
  · rw [if_pos within, if_neg]
    exact Nat.not_lt_of_le within
  · rw [if_neg within, if_pos]
    · rfl
    · exact Nat.lt_of_not_le within

/-- A call runs the code of its function, if there is room. -/
theorem callFunction_entering {self : Performer} {w : World} {f : FunctionRef}
    {args : Arguments} {s : Scope} (room : w.depth + 1 ≤ w.limitInForce) :
    callFunction self f args s w =
      match (w.code f s args).run self (w.entering f args s) with
      | none => none
      | some (r, u) => some (r, {u with depth := u.depth - 1, held := w.held}) := by
  rw [callFunction_eq, if_pos room]
  unfold Action.nested Action.holding
  rw [Action.within_apply, Action.within_apply]
  unfold World.entering World.enter runCode
  dsimp only
  have code : (w.entering f args s).code = w.code := rfl
  rw [← code]
  unfold World.entering World.enter
  generalize Program.run self _ _ = ends
  rcases ends with _ | ⟨r, u⟩ <;> rfl

/-- A call that the limit in force allows. -/
theorem callFunction_of_allowed {w : World} {limit : Nat} (given : w.limit = some limit)
    (allowed : ¬ limit < w.depth + 1) (self : Performer) (f : FunctionRef) (args : Arguments)
    (s : Scope) :
    callFunction self f args s w =
      Action.nested (Action.holding (.function f :: s.handles ++ args.handles)
        (runCode self f s args))
        (w.addEntry (.callStarted (w.functionName f) s.owner args.count)) := by
  have called : w.called f args s =
      w.addEntry (.callStarted (w.functionName f) s.owner args.count) :=
    World.limitAsked_of_some (w := w.addEntry _) given
  have within : w.depth + 1 ≤ w.limitInForce := by
    rw [World.limitInForce, given]
    exact Nat.le_of_not_lt allowed
  rw [callFunction_eq, if_pos within, called]

/-- A native function runs its code; the function and its arguments are held meanwhile. -/
theorem perform_native {w : World} {f : NativeRef} {g : Native}
    (known : w.natives[f.index]? = some g) (n : Nat) (args : List Value) :
    perform (n + 1) Value (.call (.native f) args) w =
      Action.holding (.native f :: args.flatMap Value.handles)
        ((g.code args).run (perform n)) w := by
  show Action.holding _ (runNative (perform n) f args) w = _
  unfold Action.holding
  rw [Action.within_apply, Action.within_apply]
  unfold runNative
  rw [known]

/-- A call of code that only looks at the world leaves it as it is. -/
theorem perform_native_of_run {w : World} {f : NativeRef} {g : Native} {n : Nat}
    {args : List Value} {r : Except BindError Value} (known : w.natives[f.index]? = some g)
    (run : ∀ held, (g.code args).run (perform n) {w with held := held} =
      some (r, {w with held := held})) :
    perform (n + 1) Value (.call (.native f) args) w = some (r, w) := by
  rw [perform_native known, Action.holding, Action.within_apply, run]

/-! ### Scopes -/

/-- The scope of an evaluation: its locals are the slot that the owner has for the key, or a layer
that is new. -/
def Handler.scopeFor (h : Handler) (o : ObjectId) (w : World) : Scope where
  owner := o
  locals := (w.localStorage? o h.key).getD ⟨w.layers.size⟩
  environment := w.functionEnvironment h.function
  change := none
  tracer := none

/-- An evaluation has got its scope. -/
def Handler.ready (h : Handler) (o : ObjectId) (w : World) : World :=
  if (w.localStorage? o h.key).isSome then w else (w.addLayer .empty).1

theorem Handler.scope_eq (h : Handler) (o : ObjectId) (w : World) :
    h.scope o w = some (.ok (h.scopeFor o w), h.ready o w) := by
  unfold scope ready scopeFor
  rw [Action.read_bind]
  cases w.localStorage? o h.key <;> rfl

end LiveBinding
