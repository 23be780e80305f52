import LiveBinding.Proofs.Growth

/-! Bodies that only read.

A reading body looks up names that are not reserved, loads attributes through its tracer,
calls `getattr` through its tracer and looks into containers. What it does next depends on
what it found, and in the end there is a program for its result. What such a body comes to
can be said without running it: `consult` follows it through a world in which attributes
have the values of a valuation, and collects the attributes it consults. -/
namespace LiveBinding

/-! ### Syntax -/

/-- One read of a body. -/
inductive Read where
  | name (name : String)
  | load (v : Value) (name : String)
  | getattr (v : Value) (name : String) (fallback : Option Value)

inductive Reading : Type 1 where
  | give (result : Program Value)
  | ask (q : Read) (next : Except BindError Value → Reading)
  | items (r : ListRef) (next : List Value → Reading)
  | entries (r : MapRef) (next : Dict String Value → Reading)

/-- The native function that calls of `getattr` go to. -/
def getattrRef : NativeRef := ⟨0⟩

def Read.request (s : Scope) (t : TracerRef) : Read → Request Value
  | .name n => .getName s n
  | .load v n => .loadAttr t v n
  | .getattr v n fallback => .callTraced t (.native getattrRef) (v :: .str n :: fallback.toList)

/-- The program of a reading body in a scope, recorded by a tracer. -/
def Reading.program (s : Scope) (t : TracerRef) : Reading → Program Value
  | .give result => result
  | .ask q next => .ask (q.request s t) fun r => (next r).program s t
  | .items r next => .ask (.query (.items r)) fun
    | .ok xs => (next xs).program s t
    | .error e => .done (.error e)
  | .entries r next => .ask (.query (.entries r)) fun
    | .ok d => (next d).program s t
    | .error e => .done (.error e)

/-! ### What a read finds -/

/-- Where the names of a body are looked up. -/
structure Surroundings where
  owner : ObjectId
  locals : Dict String Value
  environment : Environment

/-- What a read comes to: an answer that no assignment changes, and perhaps a place that
is recorded, or the value of an attribute, which is recorded. -/
inductive Found where
  | answer (r : Except BindError Value) (recorded : Option Dependency)
  | stored (d : Dependency)

def Environment.outer (x : Environment) (name : String) : Except BindError Value :=
  match x.globals.get? name with
  | some v => .ok v
  | none =>
    match x.builtins.get? name with
    | some v => .ok v
    | none => .error (.nameResolution name)

/-- The place that a read of an attribute is recorded under. -/
def Value.place? (v : Value) (name : String) : Option Dependency :=
  match v with
  | .object o => some ⟨o, name⟩
  | _ => none

/-- What reading an attribute of a value comes to. Nothing is said of views, nor of what
does not exist. -/
def World.findAttr (w : World) (v : Value) (name : String) : Option Found :=
  match v with
  | .object o =>
    match w.entity? o with
    | some (.declared d) =>
      if d.hasAttribute name then some (.stored ⟨o, name⟩)
      else some (.answer (.error (.noSuchAttribute d.typeName name)) none)
    | some (.change c) =>
      match c.attribute? name with
      | some x => some (.answer (.ok x) (some ⟨o, name⟩))
      | none => some (.answer (.error (.noSuchAttribute "Change" name)) none)
    | _ => none
  | other => some (.answer (.error (.noSuchAttribute (w.typeNameOf other) name)) none)

/-- A fallback stands in for an access that is refused. -/
def Found.orElse (place : Option Dependency) (fallback : Option Value) : Found → Found
  | .answer (.error (.access cause)) recorded =>
    match fallback with
    | some x => .answer (.ok x) place
    | none => .answer (.error (.access cause)) recorded
  | found => found

/-- What a name comes to that is not reserved. -/
def World.findName (w : World) (c : Surroundings) (name : String) : Found :=
  match c.locals.get? name with
  | some v => .answer (.ok v) none
  | none =>
    match w.nearest? c.owner name with
    | some o => .stored ⟨o, name⟩
    | none => .answer (c.environment.outer name) none

def Read.find (w : World) (c : Surroundings) : Read → Option Found
  | .name n => if isReserved n then none else some (w.findName c n)
  | .load v n => w.findAttr v n
  | .getattr v n fallback => (w.findAttr v n).map (Found.orElse (v.place? n) fallback)

/-- The answer of a read under a valuation. -/
def Found.answerIn (σ : Dependency → Value) : Found → Except BindError Value
  | .answer r _ => r
  | .stored d => .ok (σ d)

def Found.recorded : Found → Option Dependency
  | .answer _ recorded => recorded
  | .stored d => some d

/-! ### What a body comes to -/

/-- The program of the result and the places that are recorded, in order. -/
def Reading.consult (w : World) (c : Surroundings) (σ : Dependency → Value) :
    Reading → Option (Program Value × List Dependency)
  | .give result => some (result, [])
  | .ask q next =>
    match q.find w c with
    | none => none
    | some found =>
      ((next (found.answerIn σ)).consult w c σ).map fun x =>
        (x.1, found.recorded.toList ++ x.2)
  | .items r next =>
    match w.lists[r.index]? with
    | none => none
    | some xs => (next xs).consult w c σ
  | .entries r next =>
    match w.maps[r.index]? with
    | none => none
    | some d => (next d).consult w c σ

variable {w w' : World} {c : Surroundings} {σ σ' : Dependency → Value}

/-- Attributes that are found are attributes of declared objects. -/
theorem Read.attribute_of_find (grounded : w.Grounded) {x : Declared}
    (here : w.declared? c.owner = some x) {q : Read} {d : Dependency}
    (found : q.find w c = some (.stored d)) : w.Attribute d := by
  have attr {v : Value} {name : String} (found : w.findAttr v name = some (.stored d)) :
      w.Attribute d := by
    unfold World.findAttr at found
    split at found
    · next o =>
      split at found
      · next y entity =>
        split at found
        · next has =>
          cases found
          exact ⟨y, (w.declared?_eq_some).2 entity, has⟩
        · cases found
      · split at found <;> cases found
      · cases found
    · cases found
  cases q with
  | name n =>
    obtain ⟨_, same⟩ := Option.ite_none_left_eq_some.1 found
    have inner : w.findName c n = .stored d := Option.some.inj same
    unfold World.findName at inner
    split at inner
    · cases inner
    · split at inner
      · next o near =>
        cases inner
        exact World.attribute_of_nearest? grounded here near
      · cases inner
  | load v n => exact attr found
  | getattr v n fallback =>
    obtain ⟨y, inner, outer⟩ := Option.map_eq_some_iff.1 found
    cases y with
    | stored d' =>
      cases outer
      exact attr inner
    | answer r recorded =>
      exfalso
      unfold Found.orElse at outer
      split at outer
      · split at outer <;> cases outer
      · cases outer

theorem World.Extends.findAttr (grows : w.Extends w') {v : Value} {name : String} {found : Found}
    (here : w.findAttr v name = some found) : w'.findAttr v name = some found := by
  unfold World.findAttr at here ⊢
  cases v with
  | object o =>
    dsimp only at here ⊢
    cases entity : w.entity? o with
    | none =>
      rw [entity] at here
      cases here
    | some x =>
      rw [entity] at here
      cases x with
      | declared d =>
        obtain ⟨d', there, fixed⟩ := grows.declared ((w.declared?_eq_some).2 entity)
        rw [(w'.declared?_eq_some).1 there]
        dsimp only at here ⊢
        rw [fixed.attributes, fixed.typeName]
        exact here
      | change c =>
        rw [grows.entity entity rfl]
        exact here
      | view p t => cases here
  | _ => exact here

/-- A read finds the same in a world that has grown. -/
theorem World.Extends.find (grows : w.Extends w') (grounded : w.Grounded) {x : Declared}
    (owner : w.declared? c.owner = some x) {q : Read} {found : Found}
    (here : q.find w c = some found) : q.find w' c = some found := by
  cases q with
  | name n =>
    have same : w'.findName c n = w.findName c n := by
      rw [World.findName, World.findName, grows.nearest? grounded n owner]
    show (if isReserved n then none else some (w'.findName c n)) = some found
    rw [same]
    exact here
  | load v n => exact grows.findAttr here
  | getattr v n fallback =>
    obtain ⟨y, inner, outer⟩ := Option.map_eq_some_iff.1 here
    exact Option.map_eq_some_iff.2 ⟨y, grows.findAttr inner, outer⟩

/-- A body comes to the same in a world that has grown. -/
theorem Reading.consult_mono (grows : w.Extends w') (grounded : w.Grounded) {x : Declared}
    (owner : w.declared? c.owner = some x) {b : Reading} {out : Program Value × List Dependency}
    (here : b.consult w c σ = some out) : b.consult w' c σ = some out := by
  induction b generalizing out with
  | give result => exact here
  | ask q next ih =>
    unfold Reading.consult at here ⊢
    cases found : q.find w c with
    | none =>
      rw [found] at here
      cases here
    | some y =>
      rw [found] at here
      rw [grows.find grounded owner found]
      obtain ⟨z, inner, outer⟩ := Option.map_eq_some_iff.1 here
      exact Option.map_eq_some_iff.2 ⟨z, ih _ inner, outer⟩
  | items r next ih =>
    unfold Reading.consult at here ⊢
    cases found : w.lists[r.index]? with
    | none =>
      rw [found] at here
      cases here
    | some xs =>
      rw [found] at here
      rw [grows.lists found]
      exact ih xs here
  | entries r next ih =>
    unfold Reading.consult at here ⊢
    cases found : w.maps[r.index]? with
    | none =>
      rw [found] at here
      cases here
    | some d =>
      rw [found] at here
      rw [grows.maps found]
      exact ih d here

/-- Only the values of what is recorded matter. -/
theorem Reading.consult_congr {b : Reading} {out : Program Value × List Dependency}
    (here : b.consult w c σ = some out) (same : ∀ d ∈ out.2, σ' d = σ d) :
    b.consult w c σ' = some out := by
  induction b generalizing out with
  | give result => exact here
  | ask q next ih =>
    unfold Reading.consult at here ⊢
    cases found : q.find w c with
    | none =>
      rw [found] at here
      cases here
    | some y =>
      rw [found] at here
      obtain ⟨z, inner, rfl⟩ := Option.map_eq_some_iff.1 here
      have answer : y.answerIn σ' = y.answerIn σ := by
        cases y with
        | answer r recorded => rfl
        | stored d =>
          show Except.ok (σ' d) = Except.ok (σ d)
          rw [same d List.mem_cons_self]
      dsimp only
      rw [answer]
      have rest : ∀ d ∈ z.2, σ' d = σ d := fun d mem => same d (List.mem_append_right _ mem)
      exact Option.map_eq_some_iff.2 ⟨z, ih _ inner rest, rfl⟩
  | items r next ih =>
    unfold Reading.consult at here ⊢
    cases found : w.lists[r.index]? with
    | none =>
      rw [found] at here
      cases here
    | some xs =>
      rw [found] at here
      exact ih xs here same
  | entries r next ih =>
    unfold Reading.consult at here ⊢
    cases found : w.maps[r.index]? with
    | none =>
      rw [found] at here
      cases here
    | some d =>
      rw [found] at here
      exact ih d here same

end LiveBinding
