import LiveBinding.Proofs.Frame
import LiveBinding.Proofs.Reading

/-! What operations record.

A tracer records what names mean in a scope of its own, what is read through its views, and what it
is told itself. An operation records something only through these, so the request that it answers
tells what that is, as long as nobody else uses the tracer meanwhile.

The lemmas compare runs of one operation with two performers. The first may refuse to answer, but
what it does answer it answers like the second. -/
namespace LiveBinding

/-! ### Records of a tracer -/

/-- If the tracer is there, it has recorded these attributes one after the other, and nothing else
has happened to it. -/
def Records (t : TracerRef) (ds : List Dependency) (w w' : World) : Prop :=
  t.index < w.tracers.size →
    t.index < w'.tracers.size ∧ w'.tracer t = ds.foldl Tracer.record (w.tracer t)

namespace Records
variable {t : TracerRef} {ds es : List Dependency} {w w' w₁ w₂ : World}

theorem trans (first : Records t ds w w₁) (next : Records t es w₁ w₂) :
    Records t (ds ++ es) w w₂ := by
  intro inside
  obtain ⟨inside₁, here⟩ := first inside
  obtain ⟨inside₂, there⟩ := next inside₁
  exact ⟨inside₂, by rw [there, here, List.foldl_append]⟩

theorem of_tracers (same : w'.tracers = w.tracers) : Records t [] w w' := by
  intro inside
  refine ⟨same ▸ inside, ?_⟩
  rw [World.tracer, World.tracer, same]
  rfl

/-- What a tracer that is there has recorded, it has on record at the end. -/
theorem record (u : TracerRef) (d : Dependency) (w : World) :
    Records t (if u = t then [d] else []) w (w.modifyTracer u (·.record d)) := by
  intro inside
  refine ⟨Nat.lt_of_lt_of_eq inside Array.size_modify.symm, ?_⟩
  rw [World.tracer_modifyTracer]
  by_cases same : u = t
  · subst same
    rw [if_pos rfl, if_pos ⟨rfl, inside⟩]
    rfl
  · rw [if_neg same, if_neg (same ·.1)]
    rfl

theorem drain {u : TracerRef} (other : u ≠ t) (w : World) :
    Records t [] w (w.modifyTracer u Tracer.drain) := by
  intro inside
  refine ⟨Nat.lt_of_lt_of_eq inside Array.size_modify.symm, ?_⟩
  rw [World.tracer_modifyTracer, if_neg (other ·.1)]
  rfl

theorem newTracer (x : Tracer) (w : World) : Records t [] w (w.addTracer x).1 := by
  intro inside
  refine ⟨?_, ?_⟩
  · show _ < (w.tracers.push x).size
    rw [Array.size_push]
    exact Nat.lt_succ_of_lt inside
  · rw [World.tracer_addTracer, if_neg (Nat.ne_of_lt inside)]
    rfl

theorem steady : Steady (Records t []) where
  trans first next := first.trans next
  quiet quiet := of_tracers quiet.tracers

end Records

namespace Tracer
variable {x : Tracer} {ds : List Dependency}

theorem dependencies_record (before : x.dependencies = ds.eraseDups) (d : Dependency) :
    (x.record d).dependencies = (ds ++ [d]).eraseDups := by
  have known_iff : d ∈ x.dependencies ↔ d ∈ ds := by rw [before, List.mem_eraseDups]
  rw [dependencies_record_eq, List.eraseDups_append, ← before]
  by_cases known : d ∈ ds
  · rw [if_pos (known_iff.2 known), List.removeAll,
      List.filter_cons_of_neg (by simpa using known), List.filter_nil, List.eraseDups_nil,
      List.append_nil]
  · rw [if_neg (mt known_iff.1 known), List.removeAll,
      List.filter_cons_of_pos (by simpa using known), List.filter_nil, List.eraseDups_cons,
      List.filter_nil, List.eraseDups_nil]

/-- What is on record is what has been recorded, once each, in the order of the first time. -/
theorem dependencies_foldl (before : x.dependencies = ds.eraseDups) (es : List Dependency) :
    (es.foldl record x).dependencies = (ds ++ es).eraseDups := by
  induction es generalizing x ds with
  | nil => rw [List.append_nil, ← before, List.foldl_nil]
  | cons d es ih =>
    rw [List.foldl_cons, ih (dependencies_record before d), List.append_assoc,
      List.singleton_append]

end Tracer

/-! ### Refinement -/

namespace Action
variable {α β : Type} {R : World → World → Prop} {w : World}

universe u in
/-- What is made of a success, and nothing otherwise. -/
def onSuccess {γ : Type u} (a : Action α) (w : World) (next : α → World → List γ) : List γ :=
  match a w with
  | some (.ok x, w') => next x w'
  | _ => []

universe u in
theorem onSuccess_nil {γ : Type u} (a : Action α) (w : World) :
    (a.onSuccess w fun _ _ => ([] : List γ)) = [] := by
  unfold onSuccess
  split <;> rfl

universe u v in
theorem onSuccess_flatMap {γ : Type u} {δ : Type v} (a : Action α) (next : α → World → List γ)
    (g : γ → List δ) :
    (a.onSuccess w next).flatMap g = a.onSuccess w fun x w' => (next x w').flatMap g := by
  unfold onSuccess
  split <;> rfl

universe u in
theorem onSuccess_mapError {γ : Type u} (h : BindError → BindError) (a : Action α)
    (next : α → World → List γ) : (a.mapError h).onSuccess w next = a.onSuccess w next := by
  unfold onSuccess Action.mapError
  rcases a w with _ | ⟨_ | x, w'⟩ <;> rfl

namespace RefinesAt
variable {a b : Action α} {f g : α → Action β}

/-- What the parts record, the whole records. -/
theorem records {t : TracerRef} {ds : List Dependency} {es : α → World → List Dependency}
    (first : a.RefinesAt (Records t ds) w b)
    (next : ∀ x w', b w = some (.ok x, w') → (f x).RefinesAt (Records t (es x w')) w' (g x)) :
    (a >>= f).RefinesAt (Records t (ds ++ b.onSuccess w es)) w (b >>= g) := by
  intro r w'' run
  rcases exists_of_bind run with ⟨e, failed, rfl⟩ | ⟨x, w', succeeded, rest⟩
  · obtain ⟨also, here⟩ := first _ _ failed
    rw [onSuccess, bind_apply, also, List.append_nil]
    exact ⟨rfl, here⟩
  · obtain ⟨also, here⟩ := first _ _ succeeded
    obtain ⟨ends, there⟩ := next x w' also r w'' rest
    rw [onSuccess, bind_apply, also]
    exact ⟨ends, here.trans there⟩

/-- The last part need not record anything. -/
theorem silently {t : TracerRef} {ds : List Dependency} (first : a.RefinesAt (Records t ds) w b)
    (next : ∀ x, (f x).Refines (Records t []) (g x)) :
    (a >>= f).RefinesAt (Records t ds) w (b >>= g) := by
  have none : ds ++ b.onSuccess w (fun _ _ => []) = ds := by rw [onSuccess_nil, List.append_nil]
  rw [← none]
  exact first.records fun x w' _ => next x w'

theorem holding {t : TracerRef} {ds : List Dependency} {hs : List Handle}
    (refines : a.RefinesAt (Records t ds) (w.hold hs) b) :
    (Action.holding hs a).RefinesAt (Records t ds) w (Action.holding hs b) :=
  within (fun records => records) refines

end RefinesAt

end Action

/-! ### What is read through a tracer -/

/-- The attribute that a name on an owner chain is read from, if it can be read. -/
def chainReads (self : Performer) (owner : ObjectId) (name : String) (w : World) :
    List Dependency :=
  match w.nearest? owner name with
  | none => []
  | some o => (self _ (.readAttr o name)).onSuccess w fun v _ =>
    if v.isSome then [⟨o, name⟩] else []

namespace World

/-- The owner whose attributes are seen through a view of a tracer. -/
def viewed? (w : World) (t : TracerRef) (v : Value) : Option ObjectId :=
  match v with
  | .object o =>
    match w.entity? o with
    | some (.view owner u) => if u = some t then some owner else none
    | _ => none
  | _ => none

/-- Whether a name means something in a scope before attributes are consulted. -/
def nearer (w : World) (s : Scope) (name : String) : Bool :=
  (match Reserved.ofName? name with
    | some r => w.available s r
    | none => false) ||
    (w.layer s.locals).contains name

/-- The attribute that a call reads if the function is what its name says. -/
def readBy (w : World) (f : Value) (args : List Value) : Option Dependency :=
  match f, args with
  | .native n, .object o :: .str name :: _ =>
    if w.nativeName n = getattrName then some ⟨o, name⟩ else none
  | _, _ => none

end World

/-- Ends a call with its result; the attribute that the call has read is recorded. -/
def told (u : TracerRef) (f : Value) (args : List Value) (x : Value) : Action Value := fun w =>
  (w.readBy f args).elim (some (.ok x, w)) fun d =>
    some (.ok x, w.modifyTracer u (·.record d))

theorem callTraced_eq (self : Performer) (u : TracerRef) (f : Value) (args : List Value) :
    callTraced self u f args =
      Action.holding [.tracer u] (callValue self f args) >>= told u f args := by
  unfold callTraced
  congr 1
  funext x w
  cases f with
  | native n =>
    rcases args with _ | ⟨a, rest⟩
    · rfl
    · cases a with
      | object o =>
        rcases rest with _ | ⟨b, more⟩
        · rfl
        · cases b with
          | str name =>
            show (if w.nativeName n = getattrName then (do record u o name; return x) else pure x :
              Action Value) w = _
            unfold told World.readBy
            dsimp only
            by_cases named : w.nativeName n = getattrName
            · rw [if_pos named, if_pos named]
              rfl
            · rw [if_neg named, if_neg named]
              rfl
          | _ => rfl
      | _ => rfl
  | _ => rfl

/-- The root of the path that an assignment through a target follows. -/
def Target.root? : Target → Option String
  | .attr base _ | .item base _ => some base.root
  | .call function _ => some function
  | .name _ | .unsupported _ => none

/-- An attribute that is read on the way along a path. -/
structure Hop where
  value : Value
  name : String
  world : World

section
variable (self : Performer) (t : TracerRef)

def hops : List String → Value → World → List Hop
  | [], _, _ => []
  | name :: rest, v, w => ⟨v, name, w⟩ :: (getAttr self v name).onSuccess w (hops rest)

/-- The attributes that are read on the way to the base of a target. -/
def Target.hops (s : Scope) (target : Target) (w : World) : List Hop :=
  match target with
  | .attr base _ | .item base _ =>
    (getName self s base.root).onSuccess w (LiveBinding.hops self base.hops)
  | _ => []

/-- What is read through a view of the tracer. -/
def viewReads (v : Value) (name : String) (w : World) : List Dependency :=
  match w.viewed? t v with
  | some owner => chainReads self owner name (w.hold v.handles)
  | none => []

/-- What is read as the meaning of a name in a scope of the tracer. -/
def nameReads (s : Scope) (name : String) (w : World) : List Dependency :=
  if s.tracer = some t ∧ w.nearer s name = false then chainReads self s.owner name w else []

def Hop.reads (hop : Hop) : List Dependency := viewReads self t hop.value hop.name hop.world

/-- What a request reads through a tracer: the meaning of names in a scope of the tracer, attributes
of the owners of its views, and what is read or told with the tracer itself. What only other code
that the request runs reads is not counted. -/
def Request.reads : {α : Type} → Request α → World → List Dependency
  | _, .getName s name, w => nameReads self t s name w
  | _, .readAttr o name, w => viewReads self t (.object o) name w
  | _, .getAttr v name, w => viewReads self t v name w
  | _, .loadAttr u v name, w =>
    viewReads self t v name (w.hold (.tracer u :: v.handles)) ++
      (Action.holding (.tracer u :: v.handles) (LiveBinding.getAttr self v name)).onSuccess
      w fun _ _ =>
        if u = t then (v.place? name).toList else []
  | _, .callTraced u f args, w =>
    (Action.holding [.tracer u] (callValue self f args)).onSuccess w fun _ w' =>
      if u = t then (w'.readBy f args).toList else []
  | _, .trace u o name, _ => if u = t then [⟨o, name⟩] else []
  | _, .invert s target v, w =>
    let held := w.hold (target.handles ++ v.handles)
    target.root?.elim [] (nameReads self t s · held) ++
      (target.hops self s held).flatMap (Hop.reads self t)
  | _, _, _ => []

/-- The request starts the tracer over. -/
def Request.empties : {α : Type} → Request α → Bool
  | _, .finalize u => u = t
  | _, _ => false

/-- The request has a use for the tracer: it looks a name up in a scope of it, reads an attribute of
one of its views, or is a request to the tracer. -/
def Request.uses : {α : Type} → Request α → World → Bool
  | _, .getName s _, _ => s.tracer = some t
  | _, .readAttr o _, w => (w.viewed? t (.object o)).isSome
  | _, .getAttr v _, w => (w.viewed? t v).isSome
  | _, .loadAttr u v _, w => u = t || (w.viewed? t v).isSome
  | _, .callTraced u _ _, _ | _, .trace u _ _, _ | _, .finalize u, _ => u = t
  | _, .invert s target v, w =>
    s.tracer = some t ||
      (target.hops self s (w.hold (target.handles ++ v.handles))).any fun hop =>
        (hop.world.viewed? t hop.value).isSome
  | _, _, _ => false

end

end LiveBinding
