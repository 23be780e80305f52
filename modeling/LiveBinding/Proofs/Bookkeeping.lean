import LiveBinding.Proofs.Moments
import LiveBinding.Proofs.Recording

/-! The books of a tracer.

A tracer keeps what it is told in two places: a list, in the order it was told, and the keys of
what is on the list, which alone are asked whether something is new. Here it is shown that the two
never disagree. Whatever code does, at every moment of every run, two things only can have happened
to a tracer since an earlier moment: it was told something, or it was emptied. So what it has on
record is what it was told since it was last emptied, once each, in the order of the first time.

The requests to a tracer leave it to other code to read an attribute or to run a function, and what
that code tells the tracer is entered first. What a request adds of its own comes after it, and only
if the request succeeds. -/
namespace LiveBinding

/-! ### Entries -/

/-- What can happen to a tracer. -/
inductive Entry where
  | told (d : Dependency)
  | emptied
deriving DecidableEq

/-- What is outstanding after an entry. -/
def Entry.post (ds : List Dependency) : Entry → List Dependency
  | .told d => ds ++ [d]
  | .emptied => []

/-- What was told since the tracer was last emptied, repeats included. -/
def outstanding (es : List Entry) : List Dependency := es.foldl Entry.post []

namespace Tracer
variable {x : Tracer} {ds : List Dependency}

def enter (x : Tracer) : Entry → Tracer
  | .told d => x.record d
  | .emptied => x.drain

def after (x : Tracer) (es : List Entry) : Tracer := es.foldl enter x

theorem after_append (x : Tracer) (es es' : List Entry) :
    x.after (es ++ es') = (x.after es).after es' := List.foldl_append

/-- The list and the keys agree on what is outstanding. -/
structure Accurate (x : Tracer) (ds : List Dependency) : Prop where
  dependencies : x.dependencies = ds.eraseDups
  distinct : (x.dependencies.map Dependency.key).Nodup
  seen : ∀ k, x.seen.contains k = true ↔ k ∈ x.dependencies.map Dependency.key
  contains : ∀ o name,
    x.contains ⟨o, name⟩ = true ↔ ∃ d ∈ x.dependencies, d.object = o ∧ d.name = name

theorem seen_contains_iff (x : Tracer) (k : ObjectId × String) :
    x.seen.contains k = true ↔ k ∈ x.dependencies.map Dependency.key := by
  rw [show k = Dependency.key ⟨k.1, k.2⟩ from rfl, x.seen_iff, List.mem_map]
  constructor
  · exact fun mem => ⟨_, mem, rfl⟩
  · rintro ⟨d, mem, same⟩
    exact Dependency.key_inj.1 same ▸ mem

theorem contains_iff_exists (x : Tracer) (o : ObjectId) (name : String) :
    x.contains ⟨o, name⟩ = true ↔ ∃ d ∈ x.dependencies, d.object = o ∧ d.name = name := by
  rw [contains_iff]
  constructor
  · exact fun mem => ⟨_, mem, rfl, rfl⟩
  · rintro ⟨d, mem, rfl, rfl⟩
    exact mem

theorem distinct_of_nodup (nodup : x.dependencies.Nodup) :
    (x.dependencies.map Dependency.key).Nodup :=
  nodup.map fun _ _ => Dependency.key_inj.1

namespace Accurate

theorem start (o : ObjectId) (name : String) : (Tracer.start o name).Accurate [] where
  dependencies := rfl
  distinct := .nil
  seen := seen_contains_iff _
  contains := contains_iff_exists _

theorem enter (accurate : x.Accurate ds) (e : Entry) : (x.enter e).Accurate (e.post ds) where
  dependencies :=
    match e with
    | .told d => dependencies_record accurate.dependencies d
    | .emptied => rfl
  distinct :=
    match e with
    | .told d => distinct_of_nodup (record_nodup d (.of_map _ accurate.distinct))
    | .emptied => .nil
  seen := seen_contains_iff _
  contains := contains_iff_exists _

/-- Whatever is entered, list and keys go on agreeing. -/
theorem after (accurate : x.Accurate ds) (es : List Entry) :
    (x.after es).Accurate (es.foldl Entry.post ds) := by
  induction es generalizing x ds with
  | nil => exact accurate
  | cons e es ih => exact ih (accurate.enter e)

end Accurate

theorem enter_name (x : Tracer) (e : Entry) :
    (x.enter e).owner = x.owner ∧ (x.enter e).name = x.name := by
  cases e with
  | told d =>
    simp only [enter, record]
    split <;> exact ⟨rfl, rfl⟩
  | emptied => exact ⟨rfl, rfl⟩

theorem after_name (x : Tracer) (es : List Entry) :
    (x.after es).owner = x.owner ∧ (x.after es).name = x.name := by
  induction es generalizing x with
  | nil => exact ⟨rfl, rfl⟩
  | cons e es ih =>
    obtain ⟨owner, name⟩ := x.enter_name e
    exact ⟨(ih _).1.trans owner, (ih _).2.trans name⟩

/-- A tracer that has nothing on record is as new. -/
theorem eq_start_of_nothing (nothing : x.dependencies = []) : x = .start x.owner x.name := by
  have none (k : ObjectId × String) : k ∉ x.seen.keys := by
    rw [Dict.mem_keys, seen_contains_iff, nothing]
    exact List.not_mem_nil
  have bare : x.seen.entries = [] :=
    List.map_eq_nil_iff.1 (List.eq_nil_iff_forall_not_mem.2 none)
  obtain ⟨owner, name, ds, ⟨entries, nodup⟩, seen⟩ := x
  cases nothing
  cases bare
  rfl

/-- A tracer that is emptied is as new. -/
theorem drain_after (x : Tracer) (es : List Entry) :
    (x.after es).drain = .start x.owner x.name := by
  obtain ⟨owner, name⟩ := x.after_name es
  rw [← owner, ← name]
  rfl

end Tracer

/-! ### At every moment of a run -/

/-- If the tracer is there, it stays, and nothing has happened to it but entries in its books. -/
def Enters (t : TracerRef) (w w' : World) : Prop :=
  t.index < w.tracers.size → t.index < w'.tracers.size ∧ ∃ es, w'.tracer t = (w.tracer t).after es

namespace Enters
variable {t : TracerRef} {w w' w₁ w₂ : World}

theorem trans (first : Enters t w w₁) (next : Enters t w₁ w₂) : Enters t w w₂ := by
  intro inside
  obtain ⟨inside₁, es, here⟩ := first inside
  obtain ⟨inside₂, es', there⟩ := next inside₁
  exact ⟨inside₂, es ++ es', by rw [there, here, Tracer.after_append]⟩

/-- What has been recorded has been entered. -/
theorem of_records {ds : List Dependency} (records : Records t ds w w') : Enters t w w' := by
  intro inside
  obtain ⟨inside', same⟩ := records inside
  refine ⟨inside', ds.map .told, ?_⟩
  rw [same, Tracer.after, List.foldl_map]
  rfl

theorem of_tracers (same : w'.tracers = w.tracers) : Enters t w w' :=
  .of_records (.of_tracers same)

theorem drain (u : TracerRef) (w : World) : Enters t w (w.modifyTracer u Tracer.drain) := by
  intro inside
  refine ⟨Nat.lt_of_lt_of_eq inside Array.size_modify.symm, ?_⟩
  rw [World.tracer_modifyTracer]
  split
  · exact ⟨[.emptied], rfl⟩
  · exact ⟨[], rfl⟩

theorem steady : Steady (Enters t) := ⟨trans, fun quiet => of_tracers quiet.tracers⟩

end Enters

namespace World
variable {w w' : World} {t : TracerRef}

/-- Steps that concern tracers make entries; the others leave them alone. -/
theorem Step.enters (step : w.Step w') : Enters t w w' := by
  have same {w w' : World} (tracers : w'.tracers = w.tracers) : Enters t w w' :=
    .of_tracers tracers
  cases step with
  | tracer owner name => exact .of_records (.newTracer _ w)
  | trace u o name => exact .of_records (.record u _ w)
  | drain u => exact .drain u w
  | quiet quiet => exact same quiet.tracers
  | object run =>
    exact Enters.steady.newObject _ (fun _ => same rfl) (fun _ _ => same rfl) _ _ _ run
  | bind run =>
    exact Enters.steady.bindAttribute _ _ _ _ _ (fun _ => same rfl) (fun _ _ => same rfl)
      (fun _ _ => same rfl) (fun _ _ => same rfl) _ _ _ run
  | relink bound run =>
    exact Enters.steady.relink _ _ _ _ (fun _ _ => same rfl) (fun w => .drain _ w)
      (fun _ _ => same rfl) (fun _ _ _ _ => same rfl) (fun _ _ => same rfl) _ _ _ run
  | _ => exact same rfl

/-- Between any two moments of a run nothing happens to a tracer but entries in its books. -/
theorem Later.enters (later : w.Later w') : Enters t w w' := by
  induction later with
  | refl => exact Enters.steady.refl w
  | tail _ step ih => exact ih.trans step.enters

end World

/-! ### What a request enters of its own -/

/-- The tracer is told something, or it is not. -/
def World.tellTracer (w : World) (t : TracerRef) (d : Option Dependency) : World :=
  d.elim w fun d => w.modifyTracer t (·.record d)

theorem World.tracer_tellTracer {w : World} {t : TracerRef} (inside : t.index < w.tracers.size)
    (d : Option Dependency) :
    (w.tellTracer t d).tracer t = (w.tracer t).after (d.toList.map .told) := by
  cases d with
  | none => rfl
  | some d =>
    show (w.modifyTracer t (·.record d)).tracer t = _
    rw [tracer_modifyTracer, if_pos ⟨rfl, inside⟩]
    rfl

/-- What a tracer is told about an attribute that has been read: nothing if it could not be read,
or was not that of an object. -/
def Value.loaded (v : Value) (name : String) : Except BindError Value → Option Dependency
  | .ok _ => v.place? name
  | .error _ => none

/-- What a tracer is told about a call that has ended: nothing if it failed. -/
def World.lookedAt (w : World) (f : Value) (args : List Value) :
    Except BindError Value → Option Dependency
  | .ok _ => w.readBy f args
  | .error _ => none

section
variable {self : Performer} {t : TracerRef} {w : World}

/-- A traced read is the read, and then the tracer is told. -/
theorem loadAttr_apply (v : Value) (name : String) :
    loadAttr self t v name w =
      (Action.holding (.tracer t :: v.handles) (getAttr self v name) w).map fun (r, u) =>
        (r, u.tellTracer t (v.loaded name r)) := by
  unfold loadAttr
  rw [Action.bind_apply]
  rcases Action.holding (.tracer t :: v.handles) (getAttr self v name) w with _ | ⟨_ | x, u⟩
  · rfl
  · rfl
  · cases v <;> rfl

/-- A traced call is the call, and then the tracer is told. -/
theorem callTraced_apply (f : Value) (args : List Value) :
    callTraced self t f args w =
      (Action.holding [.tracer t] (callValue self f args) w).map fun (r, u) =>
        (r, u.tellTracer t (u.lookedAt f args r)) := by
  rw [callTraced_eq, Action.bind_apply]
  rcases Action.holding [.tracer t] (callValue self f args) w with _ | ⟨_ | x, u⟩
  · rfl
  · rfl
  · show (u.readBy f args).elim _ _ = some (_, u.tellTracer t (u.readBy f args))
    cases u.readBy f args <;> rfl

end

/-! ### Accounts of a sequence of requests -/

/-- A request with its answer and the world it leaves. -/
structure Exchange where
  {α : Type}
  request : Request α
  answer : Except BindError α
  after : World

/-- Makes requests one after the other, whatever comes of them. -/
def converse (self : Performer) :
    List ((α : Type) × Request α) → World → Option (List Exchange × World)
  | [], w => some ([], w)
  | ⟨α, q⟩ :: rest, w =>
    match self α q w with
    | none => none
    | some (r, u) => (converse self rest u).map fun (xs, w') => (⟨q, r, u⟩ :: xs, w')

/-- The request is made to the tracer. -/
def Request.addresses (t : TracerRef) : {α : Type} → Request α → Bool
  | _, .trace u .. | _, .loadAttr u .. | _, .callTraced u .. | _, .finalize u => u = t
  | _, _ => false

/-- An account of what a sequence of requests has entered in the books of a tracer, beside the
entries before: what code told the tracer that ran on the way, and what each request
to the tracer added of its own. -/
inductive Account (n : Nat) (t : TracerRef) :
    World → List Entry → List Exchange → List Entry → Prop where
  | nil {w : World} {es : List Entry} : Account n t w es [] es
  | trace {w : World} {o : ObjectId} {name : String} {es all : List Entry} {xs : List Exchange}
      (rest : Account n t (w.modifyTracer t (·.record ⟨o, name⟩))
        (es ++ [.told ⟨o, name⟩]) xs all) :
      Account n t w es
        (⟨.trace t o name, .ok (), w.modifyTracer t (·.record ⟨o, name⟩)⟩ :: xs) all
  /-- The answer is what is outstanding. -/
  | finalize {w : World} {es all : List Entry} {xs : List Exchange}
      (rest : Account n t (w.modifyTracer t Tracer.drain) (es ++ [.emptied]) xs all) :
      Account n t w es
        (⟨.finalize t, .ok (outstanding es).eraseDups, w.modifyTracer t Tracer.drain⟩ :: xs) all
  | loadAttr {w u : World} {v : Value} {name : String} {r : Except BindError Value}
      {es inner all : List Entry} {xs : List Exchange}
      (read : Action.holding (.tracer t :: v.handles) (getAttr (perform n) v name) w = some (r, u))
      (meanwhile : u.tracer t = (w.tracer t).after inner)
      (rest : Account n t (u.tellTracer t (v.loaded name r))
        (es ++ inner ++ (v.loaded name r).toList.map .told) xs all) :
      Account n t w es (⟨.loadAttr t v name, r, u.tellTracer t (v.loaded name r)⟩ :: xs) all
  | callTraced {w u : World} {f : Value} {args : List Value} {r : Except BindError Value}
      {es inner all : List Entry} {xs : List Exchange}
      (call : Action.holding [.tracer t] (callValue (perform n) f args) w = some (r, u))
      (meanwhile : u.tracer t = (w.tracer t).after inner)
      (rest : Account n t (u.tellTracer t (u.lookedAt f args r))
        (es ++ inner ++ (u.lookedAt f args r).toList.map .told) xs all) :
      Account n t w es (⟨.callTraced t f args, r, u.tellTracer t (u.lookedAt f args r)⟩ :: xs) all
  | other {w u : World} {α : Type} {q : Request α} {r : Except BindError α}
      {es inner all : List Entry} {xs : List Exchange} (other : q.addresses t = false)
      (meanwhile : u.tracer t = (w.tracer t).after inner)
      (rest : Account n t u (es ++ inner) xs all) : Account n t w es (⟨q, r, u⟩ :: xs) all

section
variable {n : Nat} {t : TracerRef} {w w' : World} {x : Tracer} {es : List Entry}

/-- What a bracket around other code adds to the books, that code has entered. -/
theorem enters_of_holding {α : Type} {a : Action α} {hs : List Handle} {r : Except BindError α}
    (later : a.Keeps World.Later) (inside : t.index < w.tracers.size)
    (run : Action.holding hs a w = some (r, w')) :
    t.index < w'.tracers.size ∧ ∃ inner, w'.tracer t = (w.tracer t).after inner := by
  obtain ⟨u, ran, rfl⟩ := Action.exists_of_holding run
  exact ((World.Later.hold w hs).trans (later _ _ _ ran)).enters inside

/-- What an exchange enters is known, and any account of what follows can be begun with it. -/
def Accounted (n : Nat) (t : TracerRef) (x : Tracer) (w : World) (es : List Entry) (e : Exchange) :
    Prop :=
  ∃ more, e.after.tracer t = x.after (es ++ more) ∧
    ∀ {xs all}, Account n t e.after (es ++ more) xs all → Account n t w es (e :: xs) all

namespace Accounted

/-- What is told at the end comes after what was entered on the way. -/
theorem tracer_tellTracer {u : World} {inner : List Entry} (inside : t.index < u.tracers.size)
    (books : w.tracer t = x.after es) (meanwhile : u.tracer t = (w.tracer t).after inner)
    (d : Option Dependency) :
    (u.tellTracer t d).tracer t = x.after (es ++ (inner ++ d.toList.map .told)) := by
  rw [World.tracer_tellTracer inside, meanwhile, books, ← Tracer.after_append,
    ← Tracer.after_append]

variable (inside : t.index < w.tracers.size) (books : w.tracer t = x.after es)
include inside books

theorem trace (o : ObjectId) (name : String) : Accounted n t x w es
    ⟨.trace t o name, .ok (), w.modifyTracer t (·.record ⟨o, name⟩)⟩ := by
  refine ⟨[.told ⟨o, name⟩], ?_, .trace⟩
  rw [World.tracer_modifyTracer, if_pos ⟨rfl, inside⟩, books, Tracer.after_append]
  rfl

theorem finalize (accurate : x.Accurate []) : Accounted n t x w es
    ⟨.finalize t, .ok (w.tracer t).dependencies, w.modifyTracer t Tracer.drain⟩ := by
  have due : (w.tracer t).dependencies = (outstanding es).eraseDups := by
    rw [books]
    exact (accurate.after es).dependencies
  rw [due]
  refine ⟨[.emptied], ?_, .finalize⟩
  rw [World.tracer_modifyTracer, if_pos ⟨rfl, inside⟩, books, Tracer.after_append]
  rfl

theorem loadAttr {v : Value} {name : String} {r : Except BindError Value}
    (answer : LiveBinding.loadAttr (perform n) t v name w = some (r, w')) :
    Accounted n t x w es ⟨.loadAttr t v name, r, w'⟩ := by
  rw [loadAttr_apply] at answer
  obtain ⟨⟨r, u⟩, read, ended⟩ := Option.map_eq_some_iff.1 answer
  cases ended
  have later := ((World.frame_later.performing n).getAttr v name).keeps
  obtain ⟨inside', inner, meanwhile⟩ := enters_of_holding later inside read
  refine ⟨_, tracer_tellTracer inside' books meanwhile _, fun rest => .loadAttr read meanwhile ?_⟩
  rwa [List.append_assoc]

theorem callTraced {f : Value} {args : List Value} {r : Except BindError Value}
    (answer : LiveBinding.callTraced (perform n) t f args w = some (r, w')) :
    Accounted n t x w es ⟨.callTraced t f args, r, w'⟩ := by
  rw [callTraced_apply] at answer
  obtain ⟨⟨r, u⟩, call, ended⟩ := Option.map_eq_some_iff.1 answer
  cases ended
  have later := ((World.frame_later.performing n).callValue f args).keeps
  obtain ⟨inside', inner, meanwhile⟩ := enters_of_holding later inside call
  refine ⟨_, tracer_tellTracer inside' books meanwhile _, fun rest => .callTraced call meanwhile ?_⟩
  rwa [List.append_assoc]

theorem other {α : Type} {q : Request α} {r : Except BindError α} (other : q.addresses t = false)
    (answer : perform (n + 1) α q w = some (r, w')) : Accounted n t x w es ⟨q, r, w'⟩ := by
  obtain ⟨_, inner, meanwhile⟩ := (World.later_of_answer answer).enters inside
  refine ⟨inner, ?_, .other other meanwhile⟩
  rw [meanwhile, books, Tracer.after_append]

/-- Whatever is asked, what the exchange enters is known. -/
theorem of_answer {α : Type} {q : Request α} {r : Except BindError α} (accurate : x.Accurate [])
    (answer : perform (n + 1) α q w = some (r, w')) : Accounted n t x w es ⟨q, r, w'⟩ := by
  cases made : q.addresses t with
  | false => exact other inside books made answer
  | true =>
    cases q with
    | trace u o name =>
      obtain rfl : u = t := of_decide_eq_true made
      cases answer
      exact trace inside books o name
    | finalize u =>
      obtain rfl : u = t := of_decide_eq_true made
      cases answer
      exact finalize inside books accurate
    | loadAttr u v name =>
      obtain rfl : u = t := of_decide_eq_true made
      exact loadAttr inside books answer
    | callTraced u f args =>
      obtain rfl : u = t := of_decide_eq_true made
      exact callTraced inside books answer
    | _ => cases made

end Accounted

/-- Every sequence of requests has an account. -/
theorem exists_account {qs : List ((α : Type) × Request α)} {xs : List Exchange}
    (accurate : x.Accurate []) (inside : t.index < w.tracers.size)
    (books : w.tracer t = x.after es)
    (run : converse (perform (n + 1)) qs w = some (xs, w')) :
    t.index < w'.tracers.size ∧
      ∃ all, Account n t w es xs all ∧ w'.tracer t = x.after all := by
  induction qs generalizing w es xs with
  | nil =>
    cases run
    exact ⟨inside, es, .nil, books⟩
  | cons q qs ih =>
    obtain ⟨α, q⟩ := q
    unfold converse at run
    cases answer : perform (n + 1) α q w with
    | none =>
      rw [answer] at run
      cases run
    | some x =>
      obtain ⟨r, u⟩ := x
      rw [answer] at run
      obtain ⟨⟨xs, w''⟩, rest, ended⟩ := Option.map_eq_some_iff.1 run
      cases ended
      -- what follows is accounted for from the books as this exchange leaves them
      obtain ⟨inside', _⟩ := (World.later_of_answer answer).enters inside
      obtain ⟨more, entered, first⟩ := Accounted.of_answer inside books accurate answer
      obtain ⟨inside'', all, account, final⟩ := ih inside' entered rest
      exact ⟨inside'', all, first account, final⟩

/-- **A tracer keeps its books.** Start from a tracer that is new. At every moment from then on, in
the middle of whatever is going on, what it has on record is what is outstanding, once each, in the
order of the first time; the keys are exactly those of the list, which repeats none, and they say
what the tracer contains. When requests are made, to the tracer or not, and whatever fails among
them, there is an account of all that was entered. A request adds of its own what it traces, the
attribute of an object that it loads, or the one that its call reads, and nothing if it fails. To
finalize hands over what is on record and leaves the tracer as it was when it was new. -/
theorem tracer_keeps_books {o : ObjectId} {name : String} (inside : t.index < w.tracers.size)
    (new : w.tracer t = .start o name) :
    (∀ v, w.Later v → ∃ es, v.tracer t = (Tracer.start o name).after es ∧
      (v.tracer t).Accurate (outstanding es)) ∧
    ∀ {qs xs w'}, converse (perform (n + 1)) qs w = some (xs, w') →
      ∃ es, Account n t w [] xs es ∧ w'.tracer t = (Tracer.start o name).after es ∧
        (w'.tracer t).Accurate (outstanding es) ∧
        ∀ m, ∃ u, perform (m + 1) _ (.finalize t) w' = some (.ok (outstanding es).eraseDups, u) ∧
          u.tracer t = .start o name := by
  have begins := Tracer.Accurate.start o name
  refine ⟨fun v later => ?_, fun {qs xs w'} run => ?_⟩
  · obtain ⟨_, es, entered⟩ := later.enters inside
    rw [entered, new]
    exact ⟨es, rfl, begins.after es⟩
  · have nothing : w.tracer t = (Tracer.start o name).after [] := new
    obtain ⟨inside', es, account, final⟩ := exists_account begins inside nothing run
    have accurate : (w'.tracer t).Accurate (outstanding es) := final ▸ begins.after es
    refine ⟨es, account, final, accurate, fun m => ⟨w'.modifyTracer t Tracer.drain, ?_, ?_⟩⟩
    · rw [← accurate.dependencies]
      rfl
    · rw [World.tracer_modifyTracer, if_pos ⟨rfl, inside'⟩, final, Tracer.drain_after]
      rfl

end

namespace logbook

/-- The first attribute is plain. The body of the second tells the tracer of the first object
something and then fails. -/
def session : Program Unit := do
  let o ← .request (.newObject
    { typeName := "Item", parent := none, attributes := .ofList [("x", .int 1), ("y", .int 2)]
      members := [], constants := .empty, storage := .empty, config := none })
  .request (.keep "o" (.object o))
  let t ← .request (.newTracer o "total")
  let gossip ← .request (.newFunction "z_f" ⟨.empty, .empty⟩ fun _ _ => do
    .request (.trace t o "rumour")
    .fail (.evaluation "no more"))
  .request (.bind o "z" .simple gossip (.given 0))

def start : World := (session.run (perform 12) Builtin.world).elim Builtin.world Prod.snd

def object : Value := .object ⟨0⟩

def getattr (args : List Value) : (α : Type) × Request α :=
  ⟨Value, .callTraced ⟨0⟩ (.native getattrRef) args⟩

def load (v : Value) (name : String) : (α : Type) × Request α := ⟨Value, .loadAttr ⟨0⟩ v name⟩

/-- Repeats and failures, one of them after other code has told the tracer something, and in the
middle the tracer is emptied. -/
def requests : List ((α : Type) × Request α) :=
  [⟨Unit, .trace ⟨0⟩ ⟨0⟩ "x"⟩, load object "y", load object "x", load object "w", load object "z",
    load (.int 1) "x", getattr [object, .str "y"], getattr [object, .str "w"],
    ⟨_, .finalize ⟨0⟩⟩, getattr [object, .str "w", .null], load object "x",
    getattr [object, .str "x", .int 7]]

/-- What is handed over when the tracer is emptied. -/
def Exchange.handed? : Exchange → Option (List Dependency)
  | ⟨.finalize _, .ok ds, _⟩ => some ds
  | _ => none

/-- Which requests succeed, what is handed over on the way, and what is on record in the end. -/
def outcome (x : List Exchange × World) : List Bool × List (List Dependency) × List Dependency :=
  (x.1.map fun x => x.answer.toBool, x.1.filterMap Exchange.handed?,
    (x.2.tracer ⟨0⟩).dependencies)

theorem ends : (converse (perform 12) requests start).map outcome = some
    ([true, true, true, false, false, false, true, false, true, true, true, true],
      [[⟨⟨0⟩, "x"⟩, ⟨⟨0⟩, "y"⟩, ⟨⟨0⟩, "rumour"⟩]],
      [⟨⟨0⟩, "w"⟩, ⟨⟨0⟩, "x"⟩]) := by
  decide +kernel

theorem begins : 0 < start.tracers.size ∧ (start.tracer ⟨0⟩).dependencies = [] ∧
    (start.tracer ⟨0⟩).owner = ⟨0⟩ ∧ (start.tracer ⟨0⟩).name = "total" := by
  decide +kernel

/-- What has failed left no pair of its own, and what was told by the body that failed is handed
over with the rest. -/
theorem hands_over_what_was_told : ∃ xs w es, converse (perform 12) requests start = some (xs, w) ∧
    Account 11 ⟨0⟩ start [] xs es ∧
    xs.filterMap Exchange.handed? = [[⟨⟨0⟩, "x"⟩, ⟨⟨0⟩, "y"⟩, ⟨⟨0⟩, "rumour"⟩]] ∧
    (w.tracer ⟨0⟩).dependencies = [⟨⟨0⟩, "w"⟩, ⟨⟨0⟩, "x"⟩] ∧
    (outstanding es).eraseDups = [⟨⟨0⟩, "w"⟩, ⟨⟨0⟩, "x"⟩] := by
  obtain ⟨⟨xs, w⟩, run, ended⟩ := Option.map_eq_some_iff.1 ends
  simp only [outcome, Prod.mk.injEq] at ended
  obtain ⟨inside, nothing, owner, name⟩ := begins
  have new : start.tracer ⟨0⟩ = .start ⟨0⟩ "total" := by
    rw [Tracer.eq_start_of_nothing nothing, owner, name]
  obtain ⟨es, account, _, accurate, _⟩ := (tracer_keeps_books inside new).2 run
  exact ⟨xs, w, es, run, account, ended.2.1, ended.2.2, accurate.dependencies ▸ ended.2.2⟩

end logbook

end LiveBinding
