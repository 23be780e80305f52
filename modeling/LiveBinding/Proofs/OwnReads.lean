import LiveBinding.Proofs.Checks
import LiveBinding.Proofs.Discretion

/-! Evaluations inside evaluations.

A traced evaluation that reads an attribute may start others, on the same owner and with the same
locals, and so may any body on the way. Each has a tracer of its own. A performer can see to it that
a tracer is used only by the code of its evaluation and the native functions that this code calls:
it gives no answer to anybody else who has a use for the tracer. What the tracer has on record is
then found by following that code alone. -/
namespace LiveBinding

/-! ### Performers -/

/-- Answers requests within so many nested steps, unless they have a use for the tracer. -/
def performDiscreet (t : TracerRef) : Nat → Performer :=
  performChecked fun _ n _ q w _ => !q.uses (perform n) t w

/-- The request runs code on behalf of whoever asks. -/
def Request.delegates {α : Type} : Request α → Bool
  | .holding .. | .call .. | .callTraced .. => true
  | _ => false

/-- Answers the requests of an evaluation within so many nested steps. Its tracer is its own, and
nobody else uses it. -/
def performOwn (t : TracerRef) : Nat → Performer
  | 0 => fun _ _ _ => none
  | n + 1 => fun α q =>
    if q.delegates then respond (performOwn t n) α q else respond (performDiscreet t n) α q

/-! ### Own reads -/

/-- The code that a call runs. -/
def World.codeOf? (w : World) (f : Value) (args : List Value) : Option (Program Value) :=
  match f with
  | .native g => w.natives[g.index]?.map (·.code args)
  | _ => none

/-- What requests add to the list of what has been read through a tracer. -/
abbrev Reader := (α : Type) → Request α → World → List Dependency → List Dependency

/-- What has been read when a program has run. -/
def Program.reads (n : Nat) (reader : Reader) : {α : Type} → Program α → World → List Dependency →
    List Dependency
  | _, .done _, _, ds => ds
  | _, .ask q k, w, ds =>
    match perform n _ q w with
    | none => ds
    | some (r, w') => (k r).reads n reader w' (reader _ q w ds)

/-- What has been read when a function has been called. -/
def callReads (n : Nat) (reader : Reader) (f : Value) (args : List Value) (w : World)
    (ds : List Dependency) : List Dependency :=
  (w.codeOf? f args).elim ds fun p =>
    p.reads n reader (w.hold (f.handles ++ args.flatMap Value.handles)) ds

/-- What an evaluation has read when it has been given an answer: what its own code has, that is,
and not what other bodies read meanwhile. -/
def ownReads (t : TracerRef) : Nat → Reader
  | 0 => fun _ _ _ ds => ds
  | n + 1 => fun _ q w ds =>
    match q with
    | .holding hs p => p.reads n (ownReads t n) (w.hold hs) ds
    | .call f args => callReads n (ownReads t n) f args w ds
    | .callTraced u f args =>
      callReads n (ownReads t n) f args (w.hold [.tracer u]) ds ++ q.reads (perform n) t w
    | q => if q.empties t then [] else ds ++ q.reads (perform n) t w

/-! ### Nobody else -/

variable {t : TracerRef} {α β : Type} {w w' : World}

/-- Who has no use for a tracer reads nothing through it. -/
theorem Request.reads_of_unused {self : Performer} {q : Request α}
    (unused : q.uses self t w = false) :
    q.reads self t w = [] ∧ q.empties t = false := by
  have none {v : Value} (name : String) {u : World} (blind : (u.viewed? t v).isSome = false) :
      viewReads self t v name u = [] := by
    rw [Option.isSome_eq_false_iff, Option.isNone_iff_eq_none] at blind
    rw [viewReads, blind]
  have foreign {s : Scope} (name : String) (u : World)
      (other : decide (s.tracer = some t) = false) : nameReads self t s name u = [] := by
    rw [nameReads, if_neg fun own => of_decide_eq_false other own.1]
  cases q with
  | getName s name => exact ⟨foreign name w unused, rfl⟩
  | readAttr o name => exact ⟨none name unused, rfl⟩
  | getAttr v name => exact ⟨none name unused, rfl⟩
  | loadAttr u v name =>
    obtain ⟨other, blind⟩ := Bool.or_eq_false_iff.1 unused
    refine ⟨?_, rfl⟩
    rw [Request.reads, none (u := w.hold _) name blind]
    simp only [if_neg (of_decide_eq_false other), Action.onSuccess_nil, List.append_nil]
  | callTraced u f args =>
    refine ⟨?_, rfl⟩
    rw [Request.reads]
    simp only [if_neg (of_decide_eq_false unused), Action.onSuccess_nil]
  | trace u o name => exact ⟨if_neg (of_decide_eq_false unused), rfl⟩
  | finalize u => exact ⟨rfl, unused⟩
  | invert s target v =>
    obtain ⟨other, blind⟩ := Bool.or_eq_false_iff.1 unused
    refine ⟨List.append_eq_nil_iff.2 ⟨?_, List.flatMap_eq_nil_iff.2 fun hop mem => ?_⟩, rfl⟩
    · cases target.root? with
      | none => rfl
      | some name => exact foreign name _ other
    · exact none hop.name (Bool.eq_false_iff.2 (List.any_eq_false.1 blind hop mem))
  | _ => exact ⟨rfl, rfl⟩

/-- Whoever is given a discreet answer has left the tracer alone, and the answer is what anybody
would be given. -/
theorem discreet (t : TracerRef) (n : Nat) : Discreet t (performDiscreet t n) (perform n) := by
  induction n with
  | zero => exact ⟨fun _ _ _ _ _ run => (by cases run), fun _ _ _ _ _ run => (by cases run)⟩
  | succ n ih =>
    refine ⟨fun β q w r w' run => ?_, fun β q w r w' run => ?_⟩
    · obtain ⟨m, same, answer, unused⟩ := exists_of_checked run
      cases same
      obtain ⟨silent, lasts⟩ := Request.reads_of_unused (Bool.not_eq_true' _ ▸ unused)
      have answers := ih.respond_at (w := w) q lasts
      rw [silent] at answers
      exact answers r w' answer
    · exact (World.frame_persists.checked _ _ q w r w' run).2

/-! ### The code of an evaluation -/

/-- The tracer has this on record, once each, in the order of the first time. -/
structure OnRecord (t : TracerRef) (ds : List Dependency) (w : World) : Prop where
  inside : t.index < w.tracers.size
  dependencies : (w.tracer t).dependencies = ds.eraseDups

/-- However the first action ends, if it ends, the second ends in the same way, and the tracer has
what has been read on record. -/
def Action.Gathers (t : TracerRef) (reads : World → List Dependency → List Dependency)
    (a b : Action α) : Prop :=
  ∀ w r w', a w = some (r, w') →
    b w = some (r, w') ∧ ∀ ds, OnRecord t ds w → OnRecord t (reads w ds) w'

namespace Action
variable {a b : Action α} {reads : World → List Dependency → List Dependency}

theorem Gathers.of_records {es : World → List Dependency}
    (refines : ∀ w, a.RefinesAt (Records t (es w)) w b) :
    a.Gathers t (fun w ds => ds ++ es w) b := by
  intro w r w' run
  obtain ⟨also, records⟩ := refines w r w' run
  refine ⟨also, fun ds before => ?_⟩
  obtain ⟨inside, recorded⟩ := records before.inside
  exact ⟨inside, by rw [recorded, Tracer.dependencies_foldl before.dependencies]⟩

theorem Gathers.holding (hs : List Handle) (gathers : a.Gathers t reads b) :
    (Action.holding hs a).Gathers t (fun w => reads (w.hold hs)) (Action.holding hs b) := by
  intro w r w' run
  obtain ⟨u, ended, rfl⟩ := exists_of_holding run
  obtain ⟨also, follows⟩ := gathers _ _ _ ended
  refine ⟨by rw [Action.holding, within_apply, also], fun ds before => ?_⟩
  have after : OnRecord t (reads (w.hold hs) ds) u :=
    follows ds ⟨before.inside, before.dependencies⟩
  exact ⟨after.inside, after.dependencies⟩

theorem Gathers.bind {f g : α → Action β} {es : α → World → List Dependency}
    (first : a.Gathers t reads b) (next : ∀ x w, (f x).RefinesAt (Records t (es x w)) w (g x)) :
    (a >>= f).Gathers t (fun w ds => reads w ds ++ b.onSuccess w es) (b >>= g) := by
  intro w r w'' run
  rcases exists_of_bind run with ⟨e, failed, rfl⟩ | ⟨x, w', succeeded, rest⟩
  · obtain ⟨also, follows⟩ := first _ _ _ failed
    refine ⟨by rw [bind_apply, also], fun ds before => ?_⟩
    show OnRecord t (reads w ds ++ b.onSuccess w es) w''
    rw [onSuccess, also, List.append_nil]
    exact follows ds before
  · obtain ⟨also, follows⟩ := first _ _ _ succeeded
    obtain ⟨ends, told⟩ := Gathers.of_records (fun w => next x w) _ _ _ rest
    refine ⟨by rw [bind_apply, also]; exact ends, fun ds before => ?_⟩
    show OnRecord t (reads w ds ++ b.onSuccess w es) w''
    rw [onSuccess, also]
    exact told _ (follows ds before)

end Action

section
variable {n : Nat} {self : Performer} {reader : Reader}
  (asked : ∀ (β : Type) (q : Request β), (self β q).Gathers t (reader β q) (perform n β q))
include asked

theorem Program.gathers (p : Program α) :
    (p.run self).Gathers t (p.reads n reader) (p.run (perform n)) := by
  match p with
  | .done r =>
    intro w r' w' run
    cases run
    exact ⟨rfl, fun _ before => before⟩
  | .ask q k =>
    intro w r w' run
    unfold Program.run at run ⊢
    split at run
    · cases run
    · next r' u answer =>
      obtain ⟨also, follows⟩ := asked _ q _ _ _ answer
      obtain ⟨ends, told⟩ := Program.gathers (k r') _ _ _ run
      refine ⟨by rw [also]; exact ends, fun ds before => ?_⟩
      simp only [Program.reads, also]
      exact told _ (follows ds before)
termination_by structural p

theorem callValue_gathers (f : Value) (args : List Value) :
    (callValue self f args).Gathers t (callReads n reader f args)
    (callValue (perform n) f args) := by
  cases f with
  | native g =>
    have native : (runNative self g args).Gathers t
        (fun w ds => (w.codeOf? (.native g) args).elim ds fun p => p.reads n reader w ds)
        (runNative (perform n) g args) := by
      intro w r w' run
      unfold runNative at run ⊢
      simp only [World.codeOf?]
      cases found : w.natives[g.index]? with
      | none =>
        rw [found] at run
        cases run
        exact ⟨rfl, fun _ before => before⟩
      | some x =>
        rw [found] at run
        exact Program.gathers asked (x.code args) _ _ _ run
    exact native.holding _
  | _ =>
    intro w r w' run
    cases run
    exact ⟨rfl, fun _ before => before⟩

end

/-- What is answered without other code of the evaluation has been read by the request alone. -/
theorem Discreet.gathers {self other : Performer} (H : Discreet t self other) (q : Request α) :
    (respond self α q).Gathers t
      (fun w ds => if q.empties t then [] else ds ++ q.reads other t w) (respond other α q) := by
  by_cases empties : q.empties t = true
  · simp only [if_pos empties]
    cases q with
    | finalize u =>
      obtain rfl : u = t := of_decide_eq_true empties
      intro w r w' run
      cases run
      refine ⟨rfl, fun ds before => ⟨Nat.lt_of_lt_of_eq before.inside Array.size_modify.symm, ?_⟩⟩
      show ((w.modifyTracer u Tracer.drain).tracer u).dependencies = _
      rw [World.tracer_modifyTracer, if_pos ⟨rfl, before.inside⟩]
      rfl
    | _ => cases empties
  · simp only [if_neg empties]
    exact .of_records fun w => H.respond_at q (Bool.eq_false_iff.2 empties)

/-- What the code of an evaluation is answered is what anybody would be given, and its tracer has
what that code has read on record. -/
theorem performOwn_gathers (t : TracerRef) (n : Nat) (q : Request α) :
    (performOwn t n α q).Gathers t (ownReads t n α q) (perform n α q) := by
  induction n generalizing α with
  | zero =>
    intro w r w' run
    cases run
  | succ n ih =>
    have asked (β : Type) (q : Request β) := ih q
    by_cases own : q.delegates = true
    · have same : performOwn t (n + 1) α q = respond (performOwn t n) α q := if_pos own
      rw [same]
      cases q with
      | holding hs p => exact (Program.gathers asked p).holding hs
      | call f args => exact callValue_gathers asked f args
      | callTraced u f args =>
        show (callTraced (performOwn t n) u f args).Gathers t _ (callTraced (perform n) u f args)
        rw [callTraced_eq, callTraced_eq]
        exact ((callValue_gathers asked f args).holding _).bind fun x w => Discreet.told_at u
          f args x
      | _ => cases own
    · have same : performOwn t (n + 1) α q = respond (performDiscreet t n) α q := if_neg own
      rw [same]
      have gathers := (discreet t n).gathers q
      cases q with
      | holding | call | callTraced => cases own rfl
      | _ => exact gathers

/-! ### Traced reads -/

namespace Handler
variable {h : Handler} {o : ObjectId} {name : String} {v : Value} {self : Performer}

/-- Only a traced read gives a tracer. -/
theorem readTraced_of_invoke
    (run : h.invoke self (.read o name) w = some (.ok (.traced v t), w')) :
    h.readTraced self o name w = some (.ok (v, t), w') := by
  cases kind : h.kind with
  | tracedRead =>
    unfold readTraced
    rw [if_pos kind, Action.bind_apply, run]
    rfl
  | standardRead =>
    unfold invoke at run
    obtain ⟨u, served, rfl⟩ := Action.exists_of_holding run
    simp only [kind] at served
    rcases Action.exists_of_bind served with ⟨e, _, ⟨⟩⟩ | ⟨s, _, _, calls⟩
    rcases Action.exists_of_bind calls with ⟨e, _, ⟨⟩⟩ | ⟨x, _, _, gives⟩
    cases gives
  | standardWrite | invertedWrite =>
    unfold invoke at run
    obtain ⟨u, served, rfl⟩ := Action.exists_of_holding run
    simp only [kind] at served
    cases served

theorem invoke_of_readTraced
    (run : h.readTraced self o name w = some (.ok (v, t), w')) :
    h.invoke self (.read o name) w = some (.ok (.traced v t), w') := by
  unfold readTraced at run
  split at run
  · rcases Action.exists_of_bind run with ⟨e, _, ⟨⟩⟩ | ⟨outcome, u, served, gives⟩
    cases outcome with
    | traced x y =>
      cases gives
      exact served
    | value x => cases gives
    | written => cases gives
  · cases run

/-- **Nested traced evaluations keep separate records.** When a traced evaluation succeeds, on
whatever owner, with whatever locals, and wherever among other evaluations it was started, its
tracer has on record exactly what its own code has read through it, once each, in the order of the
first time: attributes that names meant in its scope, attributes read through its own `nonlocals`,
and what the tracer was asked to load, was told, or saw `getattr` read. Nothing is on record that
only another body has read: whatever is asked for meanwhile without a use for the tracer, to any
depth of further evaluations, leaves the tracer as it is. If the code has its tracer start over, the
record is of what has been read since.

References are numbers here, so other code could make up the number of the tracer or of one of its
views. That nobody else uses them is what `performOwn` sees to; it is so if the code has handed them
to nobody. -/
theorem traced_read_keeps_apart {t : TracerRef} {n : Nat} {w w' : World}
    (run : h.invoke (performOwn ⟨w.tracers.size⟩ n) (.read o name) w =
      some (.ok (.traced v t), w')) :
    t = ⟨w.tracers.size⟩ ∧
      h.invoke (perform n) (.read o name) w = some (.ok (.traced v t), w') ∧
      (w'.tracer t).dependencies = ((h.body w (h.scopeOf o w) t).reads n (ownReads t n)
        (h.begun o name w) []).eraseDups ∧
      ∀ {α : Type} (q : Request α) {m u r u'}, t.index < u.tracers.size →
        performDiscreet t m α q u = some (r, u') →
          perform m α q u = some (r, u') ∧ u'.tracer t = u.tracer t := by
  obtain ⟨kind, room, rfl, u, ran, rfl⟩ := exists_of_readTraced (readTraced_of_invoke run)
  obtain ⟨also, follows⟩ := Program.gathers (fun _ => performOwn_gathers ⟨w.tracers.size⟩ n)
    (h.body w (h.scopeOf o w) ⟨w.tracers.size⟩) _ _ _ ran
  have fresh : OnRecord ⟨w.tracers.size⟩ [] (h.begun o name w) := by
    refine ⟨?_, by rw [tracer_begun]; rfl⟩
    rw [(tables_begun name).2.2]
    exact Nat.lt_succ_self _
  refine ⟨rfl, invoke_of_readTraced (readTraced_of_run kind room also),
    (follows [] fresh).dependencies, fun q m u r u' inside answer => ?_⟩
  obtain ⟨same, records⟩ := (discreet ⟨w.tracers.size⟩ m).asked _ q u r u' answer
  exact ⟨same, (records inside).2⟩

end Handler

namespace invoice

/-- What the positions come to. It is kept in a local as well. -/
def subtotal (s : Scope) (_ : Arguments) : Program Value := do
  let price ← .request (.getName s "price")
  let view ← .request (.getName s "nonlocals")
  let _ ← .request (.getAttr view "count")
  .request (.setName s "part" price)
  return price

/-- The total reads the subtotal, which nobody has read before, and then the local. -/
def total (s : Scope) (a : Arguments) : Program Value :=
  match a with
  | .traced t => do
    let _ ← .request (.getName s "subtotal")
    let part ← .request (.getName s "part")
    let view ← .request (.getName s "nonlocals")
    let f ← .request (.getName s "getattr")
    let _ ← .request (.callTraced t f [view, .str "discount"])
    let _ ← .request (.loadAttr t (.object s.owner) "rate")
    let _ ← .request (.getName s "discount")
    .request (.trace t s.owner "terms")
    return part
  | _ => .fail (.evaluation "expected a tracer")

/-- Both are bound on one owner, with one key. -/
def session : Program Unit := do
  let o ← .request (.newObject
    { typeName := "Invoice", parent := none
      attributes := .ofList [("price", .int 3), ("count", .int 2), ("discount", .int 1),
        ("rate", .int 5)]
      members := [], constants := .empty, storage := .ofList [(.given 0, .empty)], config := none })
  .request (.keep "invoice" (.object o))
  let f ← .request (.newFunction "subtotal" (Builtin.environment .empty) subtotal)
  .request (.bind o "subtotal" .subscribe f (.given 0))
  let g ← .request (.newFunction "total" (Builtin.environment .empty) total)
  .request (.bind o "total" .subscribe g (.given 0))

def start : World := (session.run (perform 12) Builtin.world).elim Builtin.world Prod.snd

def handler : Handler := ⟨.tracedRead, ⟨1⟩, .given 0⟩

/-- The world in which the total has been evaluated and nobody else has used its tracer. -/
def after : World :=
  (handler.invoke (performOwn ⟨start.tracers.size⟩ 14) (.read ⟨0⟩ "total") start).elim start
    Prod.snd

theorem total_evaluated :
    (handler.invoke (performOwn ⟨start.tracers.size⟩ 14) (.read ⟨0⟩ "total") start).map Prod.fst =
      some (.ok (.traced (.int 3) ⟨0⟩)) ∧
    ((handler.body start (handler.scopeOf ⟨0⟩ start) ⟨0⟩).reads 14 (ownReads ⟨0⟩ 14)
      (handler.begun ⟨0⟩ "total" start) []).eraseDups =
      [⟨⟨0⟩, "subtotal"⟩, ⟨⟨0⟩, "discount"⟩, ⟨⟨3⟩, "discount"⟩, ⟨⟨0⟩, "rate"⟩, ⟨⟨0⟩, "terms"⟩] ∧
    (after.engine ⟨0⟩).history.head? =
      some (.evaluated "subtotal" ⟨0⟩ [⟨⟨0⟩, "price"⟩, ⟨⟨0⟩, "count"⟩] 0) := by
  decide +kernel

/-- The subtotal is evaluated in the middle, on the same owner and with the same locals. What it
consults is not on the record of the total. -/
theorem consults : ∃ w,
    handler.invoke (perform 14) (.read ⟨0⟩ "total") start =
      some (.ok (.traced (.int 3) ⟨0⟩), w) ∧
    (w.tracer ⟨0⟩).dependencies =
      [⟨⟨0⟩, "subtotal"⟩, ⟨⟨0⟩, "discount"⟩, ⟨⟨3⟩, "discount"⟩, ⟨⟨0⟩, "rate"⟩, ⟨⟨0⟩, "terms"⟩] ∧
    (w.engine ⟨0⟩).history.head? =
      some (.evaluated "subtotal" ⟨0⟩ [⟨⟨0⟩, "price"⟩, ⟨⟨0⟩, "count"⟩] 0) := by
  obtain ⟨ends, reads, inner⟩ := total_evaluated
  obtain ⟨⟨r, w⟩, run, is⟩ := Option.map_eq_some_iff.1 ends
  cases is
  have same : after = w := by rw [after, run, Option.elim_some]
  obtain ⟨_, also, recorded, _⟩ := Handler.traced_read_keeps_apart run
  exact ⟨w, also, recorded.trans reads, same ▸ inner⟩

end invoice

end LiveBinding
