import LiveBinding.Proofs.Checks
import LiveBinding.Proofs.VeiledOperations

/-! Reading with a tracer and without.

A traced read and a standard read of one function come to the same. The traced read makes a tracer,
hands it to the body and puts it into the scope; the body does not look at it. Run in one world,
both go through the same steps, and in the end the worlds differ in what has to do with the tracer.
A tracer keeps what it has recorded, though, and so the two part if something that is recorded would
be gone without it: others have to keep what is recorded. -/
namespace LiveBinding

/-! ### Performers -/

/-- Answers requests within so many nested steps, but not those that ask what the tracer of a call
has recorded, and none before or after which something is not kept by others that the tracer may
record. A body that is not shown the tracer could ask for it only by a number it has made up. -/
def performVeiled (T : TracedCall) : Nat → Performer :=
  performChecked fun _ _ _ q w w' => !q.reveals T.tracer && (T.sustains w && T.sustains w')

theorem TracedCall.unseen (T : TracedCall) (n : Nat) :
    T.Unseen (performVeiled T n) (perform n) := by
  induction n with
  | zero => exact ⟨fun _ => .never fun _ => rfl⟩
  | succ n ih =>
    refine ⟨fun {α q q'} veiled => ?_⟩
    cases mute : q.reveals T.tracer with
    | true =>
      refine .never fun w => Option.filter_eq_none_iff.2 fun x _ => ?_
      simp only [mute, Bool.not_true, Bool.false_and, Bool.false_eq_true, not_false_eq_true]
    | false =>
      refine .congr (fun w => ?_) (fun _ => rfl) (ih.respond veiled mute)
      simp only [performVeiled, performChecked, mute, Bool.not_false, Bool.true_and]

/-! ### The call of a traced read -/

/-- The call that a traced read of an attribute of an object would start here. -/
def World.nextCall (w : World) (o : ObjectId) (held : List Handle) (reach : Nat)
    (bodies : FunctionRef → Prop) : TracedCall where
  tracer := ⟨w.tracers.size⟩
  entry := w.log.size
  outer := .object o :: w.held
  held := held
  reach := reach
  bodies := bodies

namespace Handler
variable {h : Handler} {o : ObjectId} {name : String} {w w₁ : World} {r : Except BindError Value}
  {self other : Performer} {f : FunctionRef} {key : ScopeKey} {held : List Handle} {reach : Nat}
  {bodies : FunctionRef → Prop}

/-- A traced read is a call with a tracer. -/
theorem read_traced (self : Performer) (f : FunctionRef) (key : ScopeKey) (o : ObjectId)
    (name : String) (w : World) :
    (⟨.tracedRead, f, key⟩ : Handler).read self o name w =
      let h : Handler := ⟨.tracedRead, f, key⟩
      (callFunction self f (.traced ⟨w.tracers.size⟩) (h.scopeOf o w) (h.opened o name w)).map
        fun x => (x.1, {x.2 with held := w.held}) := by
  unfold read invoke
  rw [Action.bind_apply, Action.holding, Action.within_apply]
  dsimp only [Invocation.handles]
  rw [Action.add_bind, Action.bind_apply, scope_opened]
  simp only [Action.bind_apply, World.addTracer, scopeOf]
  generalize callFunction self f _ _ (opened _ o name w) = ends
  rcases ends with _ | ⟨_ | v, u⟩ <;> rfl

/-- A standard read is the same call without a tracer. -/
theorem read_standard (self : Performer) (f : FunctionRef) (key : ScopeKey) (o : ObjectId)
    (name : String) (w : World) :
    (⟨.standardRead, f, key⟩ : Handler).read self o name (w.addTracer (.start o name)).1 =
      let h : Handler := ⟨.tracedRead, f, key⟩
      (callFunction self f .none {h.scopeOf o w with tracer := none} (h.opened o name w)).map
        fun x => (x.1, {x.2 with held := w.held}) := by
  let h : Handler := ⟨.tracedRead, f, key⟩
  have scope : (⟨.standardRead, f, key⟩ : Handler).scope o
      {(w.addTracer (.start o name)).1 with
        held := [.object o] ++ (w.addTracer (.start o name)).1.held} =
      some (.ok {h.scopeOf o w with tracer := none}, h.opened o name w) := h.scope_opened o name w
  unfold read invoke
  rw [Action.bind_apply, Action.holding, Action.within_apply]
  dsimp only [Invocation.handles]
  rw [Action.bind_apply, scope]
  simp only [Action.bind_apply]
  generalize callFunction self f _ _ (opened _ o name w) = ends
  rcases ends with _ | ⟨_ | v, u⟩ <;> rfl

theorem tables_opened (h : Handler) (o : ObjectId) (name : String) (w : World) :
    (h.opened o name w).tracers = w.tracers.push (.start o name) ∧
      (h.opened o name w).held = [.object o] ++ w.held ∧
      (h.opened o name w).functions = w.functions ∧ (h.opened o name w).log = w.log := by
  unfold opened ready
  split <;> exact ⟨rfl, rfl, rfl, rfl⟩

theorem sameKeepers_opened (h : Handler) (o : ObjectId) (name : String) (w : World) :
    w.SameKeepers (h.opened o name w) := by
  unfold opened ready
  split
  · exact ⟨rfl, rfl⟩
  · exact (World.sameKeepers_addLayer _).of_eq rfl rfl

/-- The tracer is there and holds the owner. -/
theorem tracer_opened (h : Handler) (o : ObjectId) (name : String) (w : World) :
    w.tracers.size < (h.opened o name w).tracers.size ∧
      ((h.opened o name w).tracer ⟨w.tracers.size⟩).handles = [.object o] := by
  rw [World.tracer, (h.tables_opened o name w).1, Array.size_push, Array.getElem?_push_size]
  exact ⟨Nat.lt_succ_self _, rfl⟩

/-- Once the call is on record the world is the same with the tracer and without, whatever the
number of arguments. -/
theorem same_opened (h : Handler) (name : String)
    (blind : ∀ g, bodies g → ∃ x, w.functions[g.index]? = some x ∧
      (w.nextCall o held reach bodies).Blind x.code)
    (sustained : (w.nextCall o held reach bodies).Sustained w) (owner : .object o ∈ held)
    (function : String) (n m : Nat) :
    (w.nextCall o held reach bodies).Same
      ((h.opened o name w).addEntry (.callStarted function o n))
      ((h.opened o name w).addEntry (.callStarted function o m)) := by
  obtain ⟨-, holds, functions, log⟩ := h.tables_opened o name w
  obtain ⟨begun, handles⟩ := h.tracer_opened o name w
  refine
    { veiled := ?_
      views := fun _ _ => id
      record := List.Subset.refl _
      begun := begun
      recorded := ?_
      outer := fun g mem => holds ▸ mem
      sustained := (sustained.remains (h.sameKeepers_opened o name w)).remains ⟨rfl, rfl⟩
      bodies := ?_ }
  · simp only [TracedCall.veil, World.addEntry, modify_push, World.nextCall, log, if_pos]
    rfl
  · show ((h.opened o name w).tracer ⟨w.tracers.size⟩).handles ⊆ held
    rw [handles]
    exact List.cons_subset.2 ⟨owner, List.nil_subset _⟩
  · intro g body
    obtain ⟨x, here, sees⟩ := blind g body
    exact ⟨x, by rw [← here, ← functions]; rfl, sees⟩

/-- A traced read that somebody watches comes to what an unwatched one and a standard read come
to. -/
theorem read_veiled (H : (w.nextCall o held reach bodies).Unseen self other) (body : bodies f)
    (blind : ∀ g, bodies g → ∃ x, w.functions[g.index]? = some x ∧
      (w.nextCall o held reach bodies).Blind x.code)
    (run : (⟨.tracedRead, f, key⟩ : Handler).read self o name w = some (r, w₁))
    (sustained : (w.nextCall o held reach bodies).Sustained w)
    (sustained' : (w.nextCall o held reach bodies).Sustained w₁)
    (recorded : (w₁.tracer ⟨w.tracers.size⟩).handles ⊆ held) :
    ∃ u u', (⟨.tracedRead, f, key⟩ : Handler).read other o name w = some (r, u) ∧
      (⟨.standardRead, f, key⟩ : Handler).read other o name (w.addTracer (.start o name)).1 =
        some (r, u') ∧
      (w.nextCall o held reach bodies).veil u = (w.nextCall o held reach bodies).veil u' := by
  rw [read_traced] at run
  obtain ⟨⟨r, u₁⟩, ran, ⟨⟩⟩ := Option.map_eq_some_iff.1 run
  rw [callFunction_apply] at ran
  have traced := H.callOnRecord (f := f) (.refl (scopeOf ⟨.tracedRead, f, key⟩ o w))
    (.inl rfl : Arguments.Veiled _ (.traced ⟨w.tracers.size⟩) _) fun same => by
      rw [same.code_eq]
      exact .refl _
  have standard := H.callOnRecord (f := f) (s := scopeOf ⟨.tracedRead, f, key⟩ o w)
    ⟨none, .inr ⟨rfl, rfl⟩, rfl⟩ (.inr ⟨rfl, rfl⟩) fun same =>
      same.code body ⟨none, .inr ⟨rfl, rfl⟩, rfl⟩ (.inr ⟨rfl, rfl⟩)
  obtain ⟨begun, handles⟩ := tracer_opened ⟨.tracedRead, f, key⟩ o name w
  have owner : .object o ∈ held := by
    refine recorded ((traced.onward (w := World.addEntry _ _) begun ran).record ?_)
    show _ ∈ ((opened _ o name w).tracer ⟨w.tracers.size⟩).handles
    rw [handles]
    exact List.mem_cons_self
  have opened := same_opened ⟨.tracedRead, f, key⟩ name blind sustained owner
  have kept : (w.nextCall o held reach bodies).Sustained u₁ := sustained'.remains ⟨rfl, rfl⟩
  obtain ⟨u, also, after⟩ := traced.follows (opened _ 1 1) ran recorded kept
  obtain ⟨u', also', after'⟩ := standard.follows (opened _ 1 0) ran recorded kept
  refine ⟨{u with held := w.held}, {u' with held := w.held}, ?_, ?_, ?_⟩
  · rw [read_traced]
    exact Option.map_eq_some_iff.2 ⟨_, also, rfl⟩
  · rw [read_standard]
    exact Option.map_eq_some_iff.2 ⟨_, also', rfl⟩
  · have veil (u : World) : (w.nextCall o held reach bodies).veil {u with held := w.held} =
        { (w.nextCall o held reach bodies).veil u with
          held := w.held.filter (· ≠ .tracer ⟨w.tracers.size⟩) } := rfl
    rw [veil, veil, ← after.veiled, after'.veiled]

/-- **A tracer does not show.** Whatever a body does that looks neither at the tracer it is handed
nor at the one in its scope, in any state, for any owner and key: a traced read and a standard read
of it give the same value or the same error. In the end the worlds are the same but for what the
tracer has recorded, for the views that record in it, and for the number of arguments that the log
tells of. What the tracer has recorded then would have been there without it all along: before and
after each step labels or the operations around the call hold it, or things that they hold in turn.
The standard read starts with a tracer nobody refers to, so that tracers that are made later have
the same number in both. -/
theorem traced_read_transparent {n : Nat} (body : bodies f)
    (blind : ∀ g, bodies g → ∃ x, w.functions[g.index]? = some x ∧
      (w.nextCall o held reach bodies).Blind x.code)
    (run : performVeiled (w.nextCall o held reach bodies) n Value
      (.readWith ⟨.tracedRead, f, key⟩ o name) w = some (r, w₁))
    (recorded : (w₁.tracer ⟨w.tracers.size⟩).handles ⊆ held) :
    ∃ u u', perform n Value (.readWith ⟨.tracedRead, f, key⟩ o name) w = some (r, u) ∧
      perform n Value (.readWith ⟨.standardRead, f, key⟩ o name) (w.addTracer (.start o name)).1 =
        some (r, u') ∧
      (w.nextCall o held reach bodies).veil u = (w.nextCall o held reach bodies).veil u' := by
  obtain ⟨m, rfl, answer, passed⟩ := exists_of_checked run
  simp only [Bool.and_eq_true, TracedCall.sustains_iff] at passed
  obtain ⟨-, sustained, sustained'⟩ := passed
  exact read_veiled ((w.nextCall o held reach bodies).unseen m) body blind answer sustained
    sustained' recorded

end Handler

namespace lastLink

/-- Reads `x`. -/
def glance (s : Scope) (_ : Arguments) : Program Value := .request (.getName s "x")

/-- Reads `x` twice, and has another object let go of the one that has it in between. -/
def fading (s : Scope) (_ : Arguments) : Program Value := do
  let _ ← .request (.getName s "x")
  let h ← .request (.getName s "h")
  .request (.setAttr h "p" .null)
  .request (.getName s "x")

/-- The bodies look at no tracer. -/
theorem blind (T : TracedCall) : T.Blind glance ∧ T.Blind fading := by
  have named {s s' : Scope} (scope : s.Veiled T s') (name : String)
      (other : name ≠ Reserved.tracer.name) :
      (Program.request (.getName s name)).Veiled T (.request (.getName s' name)) :=
    .request (.getName scope other)
  constructor
  · intro s s' _ _ scope _
    exact named scope "x" (by decide)
  · intro s s' _ _ scope _
    refine .bind (named scope "x" (by decide)) fun _ =>
      .bind (named scope "h" (by decide)) fun h => .bind (.refl _) fun _ => ?_
    exact named scope "x" (by decide)

/-- A child whose parent is held by an attribute of another object, and maybe by a label. -/
def session (labelled : Bool) : Program Unit := do
  let p ← .request (.newObject
    { typeName := "Item", parent := none, attributes := .ofList [("x", .int 7)], members := []
      constants := .empty, storage := .empty, config := none })
  .request (.keep "p" (.object p))
  let o ← .request (.newObject
    { typeName := "Item", parent := some p, attributes := .empty, members := []
      constants := .empty, storage := .empty, config := none })
  .request (.keep "o" (.object o))
  let h ← .request (.newObject
    { typeName := "Item", parent := none, attributes := .ofList [("p", .object p)], members := []
      constants := .empty, storage := .empty, config := none })
  .request (.keep "h" (.object h))
  if !labelled then
    .request (.release .objects "p")

def stage (labelled : Bool) : World :=
  ((session labelled).run (perform 12) (.initial #[])).elim (.initial #[]) Prod.snd

def function (code : Scope → Arguments → Program Value) : Function :=
  ⟨"y", ⟨.ofList [("h", .object ⟨2⟩)], .empty⟩, code⟩

def start (labelled : Bool) : World :=
  (((stage labelled).addFunction (function glance)).1.addFunction (function fading)).1

/-- The bodies are the two. The tracer records the child and its parent, and without a label it is
only through the third object that others keep the parent. -/
def call (labelled : Bool) : TracedCall :=
  (start labelled).nextCall ⟨1⟩ [.object ⟨1⟩, .object ⟨0⟩] (if labelled then 0 else 1) (·.index < 2)

/-- The child is read for `y`. -/
def reads (labelled : Bool) (self : Performer) (kind : HandlerKind) (f : FunctionRef) :
    Option (Except BindError Value × World) :=
  self Value (.readWith ⟨kind, f, .given 0⟩ ⟨1⟩ "y") (start labelled)

theorem kept_or_lost :
    (∀ labelled, (stage labelled).functions.size = 0 ∧ (start labelled).tracers.size = 0) ∧
    (reads true (performVeiled (call true) 12) .tracedRead ⟨1⟩).map
      (fun x => (x.1, (x.2.tracer ⟨0⟩).handles)) =
        some (.ok (.int 7), [.object ⟨1⟩, .object ⟨0⟩]) ∧
    (reads false (performVeiled (call false) 12) .tracedRead ⟨0⟩).map
      (fun x => (x.1, (x.2.tracer ⟨0⟩).handles)) =
        some (.ok (.int 7), [.object ⟨1⟩, .object ⟨0⟩]) ∧
    (reads false (perform 12) .tracedRead ⟨1⟩).map Prod.fst = some (.ok (.int 7)) ∧
    (reads false (perform 12) .standardRead ⟨1⟩).map Prod.fst =
      some (.error (.nameResolution "x")) := by
  decide +kernel

theorem bodies (labelled : Bool) (f : FunctionRef) (known : f.index < 2) :
    ∃ x, (start labelled).functions[f.index]? = some x ∧ ∀ T : TracedCall, T.Blind x.code := by
  have size := (kept_or_lost.1 labelled).1
  have both : (start labelled).functions =
      ((stage labelled).functions.push (function glance)).push (function fading) := rfl
  rw [both]
  obtain ⟨_ | _ | n⟩ := f
  · refine ⟨function glance, ?_, fun T => (blind T).1⟩
    rw [Array.getElem?_push, Array.getElem?_push, Array.size_push, size]
    rfl
  · refine ⟨function fading, ?_, fun T => (blind T).2⟩
    rw [Array.getElem?_push, Array.size_push, size]
    rfl
  · exact absurd known (Nat.not_lt_of_le (Nat.le_add_left 2 n))

/-- Both reads give 7, and leave worlds that differ in nothing but the tracer. -/
def Agree (labelled : Bool) (f : FunctionRef) : Prop := ∃ u u',
  perform 12 Value (.readWith ⟨.tracedRead, f, .given 0⟩ ⟨1⟩ "y") (start labelled) =
    some (.ok (.int 7), u) ∧
  perform 12 Value (.readWith ⟨.standardRead, f, .given 0⟩ ⟨1⟩ "y")
    ((start labelled).addTracer (.start ⟨1⟩ "y")).1 = some (.ok (.int 7), u') ∧
  (call labelled).veil u = (call labelled).veil u'

/-- As long as a label keeps the parent, both reads find `x` twice. Where nothing but the third
object keeps it, both find `x` if nobody makes that let go. -/
theorem finds_both : Agree true ⟨1⟩ ∧ Agree false ⟨0⟩ := by
  obtain ⟨sizes, twice, once, -⟩ := kept_or_lost
  have agree (labelled : Bool) (f : FunctionRef) (known : f.index < 2)
      (ends : (reads labelled (performVeiled (call labelled) 12) .tracedRead f).map
        (fun x => (x.1, (x.2.tracer ⟨0⟩).handles)) =
          some (.ok (.int 7), [.object ⟨1⟩, .object ⟨0⟩])) : Agree labelled f := by
    obtain ⟨⟨r, w₁⟩, run, is⟩ := Option.map_eq_some_iff.1 ends
    obtain ⟨rfl, handles⟩ := Prod.mk.inj is
    refine Handler.traced_read_transparent known (fun g known => ?_) run ?_
    · obtain ⟨x, here, sees⟩ := bodies labelled g known
      exact ⟨x, here, sees _⟩
    · rw [(sizes labelled).2, handles]
      exact List.Subset.refl _
  exact ⟨agree true ⟨1⟩ (by decide) twice, agree false ⟨0⟩ (by decide) once⟩

/-- Without the label, the parent goes with the attribute, and a standard read finds no `x` the
second time. The tracer of a traced read has recorded the parent and keeps it. -/
theorem tracer_keeps_parent :
    (∃ x, (start false).functions[1]? = some x ∧ ∀ T : TracedCall, T.Blind x.code) ∧
    (perform 12 Value (.readWith ⟨.tracedRead, ⟨1⟩, .given 0⟩ ⟨1⟩ "y") (start false)).map Prod.fst =
      some (.ok (.int 7)) ∧
    (perform 12 Value (.readWith ⟨.standardRead, ⟨1⟩, .given 0⟩ ⟨1⟩ "y") (start false)).map
      Prod.fst = some (.error (.nameResolution "x")) := by
  obtain ⟨-, -, -, finds, loses⟩ := kept_or_lost
  exact ⟨bodies false ⟨1⟩ (by decide), finds, loses⟩

end lastLink

end LiveBinding
