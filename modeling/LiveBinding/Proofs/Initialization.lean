import LiveBinding.Proofs.FirstValues
import LiveBinding.Proofs.Limits
import LiveBinding.Proofs.Populating

/-! Initialization.

Objects are initialized by evaluating whatever is bound and has no value. Attributes may have been
read before, and then they have been evaluated on the way; in whatever order that happens, every
body is called once, and attributes come to the same and record the same. -/
namespace LiveBinding.Scheme
variable {M : Dependency → Type} (S : Scheme M) {w w' : World} {x d : Dependency}
  {xs : List Dependency} {os : List ObjectId}

/-! ### What initialization leads to -/

/-- Reads some attributes, and then initializes objects. -/
def readAndPopulate (xs : List Dependency) (os : List ObjectId) : Program Unit := do
  readEach xs
  populateEach os

/-- Only bound attributes are read, and all objects with bound attributes are initialized. -/
structure Covers (xs : List Dependency) (os : List ObjectId) : Prop where
  bound : ∀ x ∈ xs, S.start.Bound x
  every : ∀ x, S.start.Bound x → x.object ∈ os

/-- Every bound attribute has been evaluated, by one call of its body each, and nothing is left to
evaluate. -/
structure Initialized (w : World) : Prop where
  values : ∀ x, S.start.Bound x → ∃ v, w.valueOf? x = some v ∧ S.means w x v (S.meaning x)
  others : ∀ d, ¬ S.start.Bound d → w.valueOf? d = S.start.valueOf? d
  once : ∃ ys : List Dependency, ys.Nodup ∧ (∀ x, x ∈ ys ↔ S.start.Bound x) ∧
    w.calls = S.start.calls ++ ys.filterMap S.start.bodyCall?
  noted : ∀ x e h, S.start.handlerOf? x = some (e, h) → h.kind = .tracedRead → S.Noted w e x
  settled : ∀ os, Leads w (fun self => (populateEach os).run self) fun r w' => r = .ok () ∧ w' = w

/-- Bound attributes mean the same in two worlds, and the latest evaluations of those that are
traced have recorded the same. -/
structure Agrees (w w' : World) : Prop where
  values : ∀ x, S.start.Bound x → ∃ v v' m, w.valueOf? x = some v ∧ w'.valueOf? x = some v' ∧
    S.means w x v m ∧ S.means w' x v' m
  recorded : ∀ x e h, S.start.handlerOf? x = some (e, h) → h.kind = .tracedRead →
    ∃ v v', (w.engine e).latest x.name = some v ∧ (w'.engine e).latest x.name = some v' ∧
      ∀ d, S.start.has d.object = true → (d ∈ v.consulted ↔ d ∈ v'.consulted)

variable {S}

/-- There is only one way to be initialized, as far as meanings and records go. -/
theorem Initialized.agrees (done : S.Initialized w) (done' : S.Initialized w') :
    S.Agrees w w' where
  values x bound := by
    obtain ⟨v, here, means⟩ := done.values x bound
    obtain ⟨v', here', means'⟩ := done'.values x bound
    exact ⟨v, v', S.meaning x, here, here', means, means'⟩
  recorded x e h handler kind := by
    obtain ⟨v, latest, _, recorded⟩ := done.noted x e h handler kind
    obtain ⟨v', latest', _, recorded'⟩ := done'.noted x e h handler kind
    exact ⟨v, v', latest, latest', fun d there => (recorded d there).trans (recorded' d there).symm⟩

/-! ### Going on from the start -/

/-- What has happened so far has only filled in first values. -/
def Filled (S : Scheme M) (w : World) : Prop := S.Advances 0 S.start.sites.length [] S.start w

/-- Reading a bound attribute succeeds, and the attribute has a value then. -/
theorem Filled.read (sound : S.Sound) (filled : S.Filled w) (bound : S.start.Bound x) :
    Leads w (fun self => readAttr self x.object x.name) fun r w' =>
      (∃ v, r = .ok (some v)) ∧ S.Filled w' ∧ w.Retains w' ∧ (w'.valueOf? x).isSome := by
  have depth : w.depth = 0 :=
    filled.depth.trans (World.idle_of_reachable sound.reachable).depth
  refine (readAttr_leads sound (evaluable sound _) filled.inv (sound.declared bound)
    (fun _ => sound.rank_lt_length bound) (by omega)).mono ?_
  rintro r w' ⟨v, rfl, _, advances, set⟩
  have next := advances.mono (Nat.zero_le _) (Nat.le_refl _)
  exact ⟨⟨v, rfl⟩, filled.trans next, fun _ => next.isSome, set bound⟩

theorem fillable (sound : S.Sound) : World.Fillable S.start S.Filled where
  grows filled := filled.grows
  stable slips filled := filled.trans (.of_slips sound filled.inv slips)
  reads bound filled _ := by
    refine (filled.read sound bound).mono ?_
    rintro r w' ⟨⟨v, rfl⟩, rest⟩
    exact ⟨⟨some v, rfl⟩, rest⟩

/-- In whatever order bound attributes are read, only first values are filled in. -/
theorem readEach_leads (sound : S.Sound) (filled : S.Filled w) (bound : ∀ x ∈ xs, S.start.Bound x) :
    Leads w (fun self => (readEach xs).run self) fun r w' => r = .ok () ∧ S.Filled w' := by
  induction xs generalizing w with
  | nil => exact Leads.done ⟨rfl, filled⟩
  | cons x rest ih =>
    refine Leads.ask (Leads.request (Leads.seq
      ((filled.read sound (bound x List.mem_cons_self)).mono ?_)))
    rintro r w₁ ⟨⟨v, rfl⟩, there, _⟩
    exact ⟨some v, rfl, Leads.pure (ih there fun y mem => bound y (List.mem_cons_of_mem _ mem))⟩

/-- When all bound attributes have values, everything is initialized. -/
theorem Filled.complete (sound : S.Sound) (filled : S.Filled w)
    (set : ∀ x, S.start.Bound x → (w.valueOf? x).isSome) : S.Initialized w where
  values x bound := by
    obtain ⟨v, here⟩ := Option.isSome_iff_exists.1 (set x bound)
    exact ⟨v, here, filled.inv.means bound here⟩
  others d not := filled.inv.free not
  once := by
    obtain ⟨ys, ⟨nodup, gained⟩, calls⟩ := filled.called
    refine ⟨ys, nodup, fun x => ?_, calls⟩
    rw [gained]
    exact ⟨fun all => all.1, fun bound => ⟨bound, sound.unset bound, set x bound⟩⟩
  noted x e h handler kind := filled.inv.noted handler kind (set x ⟨e, h, handler⟩)
  settled os := by
    have every (x : Dependency) (bound : w.Bound x) : (w.valueOf? x).isSome := by
      refine set x ?_
      obtain ⟨e, h, handler⟩ := bound
      exact ⟨e, h, (filled.grows.handlerOf? x).symm.trans handler⟩
    induction os with
    | nil => exact Leads.done ⟨rfl, rfl⟩
    | cons o rest ih =>
      exact Leads.ask (Leads.request
        (Leads.of_eq (fun self => World.populate_still self every o) ih))

/-- **Initialization is complete, evaluates once and does not depend on order.** -/
theorem Sound.initializes (sound : S.Sound) (covers : S.Covers xs os) :
    Leads S.start (fun self => (readAndPopulate xs os).run self) fun r w => r = .ok () ∧
      S.Initialized w ∧ ∀ ⦃xs' os' r' w'⦄, S.Covers xs' os' →
        Ends (fun self => (readAndPopulate xs' os').run self) S.start r' w' → S.Agrees w w' := by
  have leads {xs : List Dependency} {os : List ObjectId} (covers : S.Covers xs os) :
      Leads S.start (fun self => (readAndPopulate xs os).run self) fun r w =>
        r = .ok () ∧ S.Initialized w := by
    have begins : S.Filled S.start := .refl sound sound.inv
    refine Leads.congr (fun self => congrFun (Program.run_bind self _ _) S.start)
      (Leads.seq ((readEach_leads sound begins covers.bound).mono ?_))
    rintro r w₁ ⟨rfl, filled⟩
    refine ⟨(), rfl, (World.populateEach_leads (fillable sound) os filled).mono ?_⟩
    rintro r w ⟨rfl, filled', _, set⟩
    exact ⟨rfl, filled'.complete sound fun x bound => set x bound (covers.every x bound)⟩
  refine (leads covers).mono ?_
  rintro r w ⟨rfl, done⟩
  refine ⟨rfl, done, fun xs' os' r' w' covers' ends => ?_⟩
  obtain ⟨r'', w'', ends', -, done'⟩ := leads covers'
  obtain ⟨-, rfl⟩ := ends.unique ends'
  exact done.agrees done'

end LiveBinding.Scheme

namespace LiveBinding

/-! ### An attribute that is traced and one that is not -/

/-- Twice the integer that a name stands for, with or without a tracer. -/
def twiceCode (name : String) (s : Scope) (_ : Arguments) : Program Value :=
  Program.request (.getName s name) >>= fun
    | .int i => .done (.ok (.int (i + i)))
    | _ => .done (.error (.evaluation "not an integer"))

def lazyEngine : Engine :=
  ((Engine.start {maxDepth := 2}).addBinding "double"
    (Operator.simple.bind ⟨0⟩ (.given 0))).addBinding
    "quadruple" (Operator.subscribe.bind ⟨1⟩ (.given 0))

/-- The functions of two attributes, the second of which reads the first. -/
def lazyFunctions : Array Function :=
  #[⟨"double", ⟨.empty, .empty⟩, twiceCode "base"⟩,
    ⟨"quadruple", ⟨.empty, .empty⟩, twiceCode "double"⟩]

/-- What an attribute is made of. -/
def lazySource (x : Dependency) : Dependency :=
  if x.name = "double" then ⟨⟨0⟩, "base"⟩ else ⟨⟨0⟩, "double"⟩

/-- Attributes are integers; only the second bound attribute is traced. -/
def lazyScheme : Scheme fun _ => Int64 where
  start := itemWorld 2 ["double", "quadruple"] lazyFunctions (some lazyEngine)
  means _ _ v i := v = .int i
  given _ := 1
  reads x _ := [lazySource x]
  records x _ := if x.name = "double" then [] else [lazySource x]
  gives x σ := σ (lazySource x) + σ (lazySource x)

namespace lazyScheme

theorem reachable : Reachable lazyScheme.start := by
  have made : Reachable {itemWorld 2 [] #[] none with desk := .initial} :=
    (Reachable.start Builtin.natives.toArray).ask (n := 1)
      (q := .newObject ⟨"Item", none, .ofList [("base", .int 1)], [], .empty, .empty,
        some {maxDepth := 2}⟩) rfl
  have kept : Reachable (itemWorld 2 [] #[] none) :=
    made.ask (n := 1) (q := .keep "item" (.object ⟨0⟩)) rfl
  have written : Reachable
    (itemWorld 2 [] #[⟨"double", ⟨.empty, .empty⟩, twiceCode "base"⟩] none) :=
    kept.ask (n := 1) (q := .newFunction "double" ⟨.empty, .empty⟩ (twiceCode "base")) rfl
  have bound : Reachable (itemWorld 2 ["double"] #[⟨"double", ⟨.empty, .empty⟩, twiceCode "base"⟩]
      (some ((Engine.start {maxDepth := 2}).addBinding "double"
        (Operator.simple.bind ⟨0⟩ (.given 0))))) :=
    written.ask (n := 1) (q := .bind ⟨0⟩ "double" .simple ⟨0⟩ (.given 0)) rfl
  have both : Reachable (itemWorld 2 ["double"] lazyFunctions
      (some ((Engine.start {maxDepth := 2}).addBinding "double"
        (Operator.simple.bind ⟨0⟩ (.given 0))))) :=
    bound.ask (n := 1) (q := .newFunction "quadruple" ⟨.empty, .empty⟩ (twiceCode "double")) rfl
  exact both.ask (n := 1) (q := .bind ⟨0⟩ "quadruple" .subscribe ⟨1⟩ (.given 0)) rfl

theorem bindings {name : String} {b : Binding}
    (here : (lazyScheme.start.engine ⟨0⟩).bindings.get? name = some b) :
    name = "double" ∧ b = Operator.simple.bind ⟨0⟩ (.given 0) ∨
      name = "quadruple" ∧ b = Operator.subscribe.bind ⟨1⟩ (.given 0) := by
  have entries : (lazyScheme.start.engine ⟨0⟩).bindings.entries =
      [("double", Operator.simple.bind ⟨0⟩ (.given 0)),
        ("quadruple", Operator.subscribe.bind ⟨1⟩ (.given 0))] := rfl
  have mem := Dict.get?_eq_some.1 here
  rw [entries] at mem
  simpa using mem

theorem handlerOf {x : Dependency} {e : EngineRef} {h : Handler}
    (here : lazyScheme.start.handlerOf? x = some (e, h)) : e = ⟨0⟩ ∧
      (x = ⟨⟨0⟩, "double"⟩ ∧ h = ⟨.standardRead, ⟨0⟩, .given 0⟩ ∨
        x = ⟨⟨0⟩, "quadruple"⟩ ∧ h = ⟨.tracedRead, ⟨1⟩, .given 0⟩) := by
  obtain ⟨engine, reader⟩ := World.handlerOf?_eq_some.1 here
  obtain ⟨b, binding, read⟩ := Option.bind_eq_some_iff.1 reader
  obtain ⟨object, rfl⟩ := itemWorld.engineOf engine
  obtain ⟨o, name⟩ := x
  cases object
  refine ⟨rfl, ?_⟩
  rcases bindings binding with ⟨rfl, rfl⟩ | ⟨rfl, rfl⟩
  · cases read
    exact .inl ⟨rfl, rfl⟩
  · cases read
    exact .inr ⟨rfl, rfl⟩

theorem bound_iff {x : Dependency} :
    lazyScheme.start.Bound x ↔ x = ⟨⟨0⟩, "double"⟩ ∨ x = ⟨⟨0⟩, "quadruple"⟩ := by
  constructor
  · rintro ⟨e, h, handler⟩
    exact (handlerOf handler).2.imp And.left And.left
  · rintro (rfl | rfl)
    · exact ⟨⟨0⟩, ⟨.standardRead, ⟨0⟩, .given 0⟩, rfl⟩
    · exact ⟨⟨0⟩, ⟨.tracedRead, ⟨1⟩, .given 0⟩, rfl⟩

/-- The body looks up its source and doubles it. -/
theorem follows (name : String) (σ : Meanings fun _ => Int64) (s : Scope) (args : Arguments)
    (plain : Reserved.ofName? name = none)
    (near : lazyScheme.start.nearest? ⟨0⟩ name = some ⟨0⟩) :
    lazyScheme.Follows ⟨⟨0⟩, .empty, ⟨.empty, .empty⟩⟩ s σ lazyScheme.start (twiceCode name s args)
      [⟨⟨0⟩, name⟩] (s.noting s.tracer ⟨⟨0⟩, name⟩)
      fun _ r => ∃ v, r = .ok v ∧ v = .int (σ ⟨⟨0⟩, name⟩ + σ ⟨⟨0⟩, name⟩) := by
  have looks : lazyScheme.Looks lazyScheme.start ⟨⟨0⟩, .empty, ⟨.empty, .empty⟩⟩ s
      (.getName s name) ⟨⟨0⟩, name⟩ (s.noting s.tracer ⟨⟨0⟩, name⟩) id :=
    .name (fun r reserved => by rw [plain] at reserved; cases reserved) rfl near
  unfold twiceCode
  rw [← List.append_nil (s.noting _ _), ← List.append_nil [_]]
  refine .bind (.read looks) (fun here => ⟨_, here.choose_spec.1⟩) fun _ here => ?_
  obtain ⟨v, same, rfl⟩ := here
  cases same
  exact .still nofun fun {w'} _ _ => Leads.done ⟨⟨.refl w', .of_same fun _ _ => rfl⟩, _, rfl, rfl⟩

theorem reads_iff {x y : Dependency} : lazyScheme.Reads x y ↔
    x = ⟨⟨0⟩, "quadruple"⟩ ∧ y = ⟨⟨0⟩, "double"⟩ := by
  constructor
  · rintro ⟨here, there, σ, mem⟩
    obtain rfl : y = lazySource x := List.mem_singleton.1 mem
    rcases bound_iff.1 here with rfl | rfl
    · rcases bound_iff.1 there with same | same
      · exact absurd (congrArg Dependency.name same) (by decide)
      · exact absurd (congrArg Dependency.name same) (by decide)
    · exact ⟨rfl, rfl⟩
  · rintro ⟨rfl, rfl⟩
    exact ⟨bound_iff.2 (.inr rfl), bound_iff.2 (.inl rfl), fun _ => 0, List.mem_singleton.2 rfl⟩

theorem sound : lazyScheme.Sound where
  reachable := reachable
  grounded := itemWorld.grounded
  binds {o e n b} engine binding := by
    obtain ⟨_, rfl⟩ := itemWorld.engineOf engine
    rcases bindings binding with ⟨_, rfl⟩ | ⟨_, rfl⟩
    · exact ⟨_, _, .inl rfl⟩
    · exact ⟨_, _, .inr rfl⟩
  declared bound := by
    rcases bound_iff.1 bound with rfl | rfl
    · exact ⟨_, rfl, rfl⟩
    · exact ⟨_, rfl, rfl⟩
  unset bound := by
    rcases bound_iff.1 bound with rfl | rfl
    · rfl
    · rfl
  unlinked {x r l} bound registry := by
    have nobody : lazyScheme.start.registry r = .empty := by
      obtain ⟨d, known, rfl⟩ := Option.map_eq_some_iff.1 registry
      obtain ⟨_, rfl⟩ := itemWorld.declared known
      rfl
    rw [nobody]
    rfl
  limited engine := by
    obtain ⟨_, rfl⟩ := itemWorld.engineOf engine
    decide
  realized {x e h} handler := by
    obtain ⟨_, ⟨rfl, rfl⟩ | ⟨rfl, rfl⟩⟩ := handlerOf handler
    · refine ⟨_, _, rfl, rfl, fun σ s owner environment unchanged kind => ?_⟩
      have untraced : s.tracer = none := by
        cases tracer : s.tracer with
        | none => rfl
        | some t =>
          rw [tracer] at kind
          cases kind.1 rfl
      have body := follows "base" σ s s.arguments (by decide) rfl
      rw [untraced] at body
      exact body
    · refine ⟨_, _, rfl, rfl, fun σ s owner environment unchanged kind => ?_⟩
      have traced : s.tracer.isSome := kind.2 rfl
      have body := follows "double" σ s s.arguments (by decide) rfl
      rw [Scope.noting, if_pos ⟨traced, rfl⟩] at body
      exact body
  watched i y here := by cases here
  mono _ means := means
  free {d} is not := by
    obtain ⟨o, name⟩ := d
    obtain ⟨x, known, has⟩ := is
    obtain ⟨rfl, rfl⟩ := itemWorld.declared known
    rcases Bool.or_eq_true_iff.1 has with value | member
    · obtain ⟨v, here⟩ := Option.isSome_iff_exists.1 value
      have mem : (name, v) ∈ [("base", Value.int 1)] := Dict.get?_eq_some.1 here
      simp only [List.mem_singleton, Prod.mk.injEq] at mem
      obtain ⟨rfl, rfl⟩ := mem
      rfl
    · have named : name ∈ ["double", "quadruple"] := List.contains_iff_mem.1 member
      refine absurd (bound_iff.2 ?_) not
      simpa using named
  determined _ same := by
    have here := same _ (List.mem_singleton.2 rfl)
    show _ + _ = _ + _
    rw [here]
  acyclic x way := by
    have ends {y : Dependency} (way : Relation.TransGen lazyScheme.Reads x y) :
        x.name = "quadruple" ∧ y.name = "double" := by
      induction way with
      | single reads =>
        obtain ⟨rfl, rfl⟩ := reads_iff.1 reads
        exact ⟨rfl, rfl⟩
      | tail _ reads ih => exact ⟨ih.1, (reads_iff.1 reads).2 ▸ rfl⟩
    exact absurd ((ends way).1.symm.trans (ends way).2) (by decide)

/-- If the second attribute is read first, its body calls that of the first one; the world that
this leads to is the one that every other order leads to as well. -/
theorem doubles_twice : ∃ w,
    Ends (fun self => (Scheme.readAndPopulate [⟨⟨0⟩, "quadruple"⟩] [⟨0⟩]).run self)
      lazyScheme.start (.ok ()) w ∧
    w.valueOf? ⟨⟨0⟩, "double"⟩ = some (.int 2) ∧ w.valueOf? ⟨⟨0⟩, "quadruple"⟩ = some (.int 4) := by
  have covers : lazyScheme.Covers [⟨⟨0⟩, "quadruple"⟩] [⟨0⟩] := by
    refine ⟨fun x mem => bound_iff.2 (.inr (List.mem_singleton.1 mem)), fun x bound => ?_⟩
    rcases bound_iff.1 bound with rfl | rfl
    · exact List.mem_singleton.2 rfl
    · exact List.mem_singleton.2 rfl
  have base : lazyScheme.meaning ⟨⟨0⟩, "base"⟩ = 1 := Scheme.meaning_of_free fun bound => by
    rcases bound_iff.1 bound with same | same
    · exact absurd (congrArg Dependency.name same) (by decide)
    · exact absurd (congrArg Dependency.name same) (by decide)
  have double : lazyScheme.meaning ⟨⟨0⟩, "double"⟩ = 2 := by
    rw [sound.meaning_of_bound (bound_iff.2 (.inl rfl))]
    show lazyScheme.meaning ⟨⟨0⟩, "base"⟩ + lazyScheme.meaning ⟨⟨0⟩, "base"⟩ = 2
    rw [base]
    rfl
  have quadruple : lazyScheme.meaning ⟨⟨0⟩, "quadruple"⟩ = 4 := by
    rw [sound.meaning_of_bound (bound_iff.2 (.inr rfl))]
    show lazyScheme.meaning ⟨⟨0⟩, "double"⟩ + lazyScheme.meaning ⟨⟨0⟩, "double"⟩ = 4
    rw [double]
    rfl
  obtain ⟨r, w, ends, rfl, done, -⟩ := sound.initializes covers
  obtain ⟨_, here, rfl⟩ := done.values _ (bound_iff.2 (.inl rfl))
  obtain ⟨_, there, rfl⟩ := done.values _ (bound_iff.2 (.inr rfl))
  exact ⟨w, ends, by rw [here, double], by rw [there, quadruple]⟩

end lazyScheme

end LiveBinding
