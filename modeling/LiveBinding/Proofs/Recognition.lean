import LiveBinding.Builtin
import LiveBinding.Proofs.Bookkeeping
import LiveBinding.Proofs.Obstacles
import LiveBinding.Proofs.Undisturbed

/-! What is taken for an access to an attribute.

A traced call that reads an attribute has it recorded, and a call that reads an attribute can be
assigned to. What reads attributes is a builtin, but both look only at the name that a native
function carries. So they know the builtin whatever it is called by and wherever that is found, and
they are not misled by what else is bound to its name; but another native function that was made
with the name of the builtin, an impostor, is taken for it. -/
namespace LiveBinding

namespace World
variable {w u : World} {f : Value} {args : List Value}

/-- A native function that carries the name of the builtin and is another. -/
def Impostor (w : World) (f : Value) : Prop :=
  ∃ m g, f = .native m ∧ m ≠ getattrRef ∧ w.natives[m.index]? = some g ∧ g.name = getattrName

/-- The function is the builtin that reads attributes, or is taken for it. -/
def PassesForGetattr (w : World) (f : Value) : Prop := f = .native getattrRef ∨ w.Impostor f

/-- The native function that reads attributes is in its place. -/
def HasGetattr (w : World) : Prop :=
  w.natives[getattrRef.index]? = some ⟨getattrName, [], Builtin.getattr⟩

theorem reads_iff (builtin : w.HasGetattr) : w.reads f = true ↔ w.PassesForGetattr f := by
  constructor
  · intro reads
    cases f with
    | native m =>
      have named : w.nativeName m = getattrName := of_decide_eq_true reads
      by_cases same : m = getattrRef
      · exact .inl (congrArg Value.native same)
      · unfold nativeName at named
        split at named
        · next g known => exact .inr ⟨m, g, rfl, same, known, named⟩
        · exact absurd named (by decide)
    | _ => cases reads
  · rintro (rfl | ⟨m, g, rfl, -, known, named⟩)
    · refine decide_eq_true ?_
      rw [nativeName, show w.natives[getattrRef.index]? = _ from builtin]
    · refine decide_eq_true ?_
      rw [nativeName, known]
      exact named

/-- What a call reads is the attribute that its arguments begin with. -/
theorem readBy_eq_some_iff {d : Dependency} : w.readBy f args = some d ↔
    w.reads f = true ∧ ∃ rest, args = .object d.object :: .str d.name :: rest := by
  obtain ⟨o, name⟩ := d
  unfold readBy
  split
  · next m o' name' rest =>
    rw [reads, decide_eq_true_iff]
    split
    · next named => simp [named, and_comm]
    · next other => simp [other]
  · next other =>
    refine iff_of_false (Option.some_ne_none _).symm ?_
    rintro ⟨reads, rest, rfl⟩
    cases f with
    | native m => exact other m o name rest rfl rfl
    | _ => cases reads

end World

section
variable {n : Nat} {w u : World} {f : Value} {args : List Value}

/-- A native function that does not exist does nothing. -/
theorem runNative_of_missing {self : Performer} {m : NativeRef}
    (missing : w.natives[m.index]? = none) : runNative self m args w = some (.ok .null, w) := by
  rw [runNative, missing]

/-- A call does not change what its function passes for. -/
theorem reads_of_call {hs : List Handle} {r : Except BindError Value}
    (call : Action.holding hs (callValue (perform n) f args) w = some (r, u)) :
    u.reads f = w.reads f := by
  obtain ⟨v, ran, rfl⟩ := Action.exists_of_holding call
  cases f with
  | native m =>
    cases known : w.natives[m.index]? with
    | some g =>
      have stay := ((World.frame_natives.performing n).callValue (.native m) args).keeps _ _ _ ran
      have known' : v.natives[m.index]? = some g := stay.2 _ _ known
      simp only [World.reads, World.nativeName, known, known']
    | none =>
      obtain ⟨v', idle, rfl⟩ := Action.exists_of_holding ran
      have nothing : runNative (perform n) m args
          ((w.hold hs).hold (.native m :: args.flatMap Value.handles)) = some (.ok .null, _) :=
        runNative_of_missing known
      cases nothing.symm.trans idle
      rfl
  | _ => rfl

/-! ### Inversions of calls -/

/-- What is left of an inversion when its assignment has ended: what was held is let go, and a
failure is logged. -/
def World.inverted (w : World) (target : Target) :
    Except BindError Unit × World → Except BindError Unit × World
  | (.ok x, u) => (.ok x, {u with held := w.held})
  | (.error e, u) =>
    let u := {u with held := w.held}
    (.error e, u.addEntry (.inversionFailed (u.targetText target) e))

theorem invert_apply (s : Scope) (target : Target) (x : Value) :
    perform (n + 1) Unit (.invert s target x) w =
      (assignTarget (perform n) s x target (w.hold (target.handles ++ x.handles))).map
        (w.inverted target) := by
  show invert (perform n) s target x w = _
  unfold invert
  rw [Action.bind_apply, Action.attempt_apply, Action.holding, Action.within_apply]
  show _ = Option.map _ (assignTarget (perform n) s x target
    {w with held := target.handles ++ x.handles ++ w.held})
  rcases assignTarget (perform n) s x target _ with _ | ⟨_ | _, u⟩ <;> rfl

variable {s : Scope} {function : String} {x : Value}

/-- Once its function is known, an inversion of a call does what becomes of its arguments. -/
theorem invert_call_apply (found : getName (perform n) s function
      (w.hold ((Target.call function args).handles ++ x.handles)) = some (.ok f, u)) :
    perform (n + 1) Unit (.invert s (.call function args) x) w =
      (World.assignGiven (perform n) x function args (u.reads f) u).map
        (w.inverted (.call function args)) := by
  have resolved : (getName (perform n) s function).mapError BindError.unresolved
      (w.hold ((Target.call function args).handles ++ x.handles)) = some (.ok f, u) := by
    rw [Action.mapError, found]
  rw [invert_apply, assignTarget_call, Action.bind_apply, resolved]
  rfl

/-- **An access to an attribute is known by the name of its function.** The builtin that reads
attributes passes for itself, whatever name of whatever layer leads to it, and of all other values
exactly the impostors pass for it. A traced call that succeeds records the attribute that its
arguments begin with if the function passes, and nothing of its own otherwise. A call whose function
is found can be inverted exactly if the function passes and has been given a value and a name, and
then the inversion is the assignment to that attribute; otherwise it fails, says why, and assigns
nothing. -/
theorem attribute_access_goes_by_name (builtin : w.HasGetattr) :
    (∀ {t f args r w'}, perform (n + 1) Value (.callTraced t f args) w = some (r, w') →
      ∃ u told, Action.holding [.tracer t] (callValue (perform n) f args) w = some (r, u) ∧
        w' = u.tellTracer t told ∧
        ∀ d, told = some d ↔ (∃ x, r = .ok x) ∧ w.PassesForGetattr f ∧
          ∃ rest, args = .object d.object :: .str d.name :: rest) ∧
    ∀ {s function args x f u}, getName (perform n) s function
        (w.hold ((Target.call function args).handles ++ x.handles)) = some (.ok f, u) →
      (∀ o name, u.PassesForGetattr f → args = [o, .str name] →
        perform (n + 1) Unit (.invert s (.call function args) x) w =
          ((setAttr (perform n) o name x).mapError BindError.refused u).map
            (w.inverted (.call function args))) ∧
      (u.PassesForGetattr f → (∀ o name, args ≠ [o, .str name]) →
        perform (n + 1) Unit (.invert s (.call function args) x) w =
          some (w.inverted (.call function args) (.error (.inversion .badArguments), u))) ∧
      (¬ u.PassesForGetattr f →
        perform (n + 1) Unit (.invert s (.call function args) x) w =
          some (w.inverted (.call function args)
            (.error (.inversion (.notInvertible function)), u))) := by
  refine ⟨fun {t f args r w'} run => ?_, fun {s function args x f u} found => ?_⟩
  · change callTraced (perform n) t f args w = _ at run
    rw [callTraced_apply] at run
    obtain ⟨⟨_, u⟩, call, ended⟩ := Option.map_eq_some_iff.1 run
    cases ended
    refine ⟨u, _, call, rfl, fun d => ?_⟩
    rw [← World.reads_iff builtin, ← reads_of_call call]
    cases r with
    | ok x => exact World.readBy_eq_some_iff.trans (by simp)
    | error e => simp [World.lookedAt]
  · have kept : u.HasGetattr :=
      (((World.frame_natives.performing n).getName s function).keeps _ _ _ found).2 _ _ builtin
    rw [invert_call_apply found, ← World.reads_iff kept]
    unfold World.assignGiven
    refine ⟨?_, ?_, ?_⟩
    · rintro o name reads rfl
      rw [if_pos reads]
    · intro reads other
      rw [if_pos reads]
      split
      · exact absurd rfl (other _ _)
      · rfl
    · intro other
      rw [if_neg other]
      rfl

end

namespace masquerade

/-- The globals call the builtin by another name, and something else by its name. A native function
of that name that only counts to nine is called something else again. -/
def session : Program Unit := do
  let o ← .request (.newObject
    { typeName := "Item", parent := none, attributes := .ofList [("x", .int 1)]
      members := [], constants := .empty, storage := .empty, config := none })
  .request (.keep "o" (.object o))
  let _ ← .request (.newTracer o "total")
  let nine ← .request (.newNative "getattr" [] fun _ => pure (.int 9))
  let l ← .request (.newLayer .empty)
  .request (.keep "s" (.scope ⟨o, l, Builtin.environment (.ofList
    [("read", .native getattrRef), ("getattr", .native ⟨3⟩), ("nine", nine)]), none, none⟩))

def start : World := (session.run (perform 12) Builtin.world).elim Builtin.world Prod.snd

def impostor : Value := .native ⟨11⟩

def scope : Scope := ⟨⟨0⟩, ⟨0⟩, Builtin.environment (.ofList
  [("read", .native getattrRef), ("getattr", .native ⟨3⟩), ("nine", impostor)]), none, none⟩

def arguments : List Value := [.object ⟨0⟩, .str "x"]

/-- A traced call with the object and the name, and what is on record then. -/
def traced (f : Value) : Option (Except BindError Value × List Dependency) :=
  (perform 12 Value (.callTraced ⟨0⟩ f arguments) start).map fun (r, u) =>
    (r, (u.tracer ⟨0⟩).dependencies)

/-- An inversion of a call with the object and the name, and the value of the attribute then. -/
def inverted (function : String) : Option (Except BindError Unit × Option Value) :=
  (perform 12 Unit (.invert scope (.call function arguments) (.int 5)) start).map fun (r, u) =>
    (r, u.stored? ⟨0⟩ "x")

theorem called_and_inverted :
    traced (.native getattrRef) = some (.ok (.int 1), [⟨⟨0⟩, "x"⟩]) ∧
    inverted "read" = some (.ok (), some (.int 5)) ∧
    inverted "getattr" =
      some (.error (.inversion (.notInvertible "getattr")), some (.int 1)) := by
  decide +kernel

/-- What a name of the scope means while the inversion goes on. -/
def meaning (function : String) : Option (Except BindError Value × World) :=
  getName (perform 11) scope function
    (start.hold ((Target.call function arguments).handles ++ Value.handles (.int 5)))

theorem finds {function : String} {f : Value}
    (known : (meaning function).map Prod.fst = some (.ok f)) :
    ∃ u, meaning function = some (.ok f, u) := by
  obtain ⟨⟨_, u⟩, found, rfl⟩ := Option.map_eq_some_iff.1 known
  exact ⟨u, found⟩

theorem means : (meaning "read").map Prod.fst = some (.ok (.native getattrRef)) ∧
    (meaning "getattr").map Prod.fst = some (.ok (.native ⟨3⟩)) := by
  decide +kernel

theorem natives_stay : Builtin.world.NativesStay start := World.nativesStay_final 12 session _

/-- The builtin is known by its other name, in a traced call and in an inversion, and what is found
by its own name is not taken for it. -/
theorem known_by_alias :
    (∃ u, Action.holding [.tracer ⟨0⟩] (callValue (perform 11) (.native getattrRef) arguments)
        start = some (.ok (.int 1), u) ∧
      perform 12 Value (.callTraced ⟨0⟩ (.native getattrRef) arguments) start =
        some (.ok (.int 1), u.tellTracer ⟨0⟩ (some ⟨⟨0⟩, "x"⟩))) ∧
    (∃ u, perform 12 Unit (.invert scope (.call "read" arguments) (.int 5)) start =
      ((setAttr (perform 11) (.object ⟨0⟩) "x" (.int 5)).mapError BindError.refused u).map
        (start.inverted (.call "read" arguments))) ∧
    (∃ u, perform 12 Unit (.invert scope (.call "getattr" arguments) (.int 5)) start =
      some (start.inverted (.call "getattr" arguments)
        (.error (.inversion (.notInvertible "getattr")), u))) ∧
    inverted "read" = some (.ok (), some (.int 5)) ∧
    inverted "getattr" =
      some (.error (.inversion (.notInvertible "getattr")), some (.int 1)) := by
  obtain ⟨calls, inverts⟩ := attribute_access_goes_by_name (n := 11) (natives_stay _ _ rfl)
  refine ⟨?_, ?_, ?_, called_and_inverted.2⟩
  · obtain ⟨⟨r, w'⟩, run, ended⟩ := Option.map_eq_some_iff.1 called_and_inverted.1
    cases (Prod.mk.inj ended).1
    obtain ⟨u, told, call, rfl, tells⟩ := calls run
    cases (tells ⟨⟨0⟩, "x"⟩).2 ⟨⟨_, rfl⟩, .inl rfl, _, rfl⟩
    exact ⟨u, call, run⟩
  · obtain ⟨u, found⟩ := finds means.1
    exact ⟨u, (inverts found).1 _ _ (.inl rfl) rfl⟩
  · obtain ⟨u, found⟩ := finds means.2
    refine ⟨u, (inverts found).2.2 ?_⟩
    have stay := (((World.frame_natives.performing 11).getName _ _).keeps _ _ _ found).2
    rintro (same | ⟨m, g, same, -, known, named⟩)
    · cases same
    · cases same
      cases known.symm.trans (stay _ _ (natives_stay _ _ rfl))
      exact absurd named (by decide)

/-- A function that is not the builtin has an attribute recorded that it never read, and a call to
it is assigned to. -/
theorem takes_impostor : impostor ≠ .native getattrRef ∧
    (start.tracer ⟨0⟩).dependencies = [] ∧
    traced impostor = some (.ok (.int 9), [⟨⟨0⟩, "x"⟩]) ∧
    start.stored? ⟨0⟩ "x" = some (.int 1) ∧
    inverted "nine" = some (.ok (), some (.int 5)) := by
  decide +kernel

end masquerade

end LiveBinding
