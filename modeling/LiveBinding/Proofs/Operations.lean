import LiveBinding.Proofs.Populating
import LiveBinding.Proofs.Updates

/-! Operations on a network from outside.

Objects are initialized; after that attributes are read, changes are emitted, and attributes
that are not bound are assigned. Each of these ends, leaves nothing pending and takes no value
away. -/
namespace LiveBinding

/-! ### What is asked from outside -/

inductive Operation where
  | get (d : Dependency)
  | emit (d : Dependency) (v : Value)
  | set (d : Dependency) (v : Value)

namespace Operation

def target : Operation → Dependency
  | get d | emit d _ | set d _ => d

def program : Operation → Program Unit
  | get d => do let _ ← Program.request (.getAttr (.object d.object) d.name)
  | emit d v => .request (.emit d.object d.name v)
  | set d v => .request (.setAttr (.object d.object) d.name v)

end Operation

namespace Network
variable {N : Network} {w w' : World} {P : Dependency → Prop} {d : Dependency} {v : Value}

/-! ### Initialization -/

/-- Where there is room, whatever is read for the first time is evaluated. -/
theorem fillable (sound : N.Sound) (spacious : N.Spacious w) :
    World.Fillable N.start (N.Proceeds P w) where
  grows proceeds := proceeds.inv.grows
  stable slips proceeds := proceeds.stable sound slips
  reads {x w₁} bound proceeds _ := by
    refine (readAttr_leads (k := N.start.sites.length + 1) sound (evaluable sound _) proceeds.inv
      (sound.declared bound) (fun _ => Nat.lt_succ_of_le (N.rank_le _))
        fun _ _ => (spacious.proceed proceeds).roomy).mono ?_
    rintro r w' ⟨rfl, advances, set, _⟩
    exact ⟨⟨_, rfl⟩, proceeds.trans (.of_advances advances), fun _ => advances.fills.isSome,
      set bound⟩

theorem populateEach_leads (sound : N.Sound) (os : List ObjectId) (inv : N.Inv w P)
    (spacious : N.Spacious w) :
    Leads w (fun self => (populateEach os).run self) fun r w' =>
      r = .ok () ∧ N.Proceeds P w w' ∧
        ∀ x, N.start.Bound x → x.object ∈ os → (w'.valueOf? x).isSome := by
  refine (World.populateEach_leads (fillable (P := P) sound spacious) os
    (.of_slips sound inv (n := 0) (.refl w))).mono ?_
  rintro r w' ⟨rfl, proceeds, _, sets⟩
  exact ⟨rfl, proceeds, sets⟩

/-! ### Operations -/

/-- Operations concern objects there are, and only attributes that are not bound are assigned,
to values that fit. -/
def Allowed (N : Network) (w : World) (op : Operation) : Prop :=
  (∃ d, N.start.declared? op.target.object = some d) ∧
    match op with
    | .set d v => ¬ N.start.Bound d ∧ N.fits w d v
    | _ => True

/-- Between operations nothing is pending, and every bound attribute has a value. -/
structure AtRest (N : Network) (w : World) : Prop where
  inv : N.Inv w fun _ => False
  depth : w.depth = 0
  set : N.Evaluated w

theorem AtRest.next (rest : N.AtRest w) (proceeds : N.Proceeds (fun _ => False) w w') :
    N.AtRest w' :=
  ⟨proceeds.inv, proceeds.depth.trans rest.depth, rest.set.mono proceeds.stored⟩

/-- Nothing is left to be evaluated for the first time. -/
theorem AtRest.spacious (rest : N.AtRest w) : N.Spacious w := by
  refine ⟨0, ?_, fun y bound unset => ?_⟩
  · rw [rest.depth]
    exact Nat.zero_le _
  · have set := rest.set bound
    rw [unset] at set
    cases set

theorem AtRest.slight {n : Nat} (sound : N.Sound) (rest : N.AtRest w) (slight : w.Slight n w')
    (depth : w'.depth = w.depth) : N.AtRest w' := rest.next (.of_slight sound rest.inv slight depth)

theorem get_leads (sound : N.Sound) (inv : N.Inv w P)
    (room : N.start.Bound d → w.valueOf? d = none → N.Roomy N.room (N.rank d) w) {y : Declared}
    (known : N.start.declared? d.object = some y) :
    Leads w (fun self => getAttr self (.object d.object) d.name) fun r w' =>
      N.Proceeds P w w' ∧ (N.start.Bound d → (∃ v, r = .ok v) ∧ (w'.valueOf? d).isSome) := by
  obtain ⟨y', known', _⟩ := inv.grows.declared known
  by_cases is : N.start.Attribute d
  · refine Leads.seq ((readAttr_leads (k := N.start.sites.length + 1) sound (evaluable sound _) inv
      is (fun _ => Nat.lt_succ_of_le (N.rank_le _)) room).mono ?_)
    rintro r w' ⟨rfl, advances, set, _⟩
    exact ⟨_, rfl, Leads.pure ⟨.of_advances advances, fun bound => ⟨⟨_, rfl⟩, set bound⟩⟩⟩
  · have has : y'.hasAttribute d.name = false := by
      by_contra has
      exact is (inv.grows.attribute.1 ⟨y', known', Bool.eq_true_of_not_eq_false has⟩)
    have value : y'.values.get? d.name = none := by
      rw [Declared.hasAttribute, Bool.or_eq_false_iff] at has
      exact Option.not_isSome_iff_eq_none.1 (Bool.eq_false_iff.1 has.1)
    have entity := (w.declared?_eq_some).1 known'
    refine Leads.of_eq (r := .error (.noSuchAttribute (w.typeName d.object) d.name))
      (fun self => ?_) ⟨.of_slips sound inv (n := 0) (.refl w),
        fun bound => absurd (sound.declared bound) is⟩
    show (readAttr self d.object d.name >>= _) w = _
    have none : readAttr self d.object d.name w = some (.ok none, w) := by
      simp only [readAttr, Action.read_bind, entity]
      show (Action.holding _ _) w = _
      simp only [Action.holding, Action.within_apply, readDeclared, value, has]
      rfl
    rw [Action.bind_apply, none]
    rfl

theorem emit_leads (sound : N.Sound) (inv : N.Inv w P) (spacious : N.Spacious w) {y : Declared}
    (known : N.start.declared? d.object = some y) (v : Value) :
    Leads w (fun self => emit self d.object d.name v) fun _ w' => N.Proceeds P w w' := by
  obtain ⟨y', known', _⟩ := inv.grows.declared known
  unfold emit
  refine Leads.read ?_
  cases has : w.hasAttribute d.object d.name with
  | false => exact Leads.of_eq (fun _ => rfl) (.of_slips sound inv (n := 0) (.refl w))
  | true =>
    have is : N.start.Attribute d := by
      refine inv.grows.attribute.1 ⟨y', known', ?_⟩
      rw [World.hasAttribute, World.hasWithin_of_declared known', Bool.and_eq_true] at has
      exact has.2
    refine (World.holding_leads (n := 0) (r := .ok ()) (Q := N.Proceeds P w) _
      (fun slips proceeds => proceeds.stable sound slips) fun {w₁} enter _ => ?_).mono
        fun _ _ both => both.2
    refine (change_leads sound ((inv.slight sound enter.slight).mono fun _ _ => .inl) is
      (spacious.slips enter) .event .null v fun _ => refreshable sound _).mono ?_
    rintro r w' ⟨rfl, proceeds⟩
    exact ⟨rfl, (Proceeds.of_slips sound inv enter).trans proceeds⟩

theorem set_leads (sound : N.Sound) (inv : N.Inv w P) (spacious : N.Spacious w) {y : Declared}
    (known : N.start.declared? d.object = some y) (free : ¬ N.start.Bound d)
    (fit : N.fits w d v) :
    Leads w (fun self => setAttr self (.object d.object) d.name v) fun _ w' =>
      N.Proceeds P w w' := by
  by_cases assignable : N.start.Assignable d
  · refine (assign_proceeds (P := P) sound (inv.mono fun _ _ => .inl) assignable spacious fit
      (fun bound => absurd bound free) fun _ => refreshable sound _).mono ?_
    exact fun _ _ both => both.2.1
  · obtain ⟨y', known', fixed⟩ := inv.grows.declared known
    have entity := (w.declared?_eq_some).1 known'
    have refused : ∃ cause, ∀ self, assignDeclared self d.object y' d.name v
        {w with held := [Handle.object d.object] ++ w.held} =
          some (.error cause, {w with held := [Handle.object d.object] ++ w.held}) := by
      cases constant : y'.isConstant d.name with
      | true =>
        refine ⟨.readOnly y'.typeName d.name, fun self => ?_⟩
        simp only [assignDeclared, constant]
        rfl
      | false =>
        have has : y'.hasAttribute d.name = false := by
          by_contra has
          refine assignable ⟨y, known, ?_, ?_⟩
          · rw [Declared.isConstant, ← fixed.constants]
            exact constant
          · rw [← fixed.attributes]
            exact Bool.eq_true_of_not_eq_false has
        refine ⟨.noSuchAttribute y'.typeName d.name, fun self => ?_⟩
        simp only [assignDeclared, constant, has]
        rfl
    obtain ⟨cause, refused⟩ := refused
    refine Leads.of_eq (r := .error cause) (fun self => ?_)
      (.of_slips sound inv (n := 0) (.refl w))
    simp only [setAttr, assign, Action.read_bind, entity]
    show (Action.holding _ _) w = _
    rw [Action.holding, Action.within_apply, refused]

theorem AtRest.operate (sound : N.Sound) (rest : N.AtRest w) {op : Operation}
    (allowed : N.Allowed w op) :
    Leads w (fun self => op.program.run self) fun _ w' => N.AtRest w' := by
  obtain ⟨⟨y, known⟩, allowed⟩ := allowed
  have inv := rest.inv
  cases op with
  | get d =>
    refine Leads.ask (Leads.request ((get_leads sound inv
      (fun _ _ => rest.spacious.roomy) known).mono ?_))
    rintro r w' ⟨proceeds, _⟩
    cases r with
    | ok v => exact Leads.done (rest.next proceeds)
    | error e => exact Leads.done (rest.next proceeds)
  | emit d v =>
    refine Leads.ask (Leads.request ((emit_leads sound inv rest.spacious known v).mono ?_))
    exact fun r w' proceeds => Leads.done (rest.next proceeds)
  | set d v =>
    obtain ⟨free, fit⟩ := allowed
    refine Leads.ask (Leads.request ((set_leads sound inv rest.spacious known free fit).mono ?_))
    exact fun r w' proceeds => Leads.done (rest.next proceeds)

end Network

end LiveBinding
