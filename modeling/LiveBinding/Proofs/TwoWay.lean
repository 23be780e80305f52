import LiveBinding.Proofs.Consistency
import LiveBinding.Proofs.Mirror
import LiveBinding.Proofs.Suppression

/-! Delegated attributes and what they stand for stay in step.

Whatever is done from outside to a delegated attribute, to the attribute at the end of its path or
to an object on the way, the two have identical or equal values when it is over. What was done to
the delegated attribute itself is written back once, anything else is not. -/
namespace LiveBinding

/-- What a host asks for to change an attribute. -/
def Move.request (d : Dependency) : Move → Request Unit
  | .assign v => .setAttr (.object d.object) d.name v
  | .emit v => .emit d.object d.name v
  | .clear => .clear d.object d.name

/-- The value that is assigned or emitted exists. -/
def Move.Known (w : World) : Move → Prop
  | .assign v | .emit v => w.Known v
  | .clear => True

namespace Delegation
variable {D : Delegation} {w w' w₁ w₂ : World} {ds es : List Dependency} {o p : ObjectId}
  {a d : Dependency} {v : Value} {n k : Nat}

/-! ### Assigning what is on the path -/

theorem Open.store (opened : D.Open (w.store a v) ds o) (is : w.Attribute a)
    (slips : w.Slips n w₁) : D.Open (w₁.store a v) ds o := by
  have is₁ := slips.slight.grows.attribute.2 is
  have grows := (World.Extends.of_store is v).trans
    (slips.slight.grows.trans (World.extends_store is₁ v))
  refine opened.keep grows fun d _ => ?_
  rw [World.valueOf?_store is, World.valueOf?_store is₁, slips.slight.valueOf?]

/-- An attribute that was on the path is assigned, and the delegated attribute follows. -/
theorem assign_leads (sound : D.Sound) (inv : D.Inv w) (consulted : D.Consulted w es)
    (mem : a ∈ es) (assignable : w.Assignable a) (other : a ≠ D.site)
    (unwritten : ∀ {e}, w.engineOf? a.object = some e →
      ((w.engine e).bindings.get? a.name).bind Binding.write = none)
    (known : w.Known v) (room : w.depth < 2) (opened : D.Open (w.store a v) ds o)
    {Q : World → Prop} (stable : ∀ {w₁ w₂}, w₁.Slips 0 w₂ → Q w₁ → Q w₂)
    (same : ∀ old, w.valueOf? a = some old → w.equal old v = true → Q w)
    (settled : ∀ {w'}, D.Settles ds o 0 w w' → Q w') :
    Leads w (fun self => setAttr self (.object a.object) a.name v) fun r w' =>
      r = .ok () ∧ Q w' := by
  have is := assignable.attribute
  refine World.assign_leads assignable (fun slips => stable (slips.mono (Nat.zero_le _))) ?_ ?_
  · exact fun old slips here equal => stable (slips.mono (Nat.zero_le _)) (same old here equal)
  · rintro w₁ kind old ⟨slips, -⟩ _ _
    have passes : D.Passes 0 w w₁ := .of_slips sound inv slips
    have is₁ := slips.slight.grows.attribute.2 is
    have alters : World.Alters a w₁ (w₁.store a v) := World.alters_store is₁ v
    have inv₂ : D.Inv (w₁.store a v) := by
      refine passes.inv.alter alters fun u here => ?_
      rw [World.valueOf?_store is₁, if_pos rfl] at here
      cases here
      exact known.mono (slips.slight.grows.trans alters.grows)
    have stored : D.Passes 0 w₁ (w₁.store a v) := ⟨inv₂, alters.grows, rfl, rfl⟩
    have grows := slips.slight.grows.trans alters.grows
    refine (change_leads sound inv₂ (opened.store is slips)
      ((consulted.slight slips.slight).alter alters) mem (grows.attribute.2 is) other
      (fun {e} engine => ?_) ?_ kind old v).mono ?_
    · rw [grows.engineOf?] at engine
      rw [grows.bindings]
      exact unwritten engine
    · show w₁.depth < 2
      rw [slips.depth]
      exact room
    · rintro r w' ⟨rfl, settles⟩
      exact ⟨rfl, settled (settles.after (passes.after stored))⟩

/-- The path does not notice what becomes of the attribute at its end. -/
theorem Open.store_goal (sound : D.Sound) (opened : D.Open w ds o) (v : Value) :
    D.Open (w.store (D.goal o) v) ds o := by
  have alters := World.alters_store opened.assignable.attribute v
  exact opened.keep alters.grows fun d mem => alters.others d fun same =>
    opened.goal_not_mem sound (same ▸ mem)

theorem Open.unwritten (opened : D.Open w ds o) {e : EngineRef}
    (engine : w.engineOf? (D.goal o).object = some e) :
    ((w.engine e).bindings.get? (D.goal o).name).bind Binding.write = none := by
  rw [show (w.engine e).bindings.get? (D.goal o).name = none from opened.unbound engine]
  rfl

/-- A value is assigned at the end of the path. The delegated attribute has it already, or agrees
with what has been there. -/
theorem assign_goal_leads (sound : D.Sound) (inv : D.Inv w) (opened : D.Open w ds o)
    (consulted : D.Consulted w (ds ++ [D.goal o])) (known : w.Known v) (room : w.depth < 2)
    (agrees : w.valueOf? D.site = some v ∨ D.Agrees w o) :
    Leads w (fun self => setAttr self (.object o) D.last v) fun r w' =>
      r = .ok () ∧ D.Settles ds o 0 w w' := by
  refine assign_leads (a := D.goal o) sound inv consulted Open.goal_mem opened.assignable
    (opened.ne_site Open.goal_mem) opened.unwritten known room (opened.store_goal sound v)
    (fun slips settles => settles.stable sound slips) (fun old here equal => ?_) id
  refine ⟨.of_slips sound inv (n := 0) (.refl w), opened, consulted, ?_⟩
  rcases agrees with has | agrees
  · intro u there
    cases has.symm.trans there
    rw [World.valuation, here]
    exact World.Matches.symm (.inr equal)
  · exact agrees

/-! ### Writing back -/

/-- Inverting the path assigns the attribute at its end. -/
theorem invert_leads (sound : D.Sound) (inv : D.Inv w) (opened : D.Open w ds o)
    (consulted : D.Consulted w (ds ++ [D.goal o])) {s : Scope}
    (root : ∀ {w₁}, w.Slips 0 w₁ → ∀ self,
      getName self s D.path.root w₁ = some (.ok (.object D.root), w₁))
    (known : w.Known v) (room : w.depth < 2)
    (agrees : w.valueOf? D.site = some v ∨ D.Agrees w o) :
    Leads w (fun self => invert self s (.attr D.path D.last) v) fun r w' =>
      r = .ok () ∧ D.Settles ds o 0 w w' := by
  let w₁ := {w with held := ((Target.attr D.path D.last).handles ++ v.handles) ++ w.held}
  have enter : w.Slips 0 w₁ := .progress w w.limit _
  have entered : D.Passes 0 w w₁ := .of_slips sound inv enter
  have opened₁ := opened.slight enter.slight
  have agrees₁ : w₁.valueOf? D.site = some v ∨ D.Agrees w₁ o := by
    rw [enter.slight.valueOf?]
    exact agrees.imp_right fun agrees => agrees.slight inv enter.slight
  have resolved (self : Performer) : resolve self s D.path w₁ = some (.ok (.object o), w₁) := by
    unfold resolve
    rw [Action.bind_apply, Action.mapError, root enter self]
    exact opened₁.route.follow self D.path
  have assigned := assign_goal_leads sound entered.inv opened₁ (consulted.slight enter.slight)
    (known.mono enter.slight.grows) room agrees₁
  have targeted : Leads w (fun self => Action.holding
      ((Target.attr D.path D.last).handles ++ v.handles)
      (assignTarget self s v (.attr D.path D.last))) fun r w' =>
        r = .ok () ∧ D.Settles ds o 0 w w' := by
    refine Leads.holding (Leads.after resolved (Leads.mapError (assigned.mono ?_)))
    rintro r w₂ ⟨rfl, settles⟩
    exact ⟨rfl, (settles.after entered).stable (n := 0) sound (.progress w₂ w₂.limit _)⟩
  unfold invert
  refine Leads.seq (Leads.attempt (targeted.mono ?_))
  rintro r w' ⟨rfl, settles⟩
  exact ⟨_, rfl, Leads.pure ⟨rfl, settles⟩⟩

theorem push_leads (sound : D.Sound) (inv : D.Inv w) (opened : D.Open w ds o)
    (consulted : D.Consulted w (ds ++ [D.goal o])) (looks : Bool) {s : Scope}
    (root : ∀ {w₁}, w.Slips 0 w₁ → ∀ self,
      getName self s D.path.root w₁ = some (.ok (.object D.root), w₁))
    (known : w.Known v) (room : w.depth < 2)
    (agrees : w.valueOf? D.site = some v ∨ D.Agrees w o) :
    Leads w (fun self => (D.push looks s v).run self) fun r w' =>
      r = .ok .null ∧ D.Settles ds o 0 w w' := by
  have inverted : Leads w (fun self => (Program.ask (.invert s (.attr D.path D.last) v)
      fun r => (Program.done r).bind fun _ => pure Value.null).run self) fun r w' =>
        r = .ok .null ∧ D.Settles ds o 0 w w' := by
    refine Leads.ask (Leads.request ((invert_leads sound inv opened consulted root known room
      agrees).mono ?_))
    rintro r w' ⟨rfl, settles⟩
    exact Leads.done ⟨rfl, settles⟩
  cases looks with
  | false => exact inverted
  | true => exact Leads.ask (Leads.request (Leads.of_eq (root (.refl w)) inverted))

/-- **A change of the delegated attribute is written back once.** -/
theorem write_leads (sound : D.Sound) (inv : D.Inv w) (opened : D.Open w ds o)
    (consulted : D.Consulted w (ds ++ [D.goal o])) (depth : w.depth = 0)
    (free : D.site.name ∉ (w.engine D.engine).guards) {change : ObjectId} {z : Change}
    (changed : w.change? change = some z) (known : w.Known z.new)
    (agrees : w.valueOf? D.site = some z.new ∨ D.Agrees w o) :
    Leads w (fun self => Engine.write self D.engine D.site.object D.site.name change)
      fun r w' => r = .ok () ∧ D.Settles ds o 1 w w' := by
  obtain ⟨g, code, _, pushes⟩ := sound.code
  obtain ⟨c, found, _⟩ := sound.surroundings
  have owner := owner_of_surroundings found
  have there : D.start.surroundingsFor? D.site.object D.writer = some c := found
  let limit := (w.engine D.engine).config.maxDepth
  have enough : 2 ≤ limit := by
    show 2 ≤ (w.engine D.engine).config.maxDepth
    rw [inv.grows.config]
    exact sound.limited
  have binding : (w.engine D.engine).bindings.get? D.site.name =
      some (Operator.delegate.bind D.function D.key) := by
    rw [inv.grows.bindings]
    exact sound.bound
  let w₁ := {w with limit := some limit}
  have enter : w.Slips 0 w₁ := .progress w (some limit) w.held
  have leave (w' : World) : w'.Slips 0 {w' with limit := w.limit} := .progress w' w.limit w'.held
  have entered : D.Passes 0 w w₁ := .of_slips sound inv enter
  refine Engine.write_leads (x := D.site) (h := D.writer) (by rw [binding]; rfl) free
    ((Handler.write_leads (x := D.site) (n := 0) (Q := D.Settles ds o 1 w) entered.inv.grows rfl
      code there changed fun {w₂ s} slips given owned locals environment unchanged => ?_).mono ?_)
  · obtain ⟨looks, body⟩ := pushes s z.new
    have passes₂ : D.Passes 0 w w₂ := entered.stable sound slips
    let w₃ := w₂.calling D.function (.inverted s z.new) s
    have called : w₂.Slight 0 w₃ := w₂.slight_calling D.function _ s
    have calling : D.pushes w₃ = D.pushes w₂ + 1 :=
      pushes_calling sound passes₂.inv.grows (.inverted s z.new) (owned.trans owner)
    have inv₃ := passes₂.inv.slight sound called
    have slight : w.Slight 0 w₃ := (enter.slight.trans slips.slight).trans called
    have deep : w₂.depth = 0 := by
      rw [passes₂.depth]
      exact depth
    have agrees₃ : w₃.valueOf? D.site = some z.new ∨ D.Agrees w₃ o := by
      rw [slight.valueOf?]
      exact agrees.imp_right fun agrees => agrees.slight inv slight
    have root {w₄ : World} (next : w₃.Slips 0 w₄) (self : Performer) :
        getName self s D.path.root w₄ = some (.ok (.object D.root), w₄) := by
      have layers := next.slight.grows.layers (called.grows.layers locals)
      exact getName_root sound (inv₃.grows.trans next.slight.grows) found (owned.trans owner)
        layers environment unchanged self
    refine callFunction_leads given (by omega) (Leads.congr
      (b := fun self => (D.push looks s z.new).run self) (fun self => ?_) ((push_leads sound inv₃
        (opened.slight slight) (consulted.slight slight) looks root (known.mono slight.grows) ?_
          agrees₃).mono ?_))
    · show (w₂.code D.function s (.inverted s z.new)).run self w₃ = _
      rw [World.code, passes₂.inv.grows.functions code]
      exact congrArg (fun p => p.run self w₃) body
    · show w₂.depth + 1 < 2
      omega
    · rintro r w₄ ⟨rfl, settles⟩
      have finish : w₄.Slight 0 {w₄ with depth := w₄.depth - 1, held := w₁.held} :=
        w₄.slight_progress 0 (w₄.depth - 1) w₄.limit w₁.held
      refine ⟨⟨_, rfl⟩, ⟨settles.1.inv.slight sound finish, ?_, ?_, ?_⟩,
        settles.2.slight settles.1.inv finish⟩
      · exact (slight.grows.trans settles.1.grows).trans finish.grows
      · show w₄.depth - 1 = w.depth
        rw [settles.1.depth]
        show w₂.depth + 1 - 1 = w.depth
        rw [passes₂.depth]
        rfl
      · calc D.pushes w₄ = D.pushes w₃ := settles.1.pushes
          _ = D.pushes w₂ + 1 := calling
          _ = D.pushes w + 1 := congrArg (· + 1) passes₂.pushes
  · rintro r w' ⟨rfl, settles⟩
    exact ⟨rfl, settles.stable sound (leave w')⟩

/-- A change of the delegated attribute is made known and written back. -/
theorem send_leads (sound : D.Sound) (inv : D.Inv w) (opened : D.Open w ds o)
    (consulted : D.Consulted w (ds ++ [D.goal o])) (depth : w.depth = 0)
    (free : D.site.name ∉ (w.engine D.engine).guards) (known : w.Known v)
    (agrees : w.valueOf? D.site = some v ∨ D.Agrees w o) (kind : ChangeKind) (old : Value) :
    Leads w (fun self => dispatch self D.site.object kind D.site.name old v)
      fun r w' => r = .ok () ∧ D.Settles ds o 1 w w' := by
  refine announce_leads sound inv kind old v (fun slips settles => settles.stable sound slips) ?_
  intro w₁ slips guards changed
  have passes : D.Passes 0 w w₁ := .of_slips sound inv slips
  have agrees₁ : w₁.valueOf? D.site = some v ∨ D.Agrees w₁ o := by
    rw [slips.slight.valueOf?]
    exact agrees.imp_right fun agrees => agrees.slight inv slips.slight
  refine (write_leads sound passes.inv (opened.slight slips.slight)
    (consulted.slight slips.slight) (passes.depth.trans depth) ?_ changed
    (known.mono slips.slight.grows) agrees₁).mono ?_
  · rw [guards]
    exact free
  · rintro r w' ⟨rfl, settles⟩
    exact ⟨rfl, settles.after passes⟩

/-! ### Operations -/

/-- What may be done from outside: anything to the delegated attribute and to the attribute at the
end of the path, and assigning an attribute on the way if the path leads somewhere then. -/
inductive Allowed (D : Delegation) (w : World) : Dependency → Move → Prop where
  | site {move : Move} (known : move.Known w) : Allowed D w D.site move
  | goal {ds : List Dependency} {o : ObjectId} {move : Move} (opened : D.Open w ds o)
      (known : move.Known w) : Allowed D w (D.goal o) move
  | hop {ds es : List Dependency} {o p : ObjectId} {d : Dependency} {v : Value}
      (opened : D.Open w ds o) (mem : d ∈ ds) (assignable : w.Assignable d)
      (unwritten : ∀ {e}, w.engineOf? d.object = some e →
        ((w.engine e).bindings.get? d.name).bind Binding.write = none)
      (known : w.Known v) (rest : D.Open (w.store d v) es p) : Allowed D w d (.assign v)

/-- How often a move is to be written back: a change of the delegated attribute is so once. -/
def writes (D : Delegation) (w : World) (d : Dependency) : Move → Nat
  | .assign v =>
    if d = D.site ∧ (w.valueOf? d).all (fun old => !w.equal old v) = true then 1 else 0
  | .emit _ => if d = D.site then 1 else 0
  | .clear => if d = D.site ∧ (w.valueOf? d).isSome = true then 1 else 0

theorem writes_of_ne (other : d ≠ D.site) (move : Move) : D.writes w d move = 0 := by
  cases move <;> simp [writes, other]

/-- Between operations of a host everything is settled. -/
structure AtRest (D : Delegation) (w : World) (ds : List Dependency) (o : ObjectId) : Prop where
  reachable : Reachable w
  inv : D.Inv w
  settled : D.Settled w ds o

namespace AtRest

theorem depth (rest : D.AtRest w ds o) : w.depth = 0 :=
  (World.idle_of_reachable rest.reachable).depth

theorem free (rest : D.AtRest w ds o) : D.site.name ∉ (w.engine D.engine).guards := by
  rw [World.guards_of_reachable rest.reachable]
  exact List.not_mem_nil

/-- Nothing happens to the delegated attribute. -/
theorem settles (sound : D.Sound) (rest : D.AtRest w ds o) : D.Settles ds o 0 w w :=
  ⟨.of_slips sound rest.inv (n := 0) (.refl w), rest.settled⟩

theorem next (rest : D.AtRest w ds o) {α : Type} {q : Request α} {r : Except BindError α}
    (ends : Ends (fun self => self _ q) w r w') (settles : D.Settles es p k w w') :
    D.AtRest w' es p := by
  obtain ⟨m, ends⟩ := ends
  exact ⟨rest.reachable.ask (ends m (Nat.le_refl m)), settles.1.inv, settles.2⟩

/-! ### The delegated attribute -/

theorem send (sound : D.Sound) (rest : D.AtRest w ds o) (slips : w.Slips 0 w₁)
    (guards : w.SameGuards w₁) (known : w.Known v) (kind : ChangeKind) (old : Value) :
    Leads w₁ (fun self => dispatch self D.site.object kind D.site.name old v)
      fun r w' => r = .ok () ∧ D.Settles ds o 1 w w' := by
  have passes : D.Passes 0 w w₁ := .of_slips sound rest.inv slips
  have settled := rest.settled.slight rest.inv slips.slight
  refine (send_leads sound passes.inv settled.opened settled.consulted
    (passes.depth.trans rest.depth) ?_ (known.mono slips.slight.grows) (.inr settled.agrees) kind
    old).mono ?_
  · rw [guards]
    exact rest.free
  · rintro r w' ⟨rfl, settles⟩
    exact ⟨rfl, settles.after passes⟩

theorem assign_site (sound : D.Sound) (rest : D.AtRest w ds o) (known : w.Known v) :
    Leads w (fun self => setAttr self (.object D.site.object) D.site.name v)
      fun r w' => r = .ok () ∧ D.Settles ds o (D.writes w D.site (.assign v)) w w' := by
  refine World.assign_leads (sound.assignable.mono rest.inv.grows)
    (fun slips settles => settles.stable sound slips) ?_ ?_
  · intro w₁ old slips here equal
    have none : D.writes w D.site (.assign v) = 0 := by
      simp [writes, here, equal]
    rw [none]
    exact (rest.settles sound).stable sound slips
  · rintro w₁ kind old ⟨slips, -⟩ guards differs
    have once : D.writes w D.site (.assign v) = 1 := by
      cases here : w.valueOf? D.site with
      | none => simp [writes, here]
      | some u => simp [writes, here, differs u here]
    rw [once]
    have passes : D.Passes 0 w w₁ := .of_slips sound rest.inv slips
    have is := passes.inv.grows.attribute.2 sound.declared
    have alters : World.Alters D.site w₁ (w₁.store D.site v) := World.alters_store is v
    have known₁ := known.mono slips.slight.grows
    have stored : D.Passes 0 w₁ (w₁.store D.site v) := .store sound passes.inv known₁
    have settled := rest.settled.slight rest.inv slips.slight
    refine (send_leads sound stored.inv (settled.opened.alter alters)
      (settled.consulted.alter alters) (passes.depth.trans rest.depth) ?_
      (known₁.mono alters.grows) (.inl ?_) kind old).mono ?_
    · show D.site.name ∉ (w₁.engine D.engine).guards
      rw [guards]
      exact rest.free
    · rw [World.valueOf?_store is, if_pos rfl]
    · rintro r w' ⟨rfl, settles⟩
      exact ⟨rfl, settles.after (passes.after stored)⟩

theorem emit_site (sound : D.Sound) (rest : D.AtRest w ds o) (known : w.Known v) :
    Leads w (fun self => emit self D.site.object D.site.name v)
      fun r w' => r = .ok () ∧ D.Settles ds o (D.writes w D.site (.emit v)) w w' := by
  have once : D.writes w D.site (.emit v) = 1 := by
    simp [writes]
  rw [once]
  exact World.emit_leads (n := 0) (rest.inv.grows.attribute.2 sound.declared)
    (fun slips settles => settles.stable sound slips)
    fun slips guards => rest.send sound slips guards known .event .null

theorem clear_site (sound : D.Sound) (rest : D.AtRest w ds o) :
    Leads w (fun self => clear self D.site.object D.site.name)
      fun r w' => r = .ok () ∧ D.Settles ds o (D.writes w D.site .clear) w w' := by
  have is := rest.inv.grows.attribute.2 sound.declared
  refine World.clear_leads (sound.assignable.mono rest.inv.grows) (fun unset => ?_)
    fun old here => ?_
  · have none : D.writes w D.site .clear = 0 := by
      simp [writes, unset]
    rw [none]
    exact rest.settles sound
  · have once : D.writes w D.site .clear = 1 := by
      simp [writes, here]
    rw [once]
    have alters : World.Alters D.site w (w.erase D.site) := World.alters_erase is
    have gone : (w.erase D.site).valueOf? D.site = Option.none := World.valueOf?_erase is
    have passes : D.Passes 0 w (w.erase D.site) := by
      refine ⟨rest.inv.alter alters fun u there => ?_, alters.grows, rfl, rfl⟩
      rw [gone] at there
      cases there
    refine (send_leads (v := .null) sound passes.inv (rest.settled.opened.alter alters)
      (rest.settled.consulted.alter alters) rest.depth rest.free trivial (.inr ?_) .delete
      old).mono ?_
    · intro u there
      rw [gone] at there
      cases there
    · rintro r w' ⟨rfl, settles⟩
      exact ⟨rfl, settles.after passes⟩

/-! ### The attribute at the end of the path -/

theorem emit_goal (sound : D.Sound) (rest : D.AtRest w ds o) (v : Value) :
    Leads w (fun self => emit self o D.last v)
      fun r w' => r = .ok () ∧ D.Settles ds o 0 w w' := by
  have opened := rest.settled.opened
  refine World.emit_leads (a := D.goal o) (n := 0) opened.assignable.attribute
    (fun slips settles => settles.stable sound slips) fun {w₁} slips _ => ?_
  have passes : D.Passes 0 w w₁ := .of_slips sound rest.inv slips
  have settled := rest.settled.slight rest.inv slips.slight
  refine (change_leads (a := D.goal o) sound passes.inv settled.opened settled.consulted
    Open.goal_mem
    settled.opened.assignable.attribute (opened.ne_site Open.goal_mem) settled.opened.unwritten ?_
    .event .null v).mono ?_
  · rw [passes.depth, rest.depth]
    exact Nat.zero_lt_two
  · rintro r w' ⟨rfl, settles⟩
    exact ⟨rfl, settles.after passes⟩

theorem clear_goal (sound : D.Sound) (rest : D.AtRest w ds o) :
    Leads w (fun self => clear self o D.last)
      fun r w' => r = .ok () ∧ D.Settles ds o 0 w w' := by
  have opened := rest.settled.opened
  have is := opened.assignable.attribute
  refine World.clear_leads (a := D.goal o) opened.assignable (fun _ => rest.settles sound)
    fun old _ => ?_
  have alters : World.Alters (D.goal o) w (w.erase (D.goal o)) := World.alters_erase is
  have passes : D.Passes 0 w (w.erase (D.goal o)) := by
    refine ⟨rest.inv.alter alters fun u there => ?_, alters.grows, rfl, rfl⟩
    rw [World.valueOf?_erase is] at there
    cases there
  have opened₁ : D.Open (w.erase (D.goal o)) ds o := by
    refine opened.keep alters.grows fun d mem => alters.others d fun same => ?_
    exact opened.goal_not_mem sound (same ▸ mem)
  refine (change_leads (a := D.goal o) sound passes.inv opened₁
    (rest.settled.consulted.alter alters)
    Open.goal_mem opened₁.assignable.attribute (opened.ne_site Open.goal_mem) opened₁.unwritten ?_
    .delete old .null).mono ?_
  · show w.depth < 2
    rw [rest.depth]
    exact Nat.zero_lt_two
  · rintro r w' ⟨rfl, settles⟩
    exact ⟨rfl, settles.after passes⟩

/-! ### Any of them -/

/-- Whatever is done, everything is settled again afterwards. -/
theorem move (sound : D.Sound) (rest : D.AtRest w ds o) {move : Move}
    (allowed : D.Allowed w d move) :
    Leads w (fun self => self _ (move.request d)) fun r w' =>
      r = .ok () ∧ ∃ es p, D.Settles es p (D.writes w d move) w w' := by
  have room : w.depth < 2 := by
    rw [rest.depth]
    exact Nat.zero_lt_two
  have here {r : Except BindError Unit} {w' : World} {k : Nat}
      (ends : r = .ok () ∧ D.Settles ds o k w w') :
      r = .ok () ∧ ∃ es p, D.Settles es p k w w' := ⟨ends.1, ds, o, ends.2⟩
  refine Leads.request ?_
  cases allowed with
  | site known =>
    cases move with
    | assign v => exact (rest.assign_site sound known).mono fun _ _ => here
    | emit v => exact (rest.emit_site sound known).mono fun _ _ => here
    | clear => exact (rest.clear_site sound).mono fun _ _ => here
  | goal opened known =>
    obtain ⟨rfl, rfl⟩ := rest.settled.opened.unique opened
    rw [writes_of_ne (opened.ne_site Open.goal_mem)]
    cases move with
    | assign v =>
      exact (assign_goal_leads sound rest.inv opened rest.settled.consulted known room
        (.inr rest.settled.agrees)).mono fun _ _ => here
    | emit v => exact (rest.emit_goal sound v).mono fun _ _ => here
    | clear => exact (rest.clear_goal sound).mono fun _ _ => here
  | @hop ds' es _ p _ v opened mem assignable unwritten known opens =>
    obtain ⟨rfl, rfl⟩ := rest.settled.opened.unique opened
    have other : d ≠ D.site := opened.ne_site (List.mem_append_left _ mem)
    rw [writes_of_ne other]
    refine assign_leads sound rest.inv rest.settled.consulted (List.mem_append_left _ mem)
      assignable other unwritten known room opens ?_ (fun _ _ _ => ?_) fun settles => ?_
    · rintro w₁ w₂ slips ⟨es, p, settles⟩
      exact ⟨es, p, settles.stable sound slips⟩
    · exact ⟨ds, o, rest.settles sound⟩
    · exact ⟨es, p, settles⟩

end AtRest

/-! ### Reading -/

theorem handlerOf_site (sound : D.Sound) (inv : D.Inv w) :
    w.handlerOf? D.site = some (D.engine, D.reader) := by
  rw [inv.grows.handlerOf?]
  refine World.handlerOf?_eq_some.2 ⟨sound.engine, ?_⟩
  rw [sound.bound]
  rfl

/-- A delegated attribute without a value is evaluated when it is read. -/
theorem readAttr_leads (sound : D.Sound) (inv : D.Inv w) (opened : D.Open w ds o)
    (room : w.depth < 2) (unset : w.valueOf? D.site = none) :
    Leads w (fun self => readAttr self D.site.object D.site.name) fun r w' =>
      r = .ok (some (w'.valuation D.site)) ∧ D.Updated ds o w w' := by
  have enter : w.Slips 0 {w with held := [.object D.site.object] ++ w.held} :=
    .progress w w.limit _
  have entered : D.Passes 0 w _ := .of_slips sound inv enter
  refine World.readAttr_bound (inv.grows.attribute.2 sound.declared) unset
    (handlerOf_site sound inv)
    ((update_leads sound entered.inv (opened.slight enter.slight) room).mono ?_)
  rintro r w' ⟨rfl, updated⟩
  have leave : w'.Slips 0 {w' with held := w.held} := .progress w' w'.limit _
  exact ⟨rfl, (updated.after entered enter.slight.valueOf?).stable sound leave⟩

/-- Reads the delegated attribute, and then along the path. -/
def look (D : Delegation) : Program (Value × Value) := do
  let v ← Program.request (.getAttr (.object D.site.object) D.site.name)
  let u ← getEach (D.path.hops ++ [D.last]) (.object D.root)
  return (v, u)

theorem AtRest.get_leads (sound : D.Sound) (rest : D.AtRest w ds o) :
    Leads w (fun self => getAttr self (.object D.site.object) D.site.name) fun r w' =>
      ∃ v, r = .ok v ∧ D.Settles ds o 0 w w' ∧ w'.Matches v (w'.valuation (D.goal o)) := by
  refine World.getAttr_leads (d := D.site) ?_
  cases here : w.valueOf? D.site with
  | some v =>
    exact Leads.of_eq (World.readAttr_stored here)
      ⟨v, rfl, rest.settles sound, rest.settled.agrees v here⟩
  | none =>
    have room : w.depth < 2 := by
      rw [rest.depth]
      exact Nat.zero_lt_two
    refine (readAttr_leads sound rest.inv rest.settled.opened room here).mono ?_
    rintro r w' ⟨rfl, updated⟩
    obtain ⟨v, there⟩ := Option.isSome_iff_exists.1 updated.set
    have value : w'.valuation D.site = v := by
      rw [World.valuation, there]
      rfl
    rw [value]
    exact ⟨v, rfl, updated.settles, updated.settles.2.agrees v there⟩

theorem AtRest.look (sound : D.Sound) (rest : D.AtRest w ds o) :
    Leads w (fun self => D.look.run self) fun r w' => ∃ v u, r = .ok (v, u) ∧ w'.Matches v u ∧
      D.Settles ds o 0 w w' := by
  refine Leads.congr (b := fun self =>
      self _ (.getAttr (.object D.site.object) D.site.name) >>= fun v =>
        (getEach (D.path.hops ++ [D.last]) (.object D.root)).run self >>= fun u => pure (v, u))
    (fun self => ?_) (Leads.seq (Leads.request ((rest.get_leads sound).mono ?_)))
  · rw [Delegation.look, Program.run_bind, Program.run_request]
    refine congrFun (congrArg _ (funext fun v => ?_)) w
    rw [Program.run_bind]
    rfl
  · rintro r w₁ ⟨v, rfl, settles, same⟩
    refine ⟨v, rfl, Leads.seq (settles.2.opened.full.getEach_leads.mono ?_)⟩
    rintro r w₂ ⟨rfl, rfl⟩
    exact ⟨_, rfl, Leads.pure ⟨v, _, rfl, same, settles⟩⟩

/-! ### The statement -/

/-- What a host does with a delegated attribute: it initializes the object, and then changes and
reads what is on the path. In between it may hold on to other things and build containers. -/
inductive Course (D : Delegation) : World → Prop where
  | begun {w : World}
      (run : Ends (fun self => self _ (.populate D.site.object)) D.start (.ok ()) w) :
      Course D w
  | moved {w w' : World} {d : Dependency} {move : Move} {r : Except BindError Unit}
      (before : Course D w) (allowed : D.Allowed w d move)
      (run : Ends (fun self => self _ (move.request d)) w r w') : Course D w'
  | looked {w w' : World} {r : Except BindError (Value × Value)} (before : Course D w)
      (run : Ends (fun self => D.look.run self) w r w') : Course D w'
  | held {w : World} (before : Course D w) (hs : List Handle)
      (plain : ∀ h ∈ hs, h.isLink = false) : Course D {w with held := hs}
  | list {w : World} (before : Course D w) {items : List Value}
      (known : ∀ x ∈ items, w.Known x) : Course D (w.addList items).1
  | map {w : World} (before : Course D w) {entries : Dict String Value}
      (known : ∀ {k x}, entries.get? k = some x → w.Known x) : Course D (w.addMap entries).1
  | collected {w : World} (before : Course D w) :
      Course D {w with log := #[], desk := {w.desk with events := #[]}}

/-- Reading the delegated attribute and reading the path give identical or equal values, and
whatever is allowed ends well and is written back as often as it is to be. -/
def InStep (D : Delegation) (w : World) : Prop :=
  (∃ v u w', Ends (fun self => D.look.run self) w (.ok (v, u)) w' ∧ w'.Matches v u) ∧
    ∀ ⦃d move⦄, D.Allowed w d move → ∃ w',
      Ends (fun self => self _ (move.request d)) w (.ok ()) w' ∧
        D.pushes w' = D.pushes w + D.writes w d move

theorem AtRest.in_step (sound : D.Sound) (rest : D.AtRest w ds o) : D.InStep w := by
  refine ⟨?_, fun d move allowed => ?_⟩
  · obtain ⟨r, w', ends, v, u, rfl, same, _⟩ := rest.look sound
    exact ⟨v, u, w', ends, same⟩
  · obtain ⟨r, w', ends, rfl, es, p, settles⟩ := rest.move sound allowed
    exact ⟨w', ends, settles.1.pushes⟩

theorem AtRest.slight (rest : D.AtRest w ds o) (sound : D.Sound) (slight : w.Slight 0 w')
    (reachable : Reachable w') : D.AtRest w' ds o :=
  ⟨reachable, rest.inv.slight sound slight, rest.settled.slight rest.inv slight⟩

/-! ### Initialization -/

theorem Described.inv (described : D.Described) : D.Inv D.start := by
  have ledger := (World.idle_of_reachable described.reachable).ledger
  constructor
  · exact .refl _
  · exact described.whole
  · exact described.known
  · exact ledger
  · exact fun _ appears => absurd appears (ledger.not_appears described.unlinked)
  · exact fun held => absurd held (ledger.not_mem_linksOf described.unlinked)
  · exact fun held => absurd held (ledger.not_mem_linksOf described.unlinked)

/-- Nothing has been evaluated yet, or the delegated attribute has been. -/
def Begins (D : Delegation) (ds : List Dependency) (o : ObjectId) (w : World) : Prop :=
  D.Updated ds o D.start w ∨ D.start.Slips 0 w

theorem Begins.stable (sound : D.Sound) (begins : D.Begins ds o w) (slips : w.Slips 0 w') :
    D.Begins ds o w' :=
  begins.imp (fun updated => updated.stable sound slips) fun before => before.trans slips

/-- Of the bound attributes of the object only the delegated one is evaluated. -/
theorem populateAll_leads (sound : D.Sound) (opened : D.Open D.start ds o) (names : List String)
    (begins : D.Begins ds o w) :
    Leads w (fun self => populateAll self D.site.object D.engine names) fun r w' =>
      r = .ok () ∧ D.Begins ds o w' ∧
        (D.site.name ∈ names ∨ (w.valueOf? D.site).isSome → (w'.valueOf? D.site).isSome) := by
  induction names generalizing w with
  | nil =>
    refine Leads.of_eq (fun _ => rfl) ⟨rfl, begins, ?_⟩
    rintro (mem | set)
    · cases mem
    · exact set
  | cons name rest ih =>
    have others {w₁ : World} (begins₁ : D.Begins ds o w₁)
        (set : name = D.site.name ∨ (w.valueOf? D.site).isSome → (w₁.valueOf? D.site).isSome) :
        Leads w₁ (fun self => populateAll self D.site.object D.engine rest) fun r w' =>
          r = .ok () ∧ D.Begins ds o w' ∧ (D.site.name ∈ name :: rest ∨
            (w.valueOf? D.site).isSome → (w'.valueOf? D.site).isSome) := by
      refine (ih begins₁).mono ?_
      rintro r w' ⟨rfl, begins', sets⟩
      refine ⟨rfl, begins', ?_⟩
      rintro (mem | before)
      · rcases List.mem_cons.1 mem with same | mem
        · exact sets (.inr (set (.inl same.symm)))
        · exact sets (.inl mem)
      · exact sets (.inr (set (.inr before)))
    have grows : D.start.Extends w := by
      rcases begins with updated | slips
      · exact updated.settles.1.grows
      · exact slips.slight.grows
    unfold populateAll
    refine Leads.read (Leads.read ?_)
    by_cases due : ((w.engine D.engine).hasReader name &&
      (w.stored? D.site.object name).isNone) = true
    · simp only [due, if_true]
      obtain ⟨reader, unset⟩ := Bool.and_eq_true_iff.1 due
      have unset : w.valueOf? ⟨D.site.object, name⟩ = none := Option.isNone_iff_eq_none.1 unset
      by_cases same : name = D.site.name
      · subst same
        rcases begins with updated | slips
        · have set := updated.set
          rw [show w.valueOf? D.site = none from unset] at set
          cases set
        · have passes : D.Passes 0 D.start w := .of_slips sound sound.inv slips
          have room : w.depth < 2 := by
            rw [passes.depth, (World.idle_of_reachable sound.reachable).depth]
            exact Nat.zero_lt_two
          refine Leads.seq ((readAttr_leads sound passes.inv (opened.slight slips.slight) room
            unset).mono ?_)
          rintro r w₁ ⟨rfl, updated⟩
          exact ⟨_, rfl, others (.inl (updated.after passes slips.slight.valueOf?))
            fun _ => updated.set⟩
      · exfalso
        have set : (D.start.valueOf? ⟨D.site.object, name⟩).isSome := by
          refine sound.alone ?_ same
          unfold Engine.hasReader at reader ⊢
          rwa [grows.bindings] at reader
        have value : w.valueOf? ⟨D.site.object, name⟩ =
            D.start.valueOf? ⟨D.site.object, name⟩ := by
          rcases begins with updated | slips
          · exact updated.others _ fun is => same (congrArg Dependency.name is)
          · exact slips.slight.valueOf? _
        rw [← value, unset] at set
        cases set
    · simp only [due]
      refine others begins ?_
      rintro (rfl | set)
      · by_contra unset
        refine due (Bool.and_eq_true_iff.2 ⟨?_, ?_⟩)
        · unfold Engine.hasReader
          rw [grows.bindings, sound.bound]
          rfl
        · rwa [World.valueOf?, Option.not_isSome_iff_eq_none, ← Option.isNone_iff_eq_none] at unset
      · exact set

theorem populate_leads (sound : D.Sound) (opened : D.Open D.start ds o) :
    Leads D.start (fun self => self _ (.populate D.site.object)) fun r w' =>
      r = .ok () ∧ D.Settles ds o 0 D.start w' := by
  have begun : Leads D.start (fun self => populate self D.site.object) fun r w' =>
      r = .ok () ∧ D.Begins ds o w' ∧ (w'.valueOf? D.site).isSome := by
    unfold populate
    refine Leads.read ?_
    rw [sound.engine]
    refine Leads.read (World.holding_leads (n := 0) _ ?_ fun {w₁} enter _ => ?_)
    · rintro w₁ w₂ slips ⟨begins, set⟩
      rw [slips.slight.valueOf?]
      exact ⟨begins.stable sound slips, set⟩
    · refine (populateAll_leads sound opened _ (.inr enter)).mono ?_
      rintro r w' ⟨rfl, begins, set⟩
      have bound : (D.site.name, Operator.delegate.bind D.function D.key) ∈
          (D.start.engine D.engine).bindings.entries := Dict.get?_eq_some.1 sound.bound
      exact ⟨rfl, begins, set (.inl (List.mem_mergeSort.2 (List.mem_map.2 ⟨_, bound, rfl⟩)))⟩
  refine Leads.request (begun.mono ?_)
  rintro r w' ⟨rfl, updated | slips, set⟩
  · exact ⟨rfl, updated.settles⟩
  · rw [slips.slight.valueOf?, sound.unset] at set
    cases set

theorem Course.atRest (sound : D.Sound) (course : D.Course w) : ∃ ds o, D.AtRest w ds o := by
  induction course with
  | begun run =>
    obtain ⟨ds, o, opened⟩ := sound.opened
    obtain ⟨r, w', ends, rfl, settles⟩ := populate_leads sound opened
    rw [(run.unique ends).2]
    obtain ⟨m, ends⟩ := ends
    exact ⟨ds, o, sound.reachable.ask (ends m (Nat.le_refl m)), settles.1.inv, settles.2⟩
  | moved before allowed run ih =>
    obtain ⟨ds, o, rest⟩ := ih
    obtain ⟨r, w', ends, _, es, p, settles⟩ := rest.move sound allowed
    rw [(run.unique ends).2]
    exact ⟨es, p, rest.next ends settles⟩
  | looked before run ih =>
    obtain ⟨ds, o, rest⟩ := ih
    obtain ⟨r, w', ends, v, u, _, _, settles⟩ := rest.look sound
    rw [(run.unique ends).2]
    obtain ⟨m, ends⟩ := ends
    exact ⟨ds, o, rest.reachable.run _ (ends m (Nat.le_refl m)), settles.1.inv, settles.2⟩
  | @held w before hs plain ih =>
    obtain ⟨ds, o, rest⟩ := ih
    exact ⟨ds, o, rest.slight sound (w.slight_progress 0 w.depth w.limit hs)
      (rest.reachable.hold hs plain)⟩
  | @list w before items known ih =>
    obtain ⟨ds, o, rest⟩ := ih
    exact ⟨ds, o, rest.slight sound (Network.slight_addList known)
      (rest.reachable.ask (n := 1) (q := .newList items) rfl)⟩
  | @map w before entries known ih =>
    obtain ⟨ds, o, rest⟩ := ih
    exact ⟨ds, o, rest.slight sound (Network.slight_addMap known)
      (rest.reachable.ask (n := 1) (q := .newMap entries) rfl)⟩
  | @collected w before ih =>
    obtain ⟨ds, o, rest⟩ := ih
    have slight : w.Slight 0 {w with log := #[], desk := {w.desk with events := #[]}} :=
      .of_grows (.of_tables rfl rfl rfl rfl id id id id id id) rfl rfl rfl rfl rfl
        fun whole => ⟨whole.items, whole.entries⟩
    exact ⟨ds, o, rest.slight sound slight rest.reachable.collect⟩

/-- **A delegated attribute stays in step with what it stands for**, from the moment its object has
been initialized. -/
theorem Sound.stays_in_step (sound : D.Sound) :
    (∃ w, Ends (fun self => self _ (.populate D.site.object)) D.start (.ok ()) w) ∧
      ∀ ⦃w⦄, D.Course w → D.InStep w := by
  refine ⟨?_, fun w course => ?_⟩
  · obtain ⟨ds, o, opened⟩ := sound.opened
    obtain ⟨r, w, ends, rfl, _⟩ := populate_leads sound opened
    exact ⟨w, ends⟩
  · obtain ⟨ds, o, rest⟩ := course.atRest sound
    exact rest.in_step sound

/-! ### An attribute that stands for one behind a hop -/

/-- Code that loads what is at the end of a path and assigns there. -/
def pathCode (path : Path) (last : String) (s : Scope) : Arguments → Program Value
  | .traced t => do loadEach t (path.hops ++ [last]) (← Program.request (.getName s path.root))
  | .inverted s v => do
    Program.request (.invert s (.attr path last) v)
    return .null
  | _ => return .null

/-- Three objects, of which the host keeps the last, and whatever else there is. -/
def echoWorld (traced : Bool) (functions : Array Function) (engine : Option Engine) : World :=
  { Builtin.world with
    objects := #[
      .declared
        { typeName := "Item", parent := none, members := [], constants := []
          values := .ofList [("x", .int 1)], storage := .empty, registry := ⟨0⟩, config := none
          engine := none },
      .declared
        { typeName := "Item", parent := none, members := [], constants := []
          values := .ofList [("next", .object ⟨0⟩)], storage := .empty, registry := ⟨1⟩
          config := none, engine := none },
      .declared
        { typeName := "Item", parent := none, members := (engine.map fun _ => "value").toList
          constants := [], values := .empty, storage := .empty, registry := ⟨2⟩
          config := some {traceSubscriptions := traced}, engine := engine.map fun _ => ⟨0⟩ }]
    functions := functions
    registries := #[.empty, .empty, .empty]
    engines := engine.toArray
    desk := Desk.initial.keep "field" (.object ⟨2⟩) }

def echoFunction : Function :=
  ⟨"value", ⟨.ofList [("root", .object ⟨1⟩)], .empty⟩, pathCode ⟨"root", ["next"]⟩ "x"⟩

/-- An attribute `value` that stands for `root.next.x`. -/
def echo (traced : Bool) : Delegation where
  start := echoWorld traced #[echoFunction]
    (some ((Engine.start {traceSubscriptions := traced}).addBinding "value"
      (Operator.delegate.bind ⟨0⟩ (.given 0))))
  site := ⟨⟨2⟩, "value"⟩
  engine := ⟨0⟩
  function := ⟨0⟩
  key := .given 0
  path := ⟨"root", ["next"]⟩
  root := ⟨1⟩
  last := "x"

namespace echo
variable {traced : Bool}

/-- An object with some values. -/
def item (values : Dict String Value) (config : Option Config) : Blueprint :=
  { typeName := "Item", parent := none, attributes := values, members := [], constants := .empty
    storage := .empty, config := config }

theorem reachable : Reachable (echo traced).start := by
  -- The worlds are written out: what `rfl` would find is not in normal form and grows at each step.
  have target : Reachable {Builtin.world with
      objects := (echoWorld traced #[] none).objects.take 1, registries := #[.empty]} :=
    (Reachable.start Builtin.natives.toArray).ask (n := 1)
      (q := .newObject (item (.ofList [("x", .int 1)]) none)) rfl
  have root : Reachable {Builtin.world with
      objects := (echoWorld traced #[] none).objects.take 2, registries := #[.empty, .empty]} :=
    target.ask (n := 1) (q := .newObject (item (.ofList [("next", .object ⟨0⟩)]) none)) rfl
  have field : Reachable {echoWorld traced #[] none with desk := .initial} :=
    root.ask (n := 1) (q := .newObject (item .empty (some {traceSubscriptions := traced}))) rfl
  have kept : Reachable (echoWorld traced #[] none) :=
    field.ask (n := 1) (q := .keep "field" (.object ⟨2⟩)) rfl
  have written : Reachable (echoWorld traced #[echoFunction] none) :=
    kept.ask (n := 1)
      (q := .newFunction "value" echoFunction.environment echoFunction.code) rfl
  exact written.ask (n := 1) (q := .bind ⟨2⟩ "value" .delegate ⟨0⟩ (.given 0)) rfl

/-- Neither of the values that are stored is a container. -/
theorem known {d : Dependency} {v : Value} (here : (echo traced).start.valueOf? d = some v) :
    (echo traced).start.Known v := by
  obtain ⟨⟨_ | _ | _ | n⟩, name⟩ := d
  · have mem : (name, v) ∈ [("x", Value.int 1)] := Dict.get?_eq_some.1 here
    cases List.mem_singleton.1 mem
    exact trivial
  · have mem : (name, v) ∈ [("next", Value.object ⟨0⟩)] := Dict.get?_eq_some.1 here
    cases List.mem_singleton.1 mem
    exact trivial
  · cases here
  · cases here

theorem opened : (echo traced).Open (echo traced).start [⟨⟨1⟩, "next"⟩] ⟨0⟩ where
  route := .hop (.stored rfl) (.here _)
  assignable := ⟨_, rfl, rfl, rfl⟩
  unbound engine := by cases engine
  away := by cases traced <;> decide

theorem described : (echo traced).Described where
  reachable := reachable
  whole := ⟨nofun, nofun⟩
  known := known
  watched := nofun
  unlinked := rfl
  kept := List.mem_singleton.2 rfl
  engine := rfl
  bound := rfl
  limited := by show 2 ≤ 64; decide
  declared := ⟨_, rfl, rfl⟩
  unset := rfl
  alone {name} reader other := by
    have none : ((echo traced).start.engine (echo traced).engine).hasReader name = false := by
      have absent : ((echo traced).start.engine (echo traced).engine).bindings.get? name =
          Option.none := by
        rw [Option.eq_none_iff_forall_ne_some]
        intro b here
        have mem : (name, b) ∈ [("value", Operator.delegate.bind ⟨0⟩ (.given 0))] :=
          Dict.get?_eq_some.1 here
        cases List.mem_singleton.1 mem
        exact other rfl
      rw [Engine.hasReader, absent]
    rw [none] at reader
    cases reader
  code := ⟨_, rfl, fun _ _ => rfl, fun _ _ => ⟨false, rfl⟩⟩
  surroundings := ⟨_, rfl, rfl, rfl⟩
  lacks := .declared rfl rfl nofun
  plain _ reserved := by cases reserved
  distinct := by cases traced <;> decide
  opened := ⟨_, _, opened⟩

theorem sound : (echo true).Sound := ⟨described, rfl⟩

/-- What is emitted on the attribute is written back, and the two have the same value then. -/
theorem sends_back : ∃ w w',
    Ends (fun self => self _ (.populate ⟨2⟩)) (echo true).start (.ok ()) w ∧
      Ends (fun self => self _ (.emit ⟨2⟩ "value" (.int 5))) w (.ok ()) w' ∧
      (echo true).pushes w' = (echo true).pushes w + 1 ∧
      ∃ v u w'', Ends (fun self => (echo true).look.run self) w' (.ok (v, u)) w'' ∧
        w''.Matches v u := by
  obtain ⟨⟨w, begins⟩, inStep⟩ := sound.stays_in_step
  have course : (echo true).Course w := .begun begins
  have allowed : (echo true).Allowed w (echo true).site (.emit (.int 5)) := .site trivial
  obtain ⟨w', emits, once⟩ := (inStep course).2 allowed
  exact ⟨w, w', begins, emits, once, (inStep (course.moved allowed emits)).1⟩

/-- Initializes the object, assigns 5 at the end of the path, and reads. -/
def session (traced : Bool) : Program (Value × Value) := do
  Program.request (.populate ⟨2⟩)
  Program.request (.setAttr (.object ⟨0⟩) "x" (.int 5))
  (echo traced).look

/-- Where reads do not subscribe to what they consult, the attribute keeps its first value. -/
theorem keeps_first : (echo false).Described ∧
    (((session false).run (perform 12) (echo false).start).map Prod.fst).map Except.toOption =
      some (some (.int 1, .int 5)) ∧
    ∀ w : World, ¬ w.Matches (.int 1) (.int 5) := by
  refine ⟨described, by decide +kernel, fun w same => ?_⟩
  have differ : w.equal (.int 1) (.int 5) = false := (w.equal_int 1 5).trans (by decide)
  rcases same with same | equal
  · cases same
  · rw [differ] at equal
    cases equal

end echo

end Delegation

end LiveBinding
