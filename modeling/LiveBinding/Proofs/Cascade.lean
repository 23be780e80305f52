import LiveBinding.Proofs.Assignment

/-! Cascades of updates.

A change lets the links of an attribute know, one after the other; each of them evaluates its
attribute again, which changes in turn and lets its own links know. Links go up in rank, so
every cascade ends, and whatever awaited an update has got one by then. -/
namespace LiveBinding

namespace Network
variable {N : Network} {w w' w₁ w₂ : World} {P Q : Dependency → Prop} {x y a d : Dependency}
  {v : Value} {e : EngineRef} {h : Handler} {n : Nat}

/-! ### Outcomes -/

/-- An operation leaves only what is in `P` pending, and no attribute without a value that
had one. -/
structure Proceeds (N : Network) (P : Dependency → Prop) (w w' : World) : Prop where
  inv : N.Inv w' P
  grows : w.Extends w'
  stored : ∀ {d}, (w.valueOf? d).isSome → (w'.valueOf? d).isSome
  depth : w'.depth = w.depth

namespace Proceeds

theorem of_slight (sound : N.Sound) (inv : N.Inv w P) (slight : w.Slight n w')
    (depth : w'.depth = w.depth) : N.Proceeds P w w' where
  inv := inv.slight sound slight
  grows := slight.grows
  stored set := by
    rw [slight.valueOf?]
    exact set
  depth := depth

theorem of_slips (sound : N.Sound) (inv : N.Inv w P) (slips : w.Slips n w') :
    N.Proceeds P w w' := .of_slight sound inv slips.slight slips.depth

theorem trans (first : N.Proceeds Q w w₁) (next : N.Proceeds P w₁ w₂) : N.Proceeds P w w₂ where
  inv := next.inv
  grows := first.grows.trans next.grows
  stored set := next.stored (first.stored set)
  depth := next.depth.trans first.depth

theorem stable (sound : N.Sound) (proceeds : N.Proceeds P w w₁) (slips : w₁.Slips n w₂) :
    N.Proceeds P w w₂ := proceeds.trans (.of_slips sound proceeds.inv slips)

theorem of_advances (advances : N.Advances n k P w w') : N.Proceeds P w w' where
  inv := advances.inv
  grows := advances.fills.grows
  stored := advances.fills.isSome
  depth := advances.depth

end Proceeds

/-- There is room for evaluating whatever has no value yet. -/
def Spacious (N : Network) (w : World) : Prop := N.Roomy N.room N.start.sites.length w

theorem Spacious.roomy (spacious : N.Spacious w) : N.Roomy N.room (N.rank x) w :=
  spacious.mono id rfl (N.rank_le x)

theorem Spacious.proceed (spacious : N.Spacious w) (proceeds : N.Proceeds P w w') :
    N.Spacious w' := spacious.mono proceeds.stored proceeds.depth (Nat.le_refl _)

theorem Spacious.slips (spacious : N.Spacious w) (slips : w.Slips n w') : N.Spacious w' :=
  spacious.mono (fun set => (slips.slight.valueOf? _).symm ▸ set) slips.depth (Nat.le_refl _)

/-- An attribute that is pending is so no longer after an update. -/
def Refreshable (N : Network) (y : Dependency) : Prop :=
  ∀ ⦃e h w P⦄, N.start.handlerOf? y = some (e, h) → N.Inv w (fun z => P z ∨ z = y) →
    N.Spacious w →
    Leads w (fun self => Engine.update self e y.object y.name) fun r w' =>
      r = .ok () ∧ N.Proceeds P w w' ∧ (w'.valueOf? y).isSome

/-! ### Deliveries -/

/-- A link among some observers is for the attribute. -/
def Awaited (w : World) (xs : List Observer) (y : Dependency) : Prop :=
  ∃ l k, .link l ∈ xs ∧ w.links[l.index]? = some k ∧ k.site = y

/-- The links among some observers are for bound attributes that can be updated. -/
def Deliverable (N : Network) (w : World) (xs : List Observer) : Prop :=
  ∀ l, .link l ∈ xs → ∃ k h, w.links[l.index]? = some k ∧
    N.start.handlerOf? k.site = some (k.engine, h) ∧ N.Refreshable k.site

/-- A link updates its attribute; objects and their engines are there all the time. -/
theorem link_leads (sound : N.Sound) (start : N.start.Extends w) {change : ObjectId} {l : LinkRef}
    {k : Link} {c : Change} (made : w.links[l.index]? = some k) (found : w.change? change = some c)
    (handler : N.start.handlerOf? k.site = some (k.engine, h)) {Q : World → Prop}
    (updated : ∀ {w₁}, w.Eases w.tracers.size w₁ →
      Leads w₁ (fun self => Engine.update self k.engine k.owner k.name) fun r w' =>
        r = .ok () ∧ Q w') :
    Leads w (fun self => inform self change (.link l)) fun r w' => r = .ok () ∧ Q w' := by
  let w₀ := w.tell (.link l) change
  have reacts (self : Performer) : react self change (.link l) w₀ = refresh self k c w₀ := by
    have made₀ : w₀.links[l.index]? = some k := made
    have found₀ : w₀.change? change = some c := found
    simp only [react, made₀, found₀]
  have told : w.Slips w.tracers.size w₀ := .tell w _ change
  replace start : N.start.Extends w₀ := start.trans told.slight.grows
  obtain ⟨engine, _⟩ := World.handlerOf?_eq_some.1 handler
  have grounded := sound.grounded.mono start
  obtain ⟨x, known, _⟩ := Option.bind_eq_some_iff.1 ((start.engineOf? _).trans engine)
  have owner : w₀.isLive (.object k.owner) = true := grounded.isLive known
  have held : w₀.isLive (.engine k.engine) = true :=
    grounded.isLive_engine ((start.engineOf? _).trans engine)
  refine Leads.update (Leads.congr (w := w₀) reacts ?_)
  unfold refresh
  refine Leads.read (Leads.read ?_)
  simp only [held, owner, Bool.and_self, if_true]
  refine Leads.log ?_
  let w₁ := w₀.addEntry (.dependencyChanged k.owner k.name c.owner c.name)
  have logged : w.Slips w.tracers.size w₁ := told.trans (.log w₀ rfl)
  refine Leads.seq (Leads.attempt ((updated (logged.eases rfl)).mono ?_))
  rintro r w₂ ⟨rfl, here⟩
  exact ⟨_, rfl, Leads.pure ⟨rfl, here⟩⟩

/-- Once a change has been delivered, nothing awaits an update that a link was for. -/
theorem deliver_leads (sound : N.Sound) {change : ObjectId} {xs : List Observer}
    (inv : N.Inv w fun y => P y ∨ Awaited w xs y) (spacious : N.Spacious w)
    (known : ∃ c, w.change? change = some c) (deliverable : N.Deliverable w xs) :
    Leads w (fun self => deliver self change xs) fun r w' => r = .ok () ∧ N.Proceeds P w w' := by
  induction xs generalizing w with
  | nil =>
    refine Leads.of_eq (fun _ => rfl) ⟨rfl, .of_slips sound (inv.mono ?_) (n := 0) (.refl w)⟩
    rintro y _ (pending | ⟨l, k, mem, _⟩)
    · exact pending
    · cases mem
  | cons x rest ih =>
    -- whatever happens to the first observer, the others are where they were
    have others {w₁ : World} (proceeds : N.Proceeds (fun y => P y ∨ Awaited w rest y) w w₁) :
        Leads w₁ (fun self => deliver self change rest) fun r w' =>
          r = .ok () ∧ N.Proceeds P w w' := by
      obtain ⟨c, found⟩ := known
      refine (ih (proceeds.inv.mono ?_) (spacious.proceed proceeds)
        ⟨c, proceeds.grows.change? found⟩ fun l mem => ?_).mono ?_
      · rintro y _ (pending | ⟨l, k, mem, made, site⟩)
        · exact .inl pending
        · exact .inr ⟨l, k, mem, proceeds.grows.links made, site⟩
      · obtain ⟨k, h, made, rest⟩ := deliverable l (List.mem_cons_of_mem _ mem)
        exact ⟨k, h, proceeds.grows.links made, rest⟩
      · rintro r w' ⟨rfl, next⟩
        exact ⟨rfl, proceeds.trans next⟩
    refine Leads.seq (Leads.mono (Q := fun r w₁ => r = .ok () ∧
      N.Proceeds (fun y => P y ∨ Awaited w rest y) w w₁) ?_ ?_)
    · cases x with
      | watcher c =>
        refine (World.watcher_leads (n := w.tracers.size) (sound.watched.mono inv.grows) change
          c).mono ?_
        rintro r w₁ ⟨rfl, slips⟩
        refine ⟨rfl, .of_slips sound (inv.mono ?_) slips⟩
        rintro y _ (pending | ⟨l, k, mem, made⟩)
        · exact .inl pending
        · rcases List.mem_cons.1 mem with same | mem
          · cases same
          · exact .inr ⟨l, k, mem, made⟩
      | link l =>
        obtain ⟨k, h, made, handler, refreshable⟩ := deliverable l List.mem_cons_self
        obtain ⟨c, found⟩ := known
        have inv' : N.Inv w fun y => (P y ∨ Awaited w rest y) ∨ y = k.site := by
          refine inv.mono ?_
          rintro y _ (pending | ⟨l', k', mem, made', site⟩)
          · exact .inl (.inl pending)
          · rcases List.mem_cons.1 mem with same | mem
            · cases same
              rw [made] at made'
              cases made'
              exact .inr site.symm
            · exact .inl (.inr ⟨l', k', mem, made', site⟩)
        refine link_leads sound inv.grows made found handler ?_
        rintro w₁ ⟨logged, -⟩
        have refreshes :=
          refreshable handler (inv'.slight sound logged.slight) (spacious.slips logged)
        refine refreshes.mono ?_
        rintro r w₂ ⟨rfl, proceeds, _⟩
        exact ⟨rfl, (Proceeds.of_slips sound inv' logged).trans proceeds⟩
    · rintro r w₁ ⟨rfl, proceeds⟩
      exact ⟨(), rfl, others proceeds⟩

/-! ### Changes -/

/-- Whatever awaits an update when an attribute changes gets one. -/
theorem change_leads (sound : N.Sound) (inv : N.Inv w fun y => P y ∨ N.Awaits w a y)
    (is : N.start.Attribute a) (spacious : N.Spacious w) (kind : ChangeKind) (old new : Value)
    (refreshable : ∀ {y}, (N.start.Bound a → N.rank a < N.rank y) → N.Refreshable y) :
    Leads w (fun self => dispatch self a.object kind a.name old new) fun r w' =>
      r = .ok () ∧ N.Proceeds P w w' := by
  obtain ⟨d, known, _⟩ := inv.grows.attribute.2 is
  refine dispatch_leads sound inv.grows known kind old new
    (fun slips proceeds => proceeds.stable sound slips) (fun proceeds => proceeds.inv.grows) ?_
  intro w₁ change live notified
  have slips := notified.slips
  refine (deliver_leads (P := P) sound ((inv.slight sound slips.slight).mono ?_)
    (spacious.slips slips) notified.change fun l mem => ?_).mono ?_
  · rintro y _ (pending | ⟨e, h, l, handler, held, observes⟩)
    · exact .inl pending
    · obtain ⟨k, made, site⟩ := inv.site sound handler held observes
      have engine := (inv.grows.engineOf? y.object).trans (World.handlerOf?_eq_some.1 handler).1
      exact .inr ⟨l, k, notified.live engine held observes, slips.slight.grows.links made, site⟩
  · obtain ⟨k, h, made, handler, above⟩ := inv.link (notified.observing mem)
    exact ⟨k, h, slips.slight.grows.links made, handler, refreshable fun bound => (above bound).2⟩
  · rintro r w' ⟨rfl, proceeds⟩
    exact ⟨rfl, (Proceeds.of_slips sound inv slips).trans proceeds⟩

/-- A bound attribute whose value is like the one that was made last is not pending. -/
theorem Inv.settle (inv : N.Inv w fun y => P y ∨ y = x)
    (now : ∀ {v}, N.start.Bound x → w.valueOf? x = some v →
      ∃ u ds, w.Alike v u ∧ N.Current N.start w x u ds) : N.Inv w P where
  grows := inv.grows
  whole := inv.whole
  ledger := inv.ledger
  fits := inv.fits
  unset := inv.unset
  linked := inv.linked
  fresh := inv.fresh
  current {y v} bound here done := by
    by_cases same : y = x
    · subst same
      exact now bound here
    · refine inv.current bound here ?_
      rintro (pending | is)
      · exact done pending
      · exact same is

/-- Constants have values from the start, so they are not bound. -/
theorem Sound.assignable (sound : N.Sound) (bound : N.start.Bound x) :
    N.start.Assignable x :=
  World.assignable_of_unset sound.reachable (sound.declared bound) (sound.unset bound)

/-- An assignment has updated whatever consulted the attribute when it ends. -/
theorem assign_proceeds (sound : N.Sound) (inv : N.Inv w fun y => P y ∨ y = a)
    (assignable : N.start.Assignable a) (spacious : N.Spacious w) (fit : N.fits w a v)
    (now : N.start.Bound a → ∃ ds, N.Current N.start w a v ds)
    (refreshable : ∀ {y}, (N.start.Bound a → N.rank a < N.rank y) → N.Refreshable y) :
    Leads w (fun self => setAttr self (.object a.object) a.name v) fun r w' =>
      r = .ok () ∧ N.Proceeds P w w' ∧ (w'.valueOf? a).isSome := by
  have is := assignable.attribute
  -- what holds now holds until the value is stored
  have later {w₁ : World} (slips : w.Slips w.tracers.size w₁) (bound : N.start.Bound a) :
      ∃ ds, N.Current N.start w₁ a v ds := by
    obtain ⟨ds, current⟩ := now bound
    exact ⟨ds, current.slight sound inv.grows slips.slight⟩
  refine World.assign_leads (assignable.mono inv.grows) ?_ ?_ ?_
  · rintro w₁ w₂ slips ⟨proceeds, set⟩
    rw [slips.slight.valueOf?]
    exact ⟨proceeds.stable sound slips, set⟩
  · intro w₁ old slips here equal
    have inv₁ := inv.slight sound slips.slight
    have here₁ := (slips.slight.valueOf? a).trans here
    refine ⟨⟨inv₁.settle fun bound value => ?_, slips.slight.grows, fun set => ?_, slips.depth⟩, ?_⟩
    · obtain ⟨ds, current⟩ := later slips bound
      cases here₁.symm.trans value
      have alike := World.alike_of_equal inv.whole (sound.known (inv.fits is here))
        (sound.known fit) equal
      exact ⟨v, ds, alike.mono slips.slight.grows, current⟩
    · rw [slips.slight.valueOf?]
      exact set
    · rw [here₁]
      rfl
  · rintro w₁ kind old ⟨slips, -⟩ _ _
    have inv₁ := inv.slight sound slips.slight
    have stored := inv₁.store sound is (sound.fitsMono slips.slight.grows fit) (later slips)
    have is₁ := inv₁.grows.attribute.2 is
    have value := World.valueOf?_store is₁ v
    have set {d : Dependency} (set : (w.valueOf? d).isSome) :
        ((w₁.store a v).valueOf? d).isSome := by
      rw [value]
      split
      · rfl
      · rw [slips.slight.valueOf?]
        exact set
    refine (change_leads sound stored is (spacious.mono set slips.depth (Nat.le_refl _)) kind old v
      refreshable).mono ?_
    rintro r w' ⟨rfl, proceeds⟩
    refine ⟨rfl, ⟨proceeds.inv, ?_, fun here => proceeds.stored (set here), ?_⟩,
      proceeds.stored ?_⟩
    · exact (slips.slight.grows.trans (World.extends_store is₁ v)).trans proceeds.grows
    · exact proceeds.depth.trans slips.depth
    · rw [value, if_pos rfl]
      rfl

end Network

end LiveBinding
