import LiveBinding.Proofs.Cascade

/-! Updates of bound attributes.

An attribute without a value is updated when somebody reads it, perhaps in the middle of an
evaluation; nothing observes it then but watchers, and what it reads on its way is of lower
rank. An attribute with a value is updated when a change is made known to it, and lets what
is of higher rank know in turn. -/
namespace LiveBinding.Network
variable {N : Network} {w w' : World} {P : Dependency → Prop} {x d : Dependency} {v : Value}
  {e : EngineRef} {h : Handler} {n k : Nat}

/-! ### First values -/

/-- No link observes a bound attribute that has no value. -/
theorem Inv.unobserved (inv : N.Inv w P) (bound : N.start.Bound x) (unset : w.valueOf? x = none)
    (l : LinkRef) : .link l ∉ w.observersOf x := by
  intro observes
  obtain ⟨k, h, _, _, above⟩ := inv.link observes
  have set := (above bound).1
  rw [unset] at set
  cases set

theorem Fills.store (start : N.start.Extends w) (bound : N.start.Bound x)
    (is : N.start.Attribute x) (unset : w.valueOf? x = none) (v : Value) :
    N.Fills n (N.rank x + 1) w (w.store x v) := by
  have is' := start.attribute.2 is
  have value (d : Dependency) := World.valueOf?_store is' v d
  refine ⟨World.extends_store is' v, fun {d u} here => ?_, fun {d} out => ?_, fun _ _ => rfl,
    Nat.le_refl _⟩
  · rw [value, if_neg]
    · exact here
    · rintro rfl
      rw [unset] at here
      cases here
  · rw [value, if_neg]
    rintro rfl
    exact Nat.not_succ_le_self _ (out bound)

/-- A bound attribute that has no value gets one. -/
theorem update_first (sound : N.Sound) (evaluable : N.Evaluable (N.rank x)) (inv : N.Inv w P)
    (handler : N.start.handlerOf? x = some (e, h)) (unset : w.valueOf? x = none)
    (room : N.Roomy N.room (N.rank x) w) :
    Leads w (fun self => Engine.update self e x.object x.name) fun r w' =>
      r = .ok () ∧ N.Advances w.tracers.size (N.rank x + 1) P w w' ∧ (w'.valueOf? x).isSome := by
  have bound : N.start.Bound x := ⟨e, h, handler⟩
  have assignable := sound.assignable bound
  have is := assignable.attribute
  have stable {m : Nat} (more : w.tracers.size ≤ m) {w₁ w₂ : World} (slips : w₁.Slips m w₂)
      (here : N.Advances w.tracers.size (N.rank x + 1) P w w₁ ∧ (w₁.valueOf? x).isSome) :
      N.Advances w.tracers.size (N.rank x + 1) P w w₂ ∧ (w₂.valueOf? x).isSome := by
    rw [slips.slight.valueOf?]
    exact ⟨here.1.trans ((Advances.of_slight sound here.1.inv slips.slight slips.depth).mono more
      (Nat.le_refl _)), here.2⟩
  refine World.update_leads (n := w.tracers.size) e (stable (Nat.le_refl _)) ?_
  rintro w₁ ⟨enter, -⟩
  have entered := Advances.of_slight (k := 0) sound inv enter.slight enter.depth
  refine (readBinding_leads sound evaluable entered.inv handler (room.advance entered)).mono ?_
  rintro r w₂ ⟨u, ds, rfl, renewed⟩
  refine ⟨u, rfl, ?_⟩
  rintro w₃ ⟨guarded, -⟩ -
  have read := renewed.advances.mono enter.slight.more (Nat.le_succ _)
  have entering : N.Advances w.tracers.size (N.rank x + 1) (fun y => P y ∨ y = x) w _ :=
    .of_slight sound (inv.mono fun _ _ => .inl) enter.slight enter.depth
  have advances₃ : N.Advances w.tracers.size (N.rank x + 1) (fun y => P y ∨ y = x) w w₃ :=
    (entering.trans read).trans (.of_slight sound read.inv guarded.slight guarded.depth)
  have unset₃ : w₃.valueOf? x = none := by
    rw [guarded.slight.valueOf?, renewed.advances.fills.kept fun _ => Nat.le_refl _,
      enter.slight.valueOf?, unset]
  refine World.assign_leads (assignable.mono advances₃.inv.grows)
    (stable advances₃.fills.more) ?_ ?_
  · intro w₄ old _ here _
    rw [unset₃] at here
    cases here
  · rintro w₄ kind old ⟨slips, -⟩ _ _
    have slips' : w₂.Slips w.tracers.size w₄ :=
      guarded.trans (slips.mono advances₃.fills.more)
    have inv₄ := advances₃.inv.slight sound slips.slight
    have unset₄ : w₄.valueOf? x = none := (slips.slight.valueOf? x).trans unset₃
    let w₅ := w₄.store x u
    have quiet (l : LinkRef) : .link l ∉ w₅.observersOf x := by
      rw [World.observersOf, (w₄.still_store x u).registryOf?]
      exact inv₄.unobserved bound unset₄ l
    have inv₅ : N.Inv w₅ P := by
      refine (inv₄.store sound is (sound.fitsMono slips'.1.grows renewed.fits) fun _ =>
        ⟨ds, ?_⟩).mono ?_
      · exact (renewed.current.slight sound renewed.advances.inv.grows slips'.1).since
          (inv.grows.trans enter.slight.grows)
      · rintro y _ (pending | ⟨_, _, l, _, _, observes⟩)
        · exact pending
        · exact absurd observes (quiet l)
    obtain ⟨y, known₅, _⟩ := inv₅.grows.attribute.2 is
    have made := dispatch_leads (Q := fun w' => w₅.Slips w₅.tracers.size w') sound inv₅.grows
      known₅ kind old u (fun next slips => slips.trans next)
      (fun slips => inv₅.grows.trans slips.slight.grows) fun notified => by
        refine (World.deliver_watchers (n := w₅.tracers.size)
          (sound.watched.mono (inv₅.grows.trans notified.slips.slight.grows))
          (fun l mem => quiet l (notified.observing mem)) _).mono ?_
        rintro r w' ⟨rfl, slips⟩
        exact ⟨rfl, notified.slips.trans slips⟩
    refine made.mono ?_
    rintro r w' ⟨rfl, last⟩
    have there : (w₅.valueOf? x).isSome := by
      rw [World.valueOf?_store (inv₄.grows.attribute.2 is), if_pos rfl]
      rfl
    have before : N.Advances w.tracers.size (N.rank x + 1) (fun y => P y ∨ y = x) w w₄ :=
      advances₃.trans ((Advances.of_slight sound advances₃.inv slips.slight slips.depth).mono
        advances₃.fills.more (Nat.le_refl _))
    have stored : N.Advances w.tracers.size (N.rank x + 1) P w w₅ :=
      ⟨before.fills.trans (.store inv₄.grows bound is unset₄ u), inv₅, before.depth⟩
    exact ⟨rfl, stable before.fills.more last ⟨stored, there⟩⟩

/-- Whatever is read for the first time is evaluated. -/
theorem evaluable (sound : N.Sound) (k : Nat) : N.Evaluable k := by
  induction k using Nat.strong_induction_on with
  | _ k ih =>
    intro y e h w P handler lower inv unset room
    refine (update_first sound (ih _ lower) inv handler unset room).mono ?_
    rintro r w' ⟨rfl, advances, set⟩
    exact ⟨rfl, advances.mono (Nat.le_refl _) lower, set⟩

/-! ### Refreshing -/

/-- Whatever is pending is current after an update. -/
theorem refreshable (sound : N.Sound) (x : Dependency) : N.Refreshable x := by
  intro e h w P handler inv spacious
  have assignable := sound.assignable ⟨e, h, handler⟩
  refine World.update_leads (n := w.tracers.size) e ?_ ?_
  · rintro w₁ w₂ slips ⟨proceeds, set⟩
    rw [slips.slight.valueOf?]
    exact ⟨proceeds.stable sound slips, set⟩
  · rintro w₁ ⟨enter, -⟩
    refine (readBinding_leads sound (evaluable sound _) (inv.slight sound enter.slight) handler
      (spacious.slips enter).roomy).mono ?_
    rintro r w₂ ⟨u, ds, rfl, renewed⟩
    refine ⟨u, rfl, ?_⟩
    rintro w₃ ⟨guarded, -⟩ -
    have proceeds : N.Proceeds (fun y => (P y ∨ y = x) ∨ y = x) w w₃ :=
      ((Proceeds.of_slips sound inv enter).trans (.of_advances renewed.advances)).stable sound
        guarded
    refine (assign_proceeds (P := P) sound (proceeds.inv.mono ?_) assignable
      (spacious.proceed proceeds) (sound.fitsMono guarded.slight.grows renewed.fits)
      (fun _ => ⟨ds, ?_⟩)
      fun {y} above => ?_).mono ?_
    · rintro y _ ((pending | same) | same)
      · exact .inl pending
      · exact .inr same
      · exact .inr same
    · exact (renewed.current.slight sound renewed.advances.inv.grows guarded.slight).since
        (inv.grows.trans enter.slight.grows)
    · have higher := above ⟨e, h, handler⟩
      exact refreshable sound y
    · rintro r w' ⟨rfl, next, set⟩
      exact ⟨rfl, proceeds.trans next, set⟩
termination_by N.start.sites.length - N.rank x
decreasing_by
  have room := N.rank_le y
  omega

end LiveBinding.Network
