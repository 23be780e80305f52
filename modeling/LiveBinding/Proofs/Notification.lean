import LiveBinding.Proofs.Persistence
import LiveBinding.Proofs.Relinking

/-! Making a change known.

A change is made known to the observers of an attribute in the order of registration, and then
written back. Watchers only watch; what the links among the observers do, and what is written,
is up to whoever uses `dispatch_leads`. -/
namespace LiveBinding

namespace World
variable {α : Type} {w w' : World} {n : Nat} {a : Performer → Action α} {r : Except BindError α}
  {Q : World → Prop}

/-! ### Brackets -/

/-- Holding on to things does not matter to what slight steps do not matter to. -/
theorem holding_leads (hs : List Handle) (stable : ∀ {w₁ w₂}, w₁.Slips n w₂ → Q w₁ → Q w₂)
    (leads : ∀ {w₁}, w.Slips n w₁ → w₁.held = hs ++ w.held →
      Leads w₁ a fun s w' => s = r ∧ Q w') :
    Leads w (fun self => Action.holding hs (a self)) fun s w' => s = r ∧ Q w' := by
  refine Leads.holding ((leads (.progress w w.limit _) rfl).mono ?_)
  rintro s w' ⟨rfl, here⟩
  exact ⟨rfl, stable (.progress w' w'.limit _) here⟩

/-- An update reads an attribute and assigns what it has read, with its guard up. -/
theorem update_leads {x : Dependency} (e : EngineRef)
    (stable : ∀ {w₁ w₂}, w₁.Slips n w₂ → Q w₁ → Q w₂)
    (read : ∀ {w₁}, w.Eases n w₁ →
      Leads w₁ (fun self => Engine.read self e x.object x.name) fun r w₂ =>
        ∃ u, r = .ok (some u) ∧ ∀ {w₃}, w₂.Eases n w₃ →
          ((w₂.engine e).bindings.contains x.name = true → x.name ∈ (w₃.engine e).guards) →
            Leads w₃ (fun self => setAttr self (.object x.object) x.name u) fun r w' =>
              r = .ok () ∧ Q w') :
    Leads w (fun self => Engine.update self e x.object x.name) fun r w' =>
      r = .ok () ∧ Q w' := by
  unfold Engine.update
  have plain : Linkless [.engine e, .object x.object] := .cons rfl (.cons rfl .nil)
  refine holding_leads _ stable fun {w₁} enter held =>
    Leads.seq ((read ⟨enter, fun mem => ?_⟩).mono ?_)
  · exact (List.mem_append.1 (held ▸ mem)).resolve_left fun new => Bool.noConfusion (plain _ new)
  rintro r w₂ ⟨u, rfl, assigned⟩
  refine ⟨some u, rfl, Leads.read (Leads.log ?_)⟩
  have logged : w₂.Eases n (w₂.addEntry (.bindingUpdated x.object x.name (w₂.text u))) :=
    (Slips.log w₂ rfl).eases rfl
  refine Leads.within ((Leads.request (assigned (logged.trans (.guard _ e x.name))
    fun bound => ?_)).mono ?_)
  · exact (mem_guards_guard (w := w₂.addEntry _) bound).2 (.inl ⟨rfl, rfl⟩)
  · rintro r w' ⟨rfl, here⟩
    exact ⟨rfl, stable (.unguard _ w' e x.name) here⟩

/-! ### Watching -/

/-- A program that only watches takes slight steps. -/
theorem passive_leads {p : Program α} (passive : Passive p) :
    Leads w (fun self => p.run self) fun _ w' => w.Slips n w' := by
  induction passive generalizing w with
  | done r => exact Leads.done (.refl w)
  | query q rest ih => exact Leads.query (ih _)
  | record e rest ih =>
    have step : w.Slips n (w.modifyDesk (·.record e)) := .desk w _ rfl
    refine Leads.ask (Leads.request (Leads.of_eq (fun _ => rfl) ((ih _).mono ?_)))
    exact fun _ _ slips => step.trans slips
  | spend rest ih =>
    refine Leads.ask (Leads.request ?_)
    cases left : w.desk.allowance with
    | zero =>
      refine Leads.of_eq (fun _ => ?_) (ih (.ok false))
      show spend w = _
      simp only [spend, left]
    | succ m =>
      have step : w.Slips n (w.modifyDesk fun d => {d with allowance := m}) := .desk w _ rfl
      refine Leads.of_eq (fun _ => ?_) ((ih (.ok true)).mono fun _ _ slips => step.trans slips)
      show spend w = _
      simp only [spend, left]

/-- All watchers only watch. -/
def Watched (w : World) : Prop :=
  ∀ ⦃i : Nat⦄ ⦃x⦄, w.watchers[i]? = some x → ∀ change, Passive (x.code change)

theorem Watched.mono (watched : w.Watched) (grows : w.Extends w') : w'.Watched := fun _ _ found =>
  watched (grows.watchers ▸ found)

theorem watcher_reacts (watched : w.Watched) (change : ObjectId) (c : WatcherRef) :
    Leads w (fun self => react self change (.watcher c)) fun r w' =>
      r = .ok () ∧ w.Slips n w' := by
  cases found : w.watchers[c.index]? with
  | none =>
    refine Leads.of_eq (fun _ => ?_) ⟨rfl, .refl w⟩
    simp only [react, found]
  | some code =>
    have seen := passive_leads (w := w) (n := n) (watched found change)
    refine Leads.congr (b := fun self => Action.attempt ((code.code change).run self) >>= fun _ =>
      pure ()) (fun self => ?_) (Leads.seq (Leads.attempt (seen.mono ?_)))
    · simp only [react, found]
      rfl
    · exact fun r w' slips => ⟨_, rfl, Leads.pure ⟨rfl, slips⟩⟩

theorem watcher_leads (watched : w.Watched) (change : ObjectId) (c : WatcherRef) :
    Leads w (fun self => inform self change (.watcher c)) fun r w' =>
      r = .ok () ∧ w.Slips n w' := by
  have told : w.Slips n (w.tell (.watcher c) change) := .tell w _ change
  have seen := watcher_reacts (w := w.tell (.watcher c) change) (n := n) watched change c
  refine Leads.update (seen.mono ?_)
  rintro r w' ⟨rfl, slips⟩
  exact ⟨rfl, told.trans slips⟩

theorem deliver_watchers (watched : w.Watched) {xs : List Observer} (none : ∀ l, .link l ∉ xs)
    (change : ObjectId) :
    Leads w (fun self => deliver self change xs) fun r w' => r = .ok () ∧ w.Slips n w' := by
  induction xs generalizing w with
  | nil => exact Leads.of_eq (fun _ => rfl) ⟨rfl, .refl w⟩
  | cons x rest ih =>
    cases x with
    | link l => exact absurd List.mem_cons_self (none l)
    | watcher c =>
      refine Leads.seq ((watcher_leads (n := n) watched change c).mono ?_)
      rintro r w₁ ⟨rfl, first⟩
      refine ⟨(), rfl, (ih (watched.mono first.slight.grows) fun l mem =>
        none l (List.mem_cons_of_mem _ mem)).mono ?_⟩
      rintro r w' ⟨rfl, next⟩
      exact ⟨rfl, first.trans next⟩

/-! ### Making a change known -/

/-- Before a change of `d` is delivered to its observers `live`, nothing has happened that an
attribute would notice. No link that an engine has is missing; links that no engine has any more
are those of notifications in progress. -/
structure Notified (d : Dependency) (w w' : World) (change : ObjectId) (live : List Observer) :
    Prop where
  slips : w.Slips w.tracers.size w'
  change : ∃ c, w'.change? change = some c
  sublist : live.Sublist (w.observersOf d)
  tied : ∀ {l}, .link l ∈ live → .link l ∈ w.held ∨ ∃ e name, l ∈ (w.engine e).linksOf name
  held : ∀ {l}, .link l ∈ w'.held → .link l ∈ w.held ∨ .link l ∈ live
  live : ∀ {o e name l}, w.engineOf? o = some e → l ∈ (w.engine e).linksOf name →
    .link l ∈ w.observersOf d → .link l ∈ live

theorem Notified.observing {d : Dependency} {change : ObjectId} {live : List Observer}
    (notified : Notified d w w' change live) {x : Observer} (mem : x ∈ live) :
    x ∈ w.observersOf d := notified.sublist.subset mem

theorem link_mem_of_handle {xs : List Observer} {l : LinkRef}
    (mem : .link l ∈ xs.map Observer.handle) : .link l ∈ xs := by
  obtain ⟨x, listed, same⟩ := List.mem_map.1 mem
  cases x with
  | watcher c => cases same
  | link l' =>
    cases same
    exact listed

theorem notify_leads (tethered : w.Tethered) {r : RegistryRef} {change : ObjectId} {c : Change}
    (registry : w.registryOf? c.owner = some r) (known : w.change? change = some c)
    (stable : ∀ {w₁ w₂}, w₁.Slips w.tracers.size w₂ → Q w₁ → Q w₂)
    (delivered : ∀ {w₁ live}, Notified ⟨c.owner, c.name⟩ w w₁ change live →
      Leads w₁ (fun self => deliver self change live) fun r w' => r = .ok () ∧ Q w') :
    Leads w (fun self => notify self r change) fun r w' => ∃ m, r = .ok m ∧ Q w' := by
  have observers : w.observersOf ⟨c.owner, c.name⟩ =
    ((w.registry r).slots.get? c.name).getD [] := by
    rw [World.observersOf, registry]
    rfl
  unfold notify
  refine Leads.read ?_
  simp only [known]
  refine Leads.read ?_
  cases found : (w.registry r).slots.get? c.name with
  | none =>
    have notified : Notified ⟨c.owner, c.name⟩ w w change [] :=
      { slips := .refl w
        change := ⟨c, known⟩
        sublist := List.nil_sublist _
        live := fun _ _ mem => by
          rw [observers, found] at mem
          cases mem
        tied := fun mem => absurd mem List.not_mem_nil
        held := .inl }
    refine Leads.congr (b := fun self => deliver self change [] >>= fun _ => pure 0)
      (fun _ => rfl) (Leads.seq ((delivered notified).mono ?_))
    rintro r w' ⟨rfl, here⟩
    exact ⟨(), rfl, Leads.pure ⟨0, rfl, here⟩⟩
  | some xs =>
    let live := w.liveObservers xs
    let w₁ := w.modifyRegistry r (·.prune c.name live.contains)
    have pruned : w.Slips w.tracers.size w₁ := ⟨slight_prune tethered found, rfl, rfl⟩
    refine Leads.read (Leads.update (Leads.log (Leads.seq
      ((holding_leads (r := .ok ()) _ stable fun {w₂} enter held => ?_).mono ?_))))
    · have slips : w.Slips w.tracers.size w₂ := (pruned.trans (.log w₁ rfl)).trans enter
      exact delivered {
        slips := slips
        change := ⟨c, slips.slight.grows.change? known⟩
        sublist := by
          rw [observers, found]
          exact List.filter_sublist
        live := fun engine held mem => by
          rw [observers, found] at mem
          exact List.mem_filter.2 ⟨mem, tethered engine held⟩
        tied := fun mem => held_or_linked_of_isLive (List.mem_filter.1 mem).2
        held := fun mem => by
          rw [held] at mem
          rcases List.mem_append.1 mem with new | old
          · rcases List.mem_cons.1 new with same | told
            · cases same
            · exact .inr (link_mem_of_handle told)
          · exact .inl old }
    · rintro r w' ⟨rfl, here⟩
      exact ⟨(), rfl, Leads.pure ⟨_, rfl, here⟩⟩

/-- Nothing is written back without a write handler. -/
theorem write_leads {e : EngineRef} {name : String}
    (none : ((w.engine e).bindings.get? name).bind Binding.write = none) (o change : ObjectId) :
    Leads w (fun self => Engine.write self e o name change) fun r w' =>
      r = .ok () ∧ w.Slips n w' := by
  unfold Engine.write
  refine Leads.read ?_
  by_cases guarded : (w.engine e).guards.contains name = true
  · simp only [guarded, if_true]
    exact Leads.of_eq (fun _ => rfl) ⟨rfl, .log w rfl⟩
  · simp only [guarded, none]
    exact Leads.of_eq (fun _ => rfl) ⟨rfl, .refl w⟩

/-- A write under guard is suppressed. -/
theorem suppressed_leads {e : EngineRef} {name : String} (up : name ∈ (w.engine e).guards)
    (o change : ObjectId) :
    Leads w (fun self => Engine.write self e o name change) fun r w' =>
      r = .ok () ∧ w.Slips n w' := by
  unfold Engine.write
  refine Leads.read ?_
  simp only [List.contains_iff_mem.2 up, if_true]
  exact Leads.of_eq (fun _ => rfl) ⟨rfl, .log w rfl⟩

/-- The observers are told first, and then the engine of the object, under the guards that there
were. -/
theorem dispatch_leads {Q' : World → Prop} {d : Dependency}
    (tethered : ∀ {w₁}, w.Slips w.tracers.size w₁ → w₁.Tethered) {x : Declared}
    (known : w.declared? d.object = some x) (kind : ChangeKind) (old new : Value)
    (stable : ∀ {w₁ w₂}, w₁.Slips w.tracers.size w₂ → Q w₁ → Q w₂)
    (stable' : ∀ {w₁ w₂}, w₁.Slips w.tracers.size w₂ → Q' w₁ → Q' w₂)
    (told : ∀ {w₁ live}, Notified d w w₁ ⟨w.objects.size⟩ live →
      Leads w₁ (fun self => deliver self ⟨w.objects.size⟩ live) fun r w' => r = .ok () ∧ Q w')
    (written : ∀ {w₁}, Q w₁ → w.SameGuards w₁ →
      w₁.change? ⟨w.objects.size⟩ = some ⟨kind, d.object, d.name, old, new⟩ →
        match w₁.engineOf? d.object with
        | none => Q' w₁
        | some e => Leads w₁ (fun self => Engine.write self e d.object d.name ⟨w.objects.size⟩)
            fun r w' => r = .ok () ∧ Q' w') :
    Leads w (fun self => dispatch self d.object kind d.name old new) fun r w' =>
      r = .ok () ∧ Q' w' := by
  let c : Change := ⟨kind, d.object, d.name, old, new⟩
  let change : ObjectId := ⟨w.objects.size⟩
  let w₁ := (w.addObject (.change c)).1
  let w₂ := {w₁ with held := [Handle.object d.object, .object change] ++ w₁.held}
  have enter : w.Slips w.tracers.size w₂ :=
    Slips.trans ⟨w.slight_addChange c, rfl, rfl⟩ (.progress w₁ w₁.limit _)
  have ease {l : LinkRef} : .link l ∈ w₂.held → .link l ∈ w.held :=
    (Eases.holding (n := 0) w₁ (.cons rfl (.cons rfl .nil))).held
  have registry : w₂.registryOf? c.owner = some x.registry := by
    rw [enter.slight.still.registryOf?]
    show (w.declared? d.object).map _ = _
    rw [known]
    rfl
  have there : w₂.change? change = some c := by
    have entity : w₂.entity? change = some (.change c) :=
      (w.entity?_addObject (.change c) change).trans (if_pos rfl)
    rw [World.change?, entity]
  have notified {w₃ : World} {live : List Observer}
      (notified : Notified ⟨c.owner, c.name⟩ w₂ w₃ change live) : Notified d w w₃ change live := by
    have observers : w₂.observersOf d = w.observersOf d := by
      rw [World.observersOf, World.observersOf, enter.slight.still.registryOf?]
      rfl
    exact {
      slips := enter.trans notified.slips
      change := notified.change
      sublist := observers ▸ notified.sublist
      live := fun {o e name l} engine held mem => by
        refine notified.live (o := o) ?_ held (observers.symm ▸ mem)
        rw [enter.slight.grows.engineOf?, engine]
      tied := fun mem => (notified.tied mem).imp_left ease
      held := fun mem => (notified.held mem).imp_left ease }
  unfold dispatch
  have looked : Action.read (·.registryOf? d.object) w₂ = some (.ok (some x.registry), w₂) :=
    congrArg (fun r => some (Except.ok r, w₂)) registry
  refine Leads.add (Leads.holding (Leads.after (fun _ => looked) ?_))
  have telling := notify_leads (tethered enter) registry there stable
    fun before => told (notified before)
  refine Leads.seq ((telling.keeps fun _ _ _ => Persists.of_notify).mono ?_)
  rintro r w₃ ⟨⟨m, rfl, here⟩, persists⟩
  refine ⟨m, rfl, Leads.read ?_⟩
  have leave (w' : World) : w'.Slips w.tracers.size {w' with held := w₁.held} :=
    .progress w' w'.limit _
  cases engine : w₃.engineOf? d.object with
  | none =>
    have last := written here persists.guards (persists.change? there)
    rw [engine] at last
    exact Leads.of_eq (fun _ => rfl) ⟨rfl, stable' (leave w₃) last⟩
  | some e =>
    let w₄ := {w₃ with held := [Handle.engine e] ++ w₃.held}
    have held : Q w₄ := stable (.progress w₃ w₃.limit _) here
    have last := written held persists.guards (persists.change? there)
    rw [show w₄.engineOf? d.object = some e from engine] at last
    refine Leads.holding (last.mono ?_)
    rintro r w₅ ⟨rfl, ends⟩
    exact ⟨rfl, stable' (.progress w₅ w₅.limit _) ends⟩

end World

namespace Network
variable {N : Network} {w w' : World} {P : Dependency → Prop} {x y a : Dependency}
  {e : EngineRef} {h : Handler} {n : Nat}

theorem Sound.watched (sound : N.Sound) : N.start.Watched := fun _ _ => sound.watchers

/-- Nobody writes back. -/
theorem write_leads (sound : N.Sound) (start : N.start.Extends w) {o : ObjectId}
    (engine : w.engineOf? o = some e) (name : String) (change : ObjectId) :
    Leads w (fun self => Engine.write self e o name change) fun r w' =>
      r = .ok () ∧ w.Slips n w' := by
  refine World.write_leads ?_ o change
  rw [start.bindings]
  rw [start.engineOf?] at engine
  cases binding : (N.start.engine e).bindings.get? name with
  | none => rfl
  | some b =>
    obtain ⟨f, key, rfl⟩ := sound.subscribes engine binding
    rfl

theorem dispatch_leads (sound : N.Sound) (start : N.start.Extends w) {d : Declared}
    (known : w.declared? a.object = some d) (kind : ChangeKind) (old new : Value)
    {Q : World → Prop} (stable : ∀ {w₁ w₂}, w₁.Slips w.tracers.size w₂ → Q w₁ → Q w₂)
    (grows : ∀ {w'}, Q w' → N.start.Extends w')
    (delivered : ∀ {w₁ change live}, World.Notified a w w₁ change live →
      Leads w₁ (fun self => deliver self change live) fun r w' => r = .ok () ∧ Q w') :
    Leads w (fun self => dispatch self a.object kind a.name old new) fun r w' =>
      r = .ok () ∧ Q w' := by
  refine World.dispatch_leads
    (fun slips => (sound.grounded.mono (start.trans slips.slight.grows)).tethered) known kind
    old new
    stable stable delivered fun {w₁} here _ _ => ?_
  cases engine : w₁.engineOf? a.object with
  | none => exact here
  | some e =>
    refine (write_leads (n := w.tracers.size) sound (grows here) engine a.name _).mono ?_
    rintro r w₂ ⟨rfl, slips⟩
    exact ⟨rfl, stable slips here⟩

end Network

end LiveBinding
