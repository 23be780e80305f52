import LiveBinding.Proofs.Reads

/-! Evaluating bound attributes.

A body reads its attributes one after the other. Those that are evaluated on the way have
lower ranks, so this comes to an end, and what the body consults keeps the values that the
body has seen. -/
namespace LiveBinding.Network
variable {N : Network} {w w' w₀ w₁ : World} {P : Dependency → Prop} {x d : Dependency}
  {e : EngineRef} {h : Handler} {k n : Nat}

/-! ### Running a body -/

/-- Values that attributes may have, and the ones they have if these are settled. -/
structure Suits (N : Network) (w : World) (σ : Dependency → Value) : Prop where
  fit : N.Fit w σ
  settled : ∀ d, N.start.Attribute d → (N.start.Bound d → (w.valueOf? d).isSome) →
    σ d = w.valuation d

theorem Inv.suits (sound : N.Sound) (inv : N.Inv w P) : ∃ σ, N.Suits w σ := by
  classical
  let σ (d : Dependency) : Value :=
    if waits : N.start.Bound d ∧ w.valueOf? d = none then (sound.inhabited waits.1).choose
    else w.valuation d
  refine ⟨σ, fun d is => ?_, fun d _ set => ?_⟩
  · by_cases waits : N.start.Bound d ∧ w.valueOf? d = none
    · have fits := (sound.inhabited waits.1).choose_spec
      rw [show σ d = _ from dif_pos waits]
      exact sound.fitsMono inv.grows fits
    · rw [show σ d = _ from dif_neg waits, World.valuation]
      cases value : w.valueOf? d with
      | some v => exact inv.fits is value
      | none =>
        have free : ¬ N.start.Bound d := fun bound => waits ⟨bound, value⟩
        exact sound.fitsMono inv.grows (sound.null is free (inv.unset free value))
  · refine dif_neg fun waits => ?_
    have some := set waits.1
    rw [waits.2] at some
    cases some

/-- Whatever values are still to come, the rest of a body of `x` comes to a program, and
reads what has a lower rank. -/
def Ready (N : Network) (x : Dependency) (c : Surroundings) (w : World) (b : Reading) : Prop :=
  ∀ ⦃w' σ⦄, N.Fills 0 (N.rank x) w w' → w'.Whole → N.Suits w' σ →
    ∃ p ds, b.consult w' c σ = some (p, ds) ∧
      (∀ d ∈ ds, N.start.Bound d → N.rank d < N.rank x) ∧ N.Makes x w' p

theorem ready_body (sound : N.Sound) (start : N.start.Extends w) {c : Surroundings}
    (found : N.start.surroundings? x = some c) : N.Ready x c w (N.body x) := by
  intro w' σ fills whole suits
  have grows := start.trans fills.grows
  obtain ⟨p, ds, consult, makes⟩ := sound.bodies grows whole suits.fit found
  refine ⟨p, ds, consult, fun d mem bound => ?_, makes⟩
  exact N.rank_lt sound.acyclic
    ⟨bound, w', σ, c, p, ds, grows, whole, suits.fit, found, consult, mem⟩

theorem Ready.next (sound : N.Sound) (start : N.start.Extends w) {c : Surroundings} {y : Declared}
    (here : w.declared? c.owner = some y) {q : Read} {next : Except BindError Value → Reading}
    (ready : N.Ready x c w (.ask q next)) {f : Found} (found : q.find w c = some f)
    (fills : N.Fills 0 (N.rank x) w w₁) (set : ∀ d, f = .stored d → N.start.Bound d →
      (w₁.valueOf? d).isSome) :
    N.Ready x c w₁ (next (f.answerIn w₁.valuation)) := by
  intro w' σ later whole suits
  have grounded := sound.grounded.mono start
  obtain ⟨p, ds, consult, lower, makes⟩ := ready (fills.trans later) whole suits
  have there := (fills.trans later).grows.find grounded here found
  unfold Reading.consult at consult
  rw [there] at consult
  obtain ⟨⟨p', ds'⟩, inner, same⟩ := Option.map_eq_some_iff.1 consult
  cases same
  have answer : f.answerIn σ = f.answerIn w₁.valuation := by
    cases f with
    | answer r recorded => rfl
    | stored d =>
      have is : N.start.Attribute d :=
        start.attribute.1 (Read.attribute_of_find grounded here found)
      have value := later.valueOf? (set d rfl)
      show Except.ok (σ d) = .ok (w₁.valuation d)
      rw [suits.settled d is fun bound => later.isSome (set d rfl bound), World.valuation, value]
      rfl
  rw [answer] at inner
  exact ⟨p', ds', inner, fun d mem => lower d (List.mem_append_right _ mem), makes⟩

/-- A body has run: it consulted attributes in the order it reads them, they are on record,
and a value was made. -/
structure Ran (N : Network) (x : Dependency) (c : Surroundings) (t : TracerRef)
    (P : Dependency → Prop) (b : Reading) (w : World) (u : Value) (ds : List Dependency)
    (w' : World) : Prop where
  advances : N.Advances t.index (N.rank x) P w w'
  comes : ∃ p, b.consult w' c w'.valuation = some (p, ds) ∧ N.Made x p u w w'
  fits : N.fits w' x u
  stored : ∀ d ∈ ds, N.start.Bound d → (w'.valueOf? d).isSome
  lower : ∀ d ∈ ds, N.start.Bound d → N.rank d < N.rank x
  recorded : ∀ d, d ∈ (w'.tracer t).dependencies ↔ d ∈ (w.tracer t).dependencies ∨ d ∈ ds
  calm : N.Evaluated w → w.Slips t.index w'

theorem Ran.ask (sound : N.Sound) (inv : N.Inv w P) {c : Surroundings} {t : TracerRef}
    {y : Declared} (here : w.declared? c.owner = some y) {q : Read}
    {next : Except BindError Value → Reading} {f : Found} (found : q.find w c = some f)
    {r : Except BindError Value} (finds : N.Finds (N.rank x) t P f w r w₁)
    (lower : ∀ d, f.recorded = some d → N.start.Bound d → N.rank d < N.rank x) {u : Value}
    {ds : List Dependency} (ran : N.Ran x c t P (next r) w₁ u ds w') :
    N.Ran x c t P (.ask q next) w u (f.recorded.toList ++ ds) w' where
  advances := finds.advances.trans ran.advances
  comes := by
    obtain ⟨p, consult, w₂, w₃, since, made⟩ := ran.comes
    have fills := finds.advances.fills.trans ran.advances.fills
    have there := fills.grows.find (sound.grounded.mono inv.grows) here found
    refine ⟨p, ?_, w₂, w₃, finds.advances.fills.grows.trans since, made⟩
    have answer : f.answerIn w'.valuation = r := by
      rw [finds.answer]
      cases f with
      | answer r recorded => rfl
      | stored d =>
        show Except.ok (w'.valuation d) = .ok (w₁.valuation d)
        rw [World.valuation, ran.advances.fills.valueOf? (finds.set d rfl)]
        rfl
    unfold Reading.consult
    rw [there]
    dsimp only
    rw [answer, consult]
    rfl
  fits := ran.fits
  stored d mem bound := by
    rcases List.mem_append.1 mem with first | later
    · have stored := stored_of_recorded sound inv.grows found (Option.mem_toList.1 first) bound
      exact ran.advances.fills.isSome (finds.set d stored bound)
    · exact ran.stored d later bound
  lower d mem bound := by
    rcases List.mem_append.1 mem with first | later
    · exact lower d (Option.mem_toList.1 first) bound
    · exact ran.lower d later bound
  recorded d := by
    rw [ran.recorded, finds.recorded, List.mem_append, Option.mem_toList, or_assoc]
  calm evaluated := (finds.calm evaluated).trans
    (ran.calm (evaluated.mono finds.advances.fills.isSome))

theorem Ran.look {c : Surroundings} {t : TracerRef} {b b' : Reading} {u : Value}
    {ds : List Dependency} (ran : N.Ran x c t P b w u ds w')
    (same : ∀ σ, w.Extends w' → b'.consult w' c σ = b.consult w' c σ) :
    N.Ran x c t P b' w u ds w' where
  advances := ran.advances
  comes := by
    rw [same _ ran.advances.fills.grows]
    exact ran.comes
  fits := ran.fits
  stored := ran.stored
  lower := ran.lower
  recorded := ran.recorded
  calm := ran.calm

theorem body_leads (sound : N.Sound) (evaluable : N.Evaluable (N.rank x)) {c : Surroundings}
    {s : Scope} {t : TracerRef} (b : Reading) (ready : N.Ready x c w b) (inv : N.Inv w P)
    (inside : Inside w c s t) {y : Declared} (here : w.declared? c.owner = some y)
    (room : N.Roomy (N.room + 1) (N.rank x) w) :
    Leads w (fun self => (b.program s t).run self) fun r w' =>
      ∃ u ds, r = .ok u ∧ N.Ran x c t P b w u ds w' := by
  induction b generalizing w y with
  | give p =>
    obtain ⟨σ, suits⟩ := inv.suits sound
    obtain ⟨p', ds, consult, _, makes⟩ := ready (.of_slight (.refl w)) inv.whole suits
    cases consult
    obtain ⟨r, w', ends, u, rfl, grown, whole, fits⟩ := makes.runs (.refl w) inv.whole
    have slight : w.Slight t.index w' := grown.slight whole
    obtain ⟨_, _, rest⟩ := grown.rest
    refine ends.leads ⟨u, [], rfl, ?_⟩
    exact {
      advances := .of_slight sound inv slight (by rw [rest])
      comes := ⟨p, rfl, w, w', .refl w, makes, inv.whole, ends, .refl w'⟩
      fits := fits
      stored := nofun
      lower := nofun
      recorded := fun d => by
        have same : w'.tracer t = w.tracer t := by
          rw [rest]
          rfl
        rw [same]
        simp
      calm := fun _ => ⟨slight, by rw [rest], by rw [rest]; rfl⟩ }
  | ask q next ih =>
    obtain ⟨σ, suits⟩ := inv.suits sound
    obtain ⟨p, ds, consult, lower, _⟩ := ready (.of_slight (.refl w)) inv.whole suits
    cases found : q.find w c with
    | none =>
      unfold Reading.consult at consult
      rw [found] at consult
      cases consult
    | some f =>
      have below (d : Dependency) (recorded : f.recorded = some d) (bound : N.start.Bound d) :
          N.rank d < N.rank x := by
        unfold Reading.consult at consult
        rw [found] at consult
        obtain ⟨_, _, same⟩ := Option.map_eq_some_iff.1 consult
        cases same
        exact lower d (List.mem_append_left _ (Option.mem_toList.2 recorded)) bound
      have read := read_leads sound evaluable inv inside here found
        (fun d same => below d (by rw [same]; rfl)) room
      refine Leads.ask (read.mono fun r w₁ finds => ?_)
      have rest := ready.next sound inv.grows here found
        (finds.advances.fills.mono (Nat.zero_le _) (Nat.le_refl _)) finds.set
      rw [← finds.answer] at rest
      obtain ⟨y', there, _⟩ := finds.advances.fills.grows.declared here
      refine (ih r rest finds.advances.inv (inside.mono finds.advances.fills.grows
        finds.advances.fills.more) there (room.advance finds.advances)).mono ?_
      rintro r' w' ⟨u, ds', rfl, ran⟩
      exact ⟨u, _, rfl, ran.ask sound inv here found finds below⟩
  | items l next ih =>
    obtain ⟨σ, suits⟩ := inv.suits sound
    obtain ⟨p, ds, consult, _, _⟩ := ready (.of_slight (.refl w)) inv.whole suits
    cases found : w.lists[l.index]? with
    | none =>
      unfold Reading.consult at consult
      rw [found] at consult
      cases consult
    | some xs =>
      have same (w' : World) (σ : Dependency → Value) (grows : w.Extends w') :
          (Reading.items l next).consult w' c σ = (next xs).consult w' c σ := by
        rw [Reading.consult, grows.lists found]
      have rest : N.Ready x c w (next xs) := fun _ _ fills whole suits => by
        rw [← same _ _ fills.grows]
        exact ready fills whole suits
      have items : w.items l = xs := by
        rw [World.items, found]
        rfl
      simp only [Reading.program]
      refine Leads.query ?_
      show Leads w (fun self => ((next (w.items l)).program s t).run self) _
      rw [items]
      refine (ih xs rest inv inside here room).mono ?_
      rintro r w' ⟨u, ds', rfl, ran⟩
      exact ⟨u, ds', rfl, ran.look fun σ grows => same w' σ grows⟩
  | entries m next ih =>
    obtain ⟨σ, suits⟩ := inv.suits sound
    obtain ⟨p, ds, consult, _, _⟩ := ready (.of_slight (.refl w)) inv.whole suits
    cases found : w.maps[m.index]? with
    | none =>
      unfold Reading.consult at consult
      rw [found] at consult
      cases consult
    | some es =>
      have same (w' : World) (σ : Dependency → Value) (grows : w.Extends w') :
          (Reading.entries m next).consult w' c σ = (next es).consult w' c σ := by
        rw [Reading.consult, grows.maps found]
      have rest : N.Ready x c w (next es) := fun _ _ fills whole suits => by
        rw [← same _ _ fills.grows]
        exact ready fills whole suits
      have entries : w.entries m = es := by
        rw [World.entries, found]
        rfl
      simp only [Reading.program]
      refine Leads.query ?_
      show Leads w (fun self => ((next (w.entries m)).program s t).run self) _
      rw [entries]
      refine (ih es rest inv inside here room).mono ?_
      rintro r w' ⟨u, ds', rfl, ran⟩
      exact ⟨u, ds', rfl, ran.look fun σ grows => same w' σ grows⟩

/-! ### Reading a handler -/

theorem functions_of_handlerOf (sound : N.Sound) (start : N.start.Extends w)
    (handler : N.start.handlerOf? x = some (e, h)) :
    (∀ s t, s.owner = x.object → w.code h.function s (.traced t) = (N.body x).program s t) ∧
      w.functionEnvironment h.function = N.start.functionEnvironment h.function := by
  obtain ⟨g, found, code⟩ := sound.code handler
  constructor
  · intro s t owner
    rw [World.code, start.functions found]
    exact code s t owner
  · rw [World.functionEnvironment, World.functionEnvironment, start.functions found, found]

theorem kind_of_handlerOf (sound : N.Sound) (handler : N.start.handlerOf? x = some (e, h)) :
    h.kind = .tracedRead := by
  obtain ⟨engine, reader⟩ := World.handlerOf?_eq_some.1 handler
  obtain ⟨b, binding, read⟩ := Option.bind_eq_some_iff.1 reader
  obtain ⟨f, key, rfl⟩ := sound.subscribes engine binding
  cases read
  rfl

/-- The body of a bound attribute has been evaluated, and its tracer has gained what was
consulted. -/
structure Evaluates (N : Network) (x : Dependency) (t : TracerRef) (P : Dependency → Prop)
    (w : World) (u : Value) (ds : List Dependency) (w' : World) : Prop where
  advances : N.Advances t.index (N.rank x) P w w'
  yields : N.Yields w w' x u ds
  fits : N.fits w' x u
  recorded : ∀ d, d ∈ (w'.tracer t).dependencies ↔ d ∈ (w.tracer t).dependencies ∨ d ∈ ds
  /-- No other body has been called if everything has a value. -/
  calm : N.Evaluated w → w.Slight t.index w' ∧
    w'.calls = w.calls ++ [x].filterMap N.start.bodyCall?

/-- What slips by before and after does not count. -/
theorem Evaluates.between (sound : N.Sound) {t : TracerRef} {u : Value} {ds : List Dependency}
    {w₂ : World} (enter : w.Slips t.index w₁)
    (same : (w₁.tracer t).dependencies = (w.tracer t).dependencies)
    (evaluates : N.Evaluates x t P w₁ u ds w₂) (leave : w₂.Slips (t.index + 1) w') :
    N.Evaluates x t P w u ds w' where
  advances :=
    { fills := ((Fills.of_slight enter.slight).trans evaluates.advances.fills).trans
        (.of_slight (leave.slight.mono (Nat.le_succ _)))
      inv := evaluates.advances.inv.slight sound leave.slight
      depth := (leave.depth.trans evaluates.advances.depth).trans enter.depth }
  yields := by
    have started := evaluates.advances.inv.grows
    exact (evaluates.yields.keep sound started leave.slight.grows fun d _ =>
      leave.slight.valueOf? d).since enter.slight.grows
  fits := sound.fitsMono leave.slight.grows evaluates.fits
  recorded d := by
    rw [leave.slight.tracers t (Nat.lt_succ_self _), evaluates.recorded, same]
  calm evaluated := by
    have entered : N.Evaluated w₁ := evaluated.mono fun set => (enter.slight.valueOf? _).symm ▸ set
    obtain ⟨slight, calls⟩ := evaluates.calm entered
    refine ⟨(enter.slight.trans slight).trans (leave.slight.mono (Nat.le_succ _)), ?_⟩
    rw [leave.calls, calls, enter.calls]

theorem callFunction_leads (sound : N.Sound) (evaluable : N.Evaluable (N.rank x))
    (inv : N.Inv w P) (handler : N.start.handlerOf? x = some (e, h)) {c : Surroundings}
    (found : N.start.surroundings? x = some c) {s : Scope} {t : TracerRef}
    (inside : Inside w c s t) {limit : Nat} (given : w.limit = some limit)
    (enough : N.room < limit) (room : N.Roomy N.room (N.rank x) w) :
    Leads w (fun self => callFunction self h.function (.traced t) s) fun r w' =>
      ∃ u ds, r = .ok u ∧ N.Evaluates x t P w u ds w' := by
  obtain ⟨j, deep, unset⟩ := room
  refine LiveBinding.callFunction_leads given (by omega) ?_
  let w₂ := w.calling h.function (.traced t) s
  have enter : w.Slight (t.index + 1) w₂ := w.slight_calling h.function _ s
  obtain ⟨owner, y, known⟩ := owner_of_surroundings found
  obtain ⟨y', there, _⟩ := (inv.grows.trans enter.grows).declared known
  obtain ⟨g, code', _⟩ := sound.code handler
  have count : (Arguments.traced t).count = if h.kind = .tracedRead then 1 else 0 :=
    (if_pos (kind_of_handlerOf sound handler)).symm
  have code := (functions_of_handlerOf sound (inv.grows.trans enter.grows) handler).1
  refine Leads.congr (b := fun self => ((N.body x).program s t).run self) (fun self => ?_) ?_
  · show (w₂.code h.function s (.traced t)).run self w₂ = _
    rw [code s t (inside.owner.trans owner)]
  refine (body_leads sound evaluable (N.body x)
    (ready_body sound (inv.grows.trans enter.grows) found)
    (inv.slight sound enter) (inside.mono enter.grows enter.more) there ⟨j, ?_, unset⟩).mono ?_
  · show w.depth + 1 + _ ≤ _
    omega
  rintro r w' ⟨u, ds, rfl, ran⟩
  have leave := w'.slight_progress (t.index + 1) (w'.depth - 1) w'.limit w.held
  have yields : N.Yields w₂ w' x u ds := {
    comes := by
      obtain ⟨p, consult, made⟩ := ran.comes
      exact ⟨c, p, found, consult, made⟩
    stored := ran.stored
    lower := ran.lower }
  refine ⟨u, ds, rfl, ?_⟩
  exact {
    advances :=
      { fills := ((Fills.of_slight (enter.mono (Nat.le_succ _))).trans ran.advances.fills).trans
          (.of_slight (leave.mono (Nat.le_succ _)))
        inv := ran.advances.inv.slight sound leave
        depth := by
          show w'.depth - 1 = w.depth
          rw [ran.advances.depth]
          rfl }
    yields := (yields.keep sound ran.advances.inv.grows leave.grows fun _ _ => rfl).since
      enter.grows
    fits := sound.fitsMono leave.grows ran.fits
    recorded := ran.recorded
    calm := fun evaluated => by
      have slips := ran.calm evaluated
      refine ⟨((enter.mono (Nat.le_succ _)).trans slips.slight).trans
        (leave.mono (Nat.le_succ _)), ?_⟩
      rw [← World.calls_calling inv.grows handler code' (inside.owner.trans owner) count]
      exact slips.calls }

theorem readTraced_leads (sound : N.Sound) (evaluable : N.Evaluable (N.rank x))
    (inv : N.Inv w P) (handler : N.start.handlerOf? x = some (e, h)) {limit : Nat}
    (given : w.limit = some limit) (enough : N.room < limit)
    (room : N.Roomy N.room (N.rank x) w) :
    Leads w (fun self => h.readTraced self x.object x.name) fun r w' =>
      ∃ u, r = .ok (u, ⟨w.tracers.size⟩) ∧ ∃ ds, N.Evaluates x ⟨w.tracers.size⟩ P w u ds w' := by
  obtain ⟨c, found⟩ := sound.surroundings ⟨e, h, handler⟩
  obtain ⟨g, code, _⟩ := sound.code handler
  refine Handler.readTraced_leads inv.grows (kind_of_handlerOf sound handler) code
    ((World.surroundings?_of_handlerOf handler).symm.trans found) fun {w₁ s} opened => ?_
  have enter := opened.slips
  have room₁ : N.Roomy N.room (N.rank x) w₁ :=
    room.mono (fun set => (enter.slight.valueOf? _).symm ▸ set) enter.depth (Nat.le_refl _)
  refine (callFunction_leads sound evaluable (inv.slight sound enter.slight) handler found
    opened.inside (opened.limit.trans given) enough room₁).mono ?_
  rintro r w' ⟨u, ds, rfl, evaluates⟩
  refine ⟨u, rfl, ds, evaluates.between sound enter ?_ (.progress w' w'.limit w.held)⟩
  rw [opened.blank, w.dependencies_next]

end LiveBinding.Network
