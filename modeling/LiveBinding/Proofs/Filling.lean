import LiveBinding.Proofs.Scheme

/-! Filling a network with first values.

While bodies are evaluated for the first time, attributes gain values and lose none. Whatever an
attribute has gained means what the scheme says, and the bodies that have been called are those of
the attributes that have gained a value, one call each. -/
namespace LiveBinding

namespace World
variable {w w' : World}

theorem Extends.has (grows : w.Extends w') {o : ObjectId} (there : w.has o = true) :
    w'.has o = true := by
  rw [← entity?_isSome] at there ⊢
  obtain ⟨x, here⟩ := Option.isSome_iff_exists.1 there
  cases x with
  | declared d =>
    obtain ⟨d', known, _⟩ := grows.declared ((w.declared?_eq_some).2 here)
    rw [(w'.declared?_eq_some).1 known]
    rfl
  | change c =>
    rw [grows.entity here rfl]
    rfl
  | view o t =>
    rw [grows.entity here rfl]
    rfl

end World

namespace Scheme
variable {M : Dependency → Type} (S : Scheme M)

/-! ### What is in order -/

/-- The latest evaluation of a traced attribute has recorded what the scheme says. -/
def Noted (w : World) (e : EngineRef) (x : Dependency) : Prop :=
  ∃ v, (w.engine e).latest x.name = some v ∧ v.owner = x.object ∧
    ∀ d, S.start.has d.object = true → (d ∈ v.consulted ↔ d ∈ S.records x S.meaning)

structure Inv (w : World) : Prop where
  grows : S.start.Extends w
  tracers : S.start.tracers.size ≤ w.tracers.size
  ledger : w.Ledger
  linked : ∀ {d r l}, S.start.Bound d → w.registryOf? d.object = some r →
    0 < (w.registry r).appearances d.name (.link l) → (w.valueOf? d).isSome
  free : ∀ {d}, ¬ S.start.Bound d → w.valueOf? d = S.start.valueOf? d
  means : ∀ {x v}, S.start.Bound x → w.valueOf? x = some v → S.means w x v (S.meaning x)
  noted : ∀ {x e h}, S.start.handlerOf? x = some (e, h) → h.kind = .tracedRead →
    (w.valueOf? x).isSome → S.Noted w e x

/-- These are the bound attributes that have gained a value, each listed once. -/
def Gained (w w' : World) (xs : List Dependency) : Prop :=
  xs.Nodup ∧ ∀ x, x ∈ xs ↔ S.start.Bound x ∧ w.valueOf? x = none ∧ (w'.valueOf? x).isSome

/-- Bound attributes below rank `k` have gained values. The bodies in `zs` are called first, and
then those of what has gained a value. Tracers of evaluations are as they were, up to `n`. -/
structure Advances (n k : Nat) (zs : List Dependency) (w w' : World) : Prop where
  inv : S.Inv w'
  grows : w.Extends w'
  stored : ∀ {d v}, w.valueOf? d = some v → w'.valueOf? d = some v
  kept : ∀ {d}, (S.start.Bound d → k ≤ S.rank d) → w'.valueOf? d = w.valueOf? d
  tracers : ∀ t : TracerRef, S.start.tracers.size ≤ t.index → t.index < n →
    w'.tracer t = w.tracer t
  more : w.tracers.size ≤ w'.tracers.size
  depth : w'.depth = w.depth
  called : ∃ xs, S.Gained w w' xs ∧
    w'.calls = w.calls ++ (zs ++ xs).filterMap S.start.bodyCall?

/-- Bound attributes below a rank get their first values when they are updated. -/
def Evaluable (k : Nat) : Prop :=
  ∀ ⦃y e h w⦄, S.start.handlerOf? y = some (e, h) → S.rank y < k → S.Inv w →
    w.valueOf? y = none → w.depth + S.rank y < S.start.sites.length →
    Leads w (fun self => Engine.update self e y.object y.name) fun r w' =>
      r = .ok () ∧ S.Advances w.tracers.size k [] w w' ∧ (w'.valueOf? y).isSome

variable {S} {w w' w₁ w₂ : World} {n k : Nat} {zs : List Dependency} {x d : Dependency}

theorem Inv.slight (sound : S.Sound) (inv : S.Inv w) (slight : w.Slight n w') : S.Inv w' where
  grows := inv.grows.trans slight.grows
  tracers := Nat.le_trans inv.tracers slight.more
  ledger := slight.still.ledger inv.ledger
  linked bound found some := by
    rw [slight.still.registryOf?] at found
    rw [slight.still.appearances] at some
    rw [slight.valueOf?]
    exact inv.linked bound found some
  free not := (slight.valueOf? _).trans (inv.free not)
  means bound here := by
    rw [slight.valueOf?] at here
    exact sound.mono slight.grows (inv.means bound here)
  noted handler kind set := by
    rw [slight.valueOf?] at set
    obtain ⟨v, latest, rest⟩ := inv.noted handler kind set
    exact ⟨v, (slight.still.latest _ _).trans latest, rest⟩

/-- In the beginning bound attributes have no values. -/
theorem Sound.inv (sound : S.Sound) : S.Inv S.start where
  grows := .refl _
  tracers := Nat.le_refl _
  ledger := (World.idle_of_reachable sound.reachable).ledger
  linked bound found some := by
    rw [sound.unlinked bound found] at some
    cases some
  free _ := rfl
  means bound here := by
    rw [sound.unset bound] at here
    cases here
  noted handler _ set := by
    rw [sound.unset ⟨_, _, handler⟩] at set
    cases set

/-- An attribute that does not wait for its first value has its meaning. -/
theorem Inv.means_valuation (sound : S.Sound) (inv : S.Inv w) (is : S.start.Attribute d)
    (set : S.start.Bound d → (w.valueOf? d).isSome) :
    S.means w d (w.valuation d) (S.meaning d) := by
  by_cases bound : S.start.Bound d
  · obtain ⟨v, here⟩ := Option.isSome_iff_exists.1 (set bound)
    rw [World.valuation, here]
    exact inv.means bound here
  · rw [meaning_of_free bound, World.valuation, inv.free bound]
    exact sound.mono inv.grows (sound.free is bound)

/-! ### Going on -/

namespace Gained

theorem nil (same : ∀ d, w'.valueOf? d = w.valueOf? d) : S.Gained w w' [] := by
  refine ⟨List.nodup_nil, fun x => ⟨nofun, fun ⟨_, unset, set⟩ => ?_⟩⟩
  rw [same, unset] at set
  cases set

theorem append {xs ys : List Dependency} (first : S.Gained w w₁ xs) (next : S.Gained w₁ w' ys)
    (stored : ∀ {d v}, w.valueOf? d = some v → w₁.valueOf? d = some v)
    (stored' : ∀ {d v}, w₁.valueOf? d = some v → w'.valueOf? d = some v) :
    S.Gained w w' (xs ++ ys) := by
  constructor
  · refine List.nodup_append.2 ⟨first.1, next.1, fun x here y there same => ?_⟩
    subst same
    have set := ((first.2 x).1 here).2.2
    rw [((next.2 x).1 there).2.1] at set
    cases set
  · intro x
    rw [List.mem_append, first.2, next.2]
    constructor
    · rintro (⟨bound, unset, set⟩ | ⟨bound, unset, set⟩)
      · obtain ⟨v, here⟩ := Option.isSome_iff_exists.1 set
        refine ⟨bound, unset, ?_⟩
        rw [stored' here]
        rfl
      · refine ⟨bound, ?_, set⟩
        cases before : w.valueOf? x with
        | none => rfl
        | some v =>
          rw [stored before] at unset
          cases unset
    · rintro ⟨bound, unset, set⟩
      cases between : w₁.valueOf? x with
      | none => exact .inr ⟨bound, rfl, set⟩
      | some v => exact .inl ⟨bound, unset, rfl⟩

end Gained

namespace Advances

theorem of_slips (sound : S.Sound) (inv : S.Inv w) (slips : w.Slips n w') :
    S.Advances n k [] w w' where
  inv := inv.slight sound slips.slight
  grows := slips.slight.grows
  stored here := (slips.slight.valueOf? _).trans here
  kept _ := slips.slight.valueOf? _
  tracers t _ old := slips.slight.tracers t old
  more := slips.slight.more
  depth := slips.depth
  called := ⟨[], .nil slips.slight.valueOf?, slips.calls.trans (List.append_nil _).symm⟩

theorem refl (sound : S.Sound) (inv : S.Inv w) : S.Advances n k [] w w :=
  .of_slips sound inv (.refl w)

theorem trans (first : S.Advances n k zs w w₁) (next : S.Advances n k [] w₁ w') :
    S.Advances n k zs w w' where
  inv := next.inv
  grows := first.grows.trans next.grows
  stored here := next.stored (first.stored here)
  kept out := (next.kept out).trans (first.kept out)
  tracers t new old := (next.tracers t new old).trans (first.tracers t new old)
  more := Nat.le_trans first.more next.more
  depth := next.depth.trans first.depth
  called := by
    obtain ⟨xs, gained, calls⟩ := first.called
    obtain ⟨ys, gained', calls'⟩ := next.called
    refine ⟨xs ++ ys, gained.append gained' first.stored next.stored, ?_⟩
    rw [calls', calls, List.append_assoc, ← List.filterMap_append, List.nil_append,
      List.append_assoc]

theorem mono {m j : Nat} (advances : S.Advances n k zs w w') (fewer : m ≤ n) (higher : k ≤ j) :
    S.Advances m j zs w w' :=
  { advances with
    kept := fun out => advances.kept fun bound => Nat.le_trans higher (out bound)
    tracers := fun t new old => advances.tracers t new (Nat.lt_of_lt_of_le old fewer) }

theorem isSome (advances : S.Advances n k zs w w') (set : (w.valueOf? d).isSome) :
    (w'.valueOf? d).isSome := by
  obtain ⟨v, here⟩ := Option.isSome_iff_exists.1 set
  rw [advances.stored here]
  rfl

end Advances

/-- What slips by before does not count. -/
theorem Advances.after (slips : w.Slips n w₁) (advances : S.Advances n k zs w₁ w') :
    S.Advances n k zs w w' where
  inv := advances.inv
  grows := slips.slight.grows.trans advances.grows
  stored here := advances.stored ((slips.slight.valueOf? _).trans here)
  kept out := (advances.kept out).trans (slips.slight.valueOf? _)
  tracers t new old := (advances.tracers t new old).trans (slips.slight.tracers t old)
  more := Nat.le_trans slips.slight.more advances.more
  depth := advances.depth.trans slips.depth
  called := by
    obtain ⟨xs, ⟨nodup, gained⟩, calls⟩ := advances.called
    refine ⟨xs, ⟨nodup, fun x => ?_⟩, ?_⟩
    · rw [gained, slips.slight.valueOf?]
    · rw [calls, slips.calls]

/-- A record in the tracer of an evaluation does not count, if that is not older than `n`; nor
does one in a tracer from before. -/
theorem Advances.record (sound : S.Sound) (inv : S.Inv w) {t : TracerRef}
    (place : n ≤ t.index ∨ t.index < S.start.tracers.size) (d : Dependency) :
    S.Advances n k [] w (w.modifyTracer t (·.record d)) where
  inv := inv.slight sound (w.slight_record t d)
  grows := (w.slight_record t d).grows
  stored here := here
  kept _ := rfl
  tracers u new old := by
    rw [World.tracer_modifyTracer, if_neg]
    rintro ⟨rfl, _⟩
    omega
  more := (w.slight_record t d).more
  depth := rfl
  called := ⟨[], .nil fun _ => rfl, (List.append_nil _).symm⟩

/-! ### Reading an attribute -/

/-- Reading an attribute gives something that has its meaning. -/
theorem readAttr_leads (sound : S.Sound) (ready : S.Evaluable k) (inv : S.Inv w)
    (is : S.start.Attribute d) (lower : S.start.Bound d → S.rank d < k)
    (room : w.depth + k ≤ S.start.sites.length) :
    Leads w (fun self => readAttr self d.object d.name) fun r w' =>
      ∃ v, r = .ok (some v) ∧ S.means w' d v (S.meaning d) ∧
        S.Advances w.tracers.size k [] w w' ∧ (S.start.Bound d → (w'.valueOf? d).isSome) := by
  have is' := inv.grows.attribute.2 is
  cases value : w.valueOf? d with
  | some v =>
    have set : (w.valueOf? d).isSome := by
      rw [value]
      rfl
    have means := inv.means_valuation sound is fun _ => set
    rw [World.valuation, value] at means
    exact Leads.of_eq (World.readAttr_stored value) ⟨v, rfl, means, .refl sound inv, fun _ => set⟩
  | none =>
    by_cases bound : S.start.Bound d
    · obtain ⟨e, h, handler⟩ := bound
      have bound : S.start.Bound d := ⟨e, h, handler⟩
      have below := lower bound
      have deep : w.depth + S.rank d < S.start.sites.length := by omega
      have enter : w.Slips w.tracers.size {w with held := [Handle.object d.object] ++ w.held} :=
        .progress w w.limit _
      refine (World.readAttr_bound (Q := fun w' => S.Advances w.tracers.size k [] w w' ∧
        (w'.valueOf? d).isSome) is' value ((inv.grows.handlerOf? d).trans handler)
          ((ready handler below (inv.slight sound enter.slight) value deep).mono ?_)).mono ?_
      · rintro r w₁ ⟨rfl, advances, set⟩
        have leave : w₁.Slips w.tracers.size {w₁ with held := w.held} := .progress w₁ w₁.limit _
        exact ⟨rfl, (advances.after enter).trans (.of_slips sound advances.inv leave), set⟩
      · rintro r w' ⟨rfl, advances, set⟩
        exact ⟨_, rfl, advances.inv.means_valuation sound is fun _ => set, advances, fun _ => set⟩
    · have unbound : w.handlerOf? d = none := by
        rw [inv.grows.handlerOf?, Option.eq_none_iff_forall_ne_some]
        exact fun handler found => bound ⟨_, _, found⟩
      have means := inv.means_valuation sound is fun is => absurd is bound
      rw [World.valuation, value] at means
      exact Leads.of_eq (World.readAttr_free is' value unbound)
        ⟨.null, rfl, means, .refl sound inv, fun is => absurd is bound⟩

/-! ### Parts of a body -/

/-- The tracer of a scope is there, but not older than `n` nor from before. -/
structure Recent (S : Scheme M) (s : Scope) (n : Nat) (w : World) : Prop where
  old : n ≤ w.tracers.size
  tracer : ∀ t, s.tracer = some t →
    S.start.tracers.size ≤ t.index ∧ n ≤ t.index ∧ t.index < w.tracers.size

theorem Recent.below {s : Scope} (recent : S.Recent s n w) : n ≤ s.below w := by
  unfold Scope.below
  cases tracer : s.tracer with
  | none => exact recent.old
  | some t => exact (recent.tracer t tracer).2.1

theorem Recent.mono {s : Scope} (recent : S.Recent s n w)
    (more : w.tracers.size ≤ w'.tracers.size) : S.Recent s n w' where
  old := Nat.le_trans recent.old more
  tracer t same := by
    obtain ⟨new, young, there⟩ := recent.tracer t same
    exact ⟨new, young, Nat.lt_of_lt_of_le there more⟩

/-- A part of a body has been evaluated: what it has read or recorded is filled. -/
structure Ran (S : Scheme M) (s : Scope) (n k : Nat) (rs ds : List Dependency) (w w' : World) :
    Prop where
  advances : S.Advances n k [] w w'
  recorded : S.Recorded s ds w w'
  set : ∀ d, d ∈ rs ∨ d ∈ ds → S.start.Bound d → (w'.valueOf? d).isSome

namespace Recorded
variable {s : Scope} {ds ds' : List Dependency}

theorem of_same (same : ∀ t, s.tracer = some t → w'.tracer t = w.tracer t) :
    S.Recorded s [] w w' := by
  intro t tracer d _
  rw [same t tracer]
  simp

theorem trans (first : S.Recorded s ds w w₁) (next : S.Recorded s ds' w₁ w') :
    S.Recorded s (ds ++ ds') w w' := by
  intro t tracer d there
  rw [next t tracer d there, first t tracer d there, List.mem_append, or_assoc]

theorem record {t : TracerRef} (recorded : S.Recorded s ds w w') (tracer : s.tracer = some t)
    (running : t.index < w'.tracers.size) (d : Dependency) :
    S.Recorded s (ds ++ [d]) w (w'.modifyTracer t (·.record d)) := by
  intro u same d' there
  cases tracer.symm.trans same
  rw [World.mem_dependencies_record running, recorded t tracer d' there, List.mem_append,
    List.mem_singleton, or_assoc]

theorem old {es : List Dependency} (recorded : S.Recorded s (ds ++ es) w w') :
    S.Recorded s (ds ++ S.old es) w w' := by
  intro t tracer d there
  rw [recorded t tracer d there, List.mem_append, List.mem_append, Scheme.old, List.mem_filter]
  simp [there]

end Recorded

namespace Ran
variable {s : Scope} {rs rs' ds ds' : List Dependency}

theorem trans (first : S.Ran s n k rs ds w w₁) (next : S.Ran s n k rs' ds' w₁ w') :
    S.Ran s n k (rs ++ rs') (ds ++ ds') w w' where
  advances := first.advances.trans next.advances
  recorded := first.recorded.trans next.recorded
  set d mem bound := by
    rw [List.mem_append, List.mem_append, or_or_or_comm] at mem
    rcases mem with here | there
    · exact next.advances.isSome (first.set d here bound)
    · exact next.set d there bound

theorem of_notes (sound : S.Sound) (inv : S.Inv w) (recent : S.Recent s n w)
    (notes : S.Notes s ds w w') (free : ∀ d ∈ ds, ¬ S.start.Bound d) :
    S.Ran s n k [] ds w w' where
  advances := .of_slips sound inv (notes.slips.mono recent.below)
  recorded := notes.recorded
  set d mem bound := by
    rcases mem with here | there
    · cases here
    · exact absurd bound (free d there)

theorem hold (sound : S.Sound) {held : List Handle}
    (ran : S.Ran s n k rs ds {w with held := held} w') :
    S.Ran s n k rs ds w {w' with held := w.held} where
  advances := (ran.advances.after (.progress w w.limit held)).trans
    (.of_slips sound ran.advances.inv (.progress w' w'.limit w.held))
  recorded := ran.recorded
  set := ran.set

/-- An attribute has been read, and no tracer that matters has recorded it. -/
theorem read (recent : S.Recent s n w) (advances : S.Advances w.tracers.size k [] w w')
    (set : S.start.Bound d → (w'.valueOf? d).isSome) : S.Ran s n k [d] [] w w' where
  advances := advances.mono recent.old (Nat.le_refl k)
  recorded := .of_same fun t tracer =>
    advances.tracers t (recent.tracer t tracer).1 (recent.tracer t tracer).2.2
  set d' mem bound := by
    rcases mem with here | there
    · cases List.mem_singleton.1 here
      exact set bound
    · cases there

theorem record (sound : S.Sound) (ran : S.Ran s n k rs ds w w') (recent : S.Recent s n w)
    {t : TracerRef} (tracer : s.tracer = some t) (read : S.start.Bound d → d ∈ rs) :
    S.Ran s n k rs (ds ++ [d]) w (w'.modifyTracer t (·.record d)) where
  advances := ran.advances.trans
    (.record sound ran.advances.inv (.inl (recent.tracer t tracer).2.1) d)
  recorded := ran.recorded.record tracer
    (Nat.lt_of_lt_of_le (recent.tracer t tracer).2.2 ran.advances.more) d
  set d' mem bound := by
    rw [List.mem_append, List.mem_singleton, ← or_assoc] at mem
    rcases mem with before | rfl
    · exact ran.set d' before bound
    · exact ran.set d' (.inl (read bound)) bound

theorem old {es : List Dependency} (ran : S.Ran s n k rs (ds ++ es) w w') :
    S.Ran s n k rs (ds ++ S.old es) w w' where
  advances := ran.advances
  recorded := ran.recorded.old
  set d mem := ran.set d (mem.imp_right fun mem => by
    rw [List.mem_append] at mem ⊢
    exact mem.imp_right fun mem => (List.mem_filter.1 mem).1)

theorem unrecorded (ran : S.Ran s n k rs ds w w') : S.Ran s n k rs (ds ++ S.old []) w w' := by
  rw [Scheme.old, List.filter_nil, List.append_nil]
  exact ran

end Ran

/-! ### Reads of a body -/

/-- The nearest attribute of a name is read, and the tracer records it. -/
theorem loadName_leads (sound : S.Sound) (ready : S.Evaluable k) (inv : S.Inv w) {s : Scope}
    (recent : S.Recent s n w) {o p : ObjectId} {y : Declared} {name : String}
    {t : Option TracerRef} (owner : w.declared? o = some y) (near : w.nearest? o name = some p)
    (tracer : ∀ u, t = some u → s.tracer = some u ∨ u.index < S.start.tracers.size)
    (lower : S.start.Bound ⟨p, name⟩ → S.rank ⟨p, name⟩ < k)
    (room : w.depth + k ≤ S.start.sites.length) :
    Leads w (fun self => loadName self o name t) fun r w' => ∃ v, r = .ok (some v) ∧
      S.means w' ⟨p, name⟩ v (S.meaning ⟨p, name⟩) ∧
        S.Ran s n k [⟨p, name⟩] (s.noting t ⟨p, name⟩) w w' := by
  have is := inv.grows.attribute.1
    (World.attribute_of_nearest? (sound.grounded.mono inv.grows) owner near)
  unfold loadName
  refine Leads.read ?_
  simp only [near]
  refine Leads.seq (Leads.request ((readAttr_leads sound ready inv is lower room).mono ?_))
  rintro r w₁ ⟨v, rfl, means, advances, set⟩
  have read : S.Ran s n k [⟨p, name⟩] [] w w₁ := .read recent advances set
  refine ⟨some v, rfl, ?_⟩
  cases t with
  | none => exact Leads.pure ⟨v, rfl, means, read⟩
  | some u =>
    refine Leads.update (Leads.pure ⟨v, rfl, ?_, ?_⟩)
    · exact sound.mono (w₁.slight_record u _).grows means
    · by_cases own : s.tracer = some u
      · rw [Scope.noting, if_pos ⟨rfl, own.symm⟩]
        exact read.record sound recent own fun _ => List.mem_singleton.2 rfl
      · rw [Scope.noting, if_neg fun both => own both.2.symm]
        have before := (tracer u rfl).resolve_left own
        exact {
          advances := read.advances.trans (.record sound read.advances.inv (.inr before) _)
          recorded := fun t same d there => by
            rw [World.tracer_modifyTracer, if_neg]
            · exact read.recorded t same d there
            · rintro ⟨rfl, _⟩
              exact own same
          set := read.set }

theorem reaches_leads (sound : S.Sound) (ready : S.Evaluable k) (inv : S.Inv w) {s : Scope}
    (recent : S.Recent s n w) {o : ObjectId} {name : String} {ds : List Dependency}
    (reaches : S.Reaches w s o name d ds) (lower : S.start.Bound d → S.rank d < k)
    (room : w.depth + k ≤ S.start.sites.length) :
    Leads w (fun self => readAttr self o name) fun r w' => ∃ v, r = .ok (some v) ∧
      S.means w' d v (S.meaning d) ∧ S.Ran s n k [d] ds w w' := by
  cases reaches with
  | own is =>
    refine (readAttr_leads sound ready inv (inv.grows.attribute.1 is) lower room).mono ?_
    rintro r w' ⟨v, rfl, means, advances, set⟩
    exact ⟨v, rfl, means, .read recent advances set⟩
  | @view _ p q t _ _ entity owner near tracer =>
    let w₁ := {w with held := [Handle.object o] ++ w.held}
    have enter : w.Slips w.tracers.size w₁ := .progress w w.limit _
    have near₁ : w₁.nearest? p name = some q :=
      (enter.slight.grows.nearest? (sound.grounded.mono inv.grows) name owner).trans near
    refine Leads.congr (b := fun self => Action.holding [.object o] (loadName self p name t))
      (fun self => ?_) (Leads.holding ((loadName_leads sound ready (inv.slight sound enter.slight)
        (recent.mono (Nat.le_refl _)) owner near₁ tracer lower room).mono ?_))
    · simp only [readAttr, Action.read_bind, entity]
    · rintro r w' ⟨v, rfl, means, ran⟩
      have leave : w'.Slips 0 {w' with held := w.held} := .progress w' w'.limit _
      exact ⟨v, rfl, sound.mono leave.slight.grows means, ran.hold sound⟩

/-- A name that a scope leaves to its surroundings is an attribute if one is found. -/
theorem getName_leads {s : Scope} {name : String} {Q : Except BindError Value → World → Prop}
    (unchanged : s.change = none)
    (plain : ∀ r, Reserved.ofName? name = some r → r = .change ∨ r = .tracer ∧ s.tracer = none)
    (locals : (w.layer s.locals).get? name = none)
    (loaded : Leads w (fun self => loadName self s.owner name s.tracer) fun r w' =>
      ∃ v, r = .ok (some v) ∧ Q (.ok v) w') :
    Leads w (fun self => getName self s name) Q := by
  refine Leads.congr (World.getName_of_unset unchanged plain locals) ?_
  unfold outerName
  refine Leads.seq (loaded.mono ?_)
  rintro r w' ⟨v, rfl, here⟩
  exact ⟨some v, rfl, Leads.pure here⟩

theorem Reaches.mono {s : Scope} {o : ObjectId} {name : String} {ds : List Dependency}
    (reaches : S.Reaches w s o name d ds) (grounded : w.Grounded) (grows : w.Extends w') :
    S.Reaches w' s o name d ds := by
  cases reaches with
  | own is => exact .own (grows.attribute.2 is)
  | view entity owner near tracer =>
    obtain ⟨_, owner', _⟩ := grows.declared owner
    exact .view (grows.entity entity rfl) owner' ((grows.nearest? grounded name owner).trans near)
      tracer

theorem Looks.mono {c : Surroundings} {s : Scope} {α : Type} {q : Request α}
    {ds : List Dependency} {f : Value → α} (looks : S.Looks w c s q d ds f)
    (grounded : w.Grounded) {y : Declared} (owner : w.declared? c.owner = some y)
    (grows : w.Extends w') : S.Looks w' c s q d ds f := by
  cases looks with
  | name plain locals near =>
    exact .name plain locals ((grows.nearest? grounded _ owner).trans near)
  | attr reaches => exact .attr (reaches.mono grounded grows)
  | read reaches => exact .read (reaches.mono grounded grows)

/-- A read of a body reads its attribute. -/
theorem looks_leads (sound : S.Sound) (ready : S.Evaluable k) (inv : S.Inv w) {c : Surroundings}
    {s : Scope} (opens : w.Opens c s) (recent : S.Recent s n w) {y : Declared}
    (owner : w.declared? c.owner = some y) {α : Type} {q : Request α} {ds : List Dependency}
    {f : Value → α} (looks : S.Looks w c s q d ds f) (lower : S.start.Bound d → S.rank d < k)
    (room : w.depth + k ≤ S.start.sites.length) :
    Leads w (fun self => self α q) fun r w' => ∃ v, r = .ok (f v) ∧
      S.means w' d v (S.meaning d) ∧ S.Ran s n k [d] ds w w' := by
  refine Leads.request ?_
  cases looks with
  | name plain locals near =>
    rw [← opens.owner] at near owner
    refine getName_leads opens.unchanged plain ?_ ?_
    · rw [World.layer, opens.locals]
      exact locals
    · refine (loadName_leads sound ready inv recent owner near (fun _ same => .inl same) lower
        room).mono ?_
      rintro r w' ⟨v, rfl, means, ran⟩
      exact ⟨v, rfl, v, rfl, means, ran⟩
  | attr reaches =>
    refine Leads.seq ((reaches_leads sound ready inv recent reaches lower room).mono ?_)
    rintro r w' ⟨v, rfl, means, ran⟩
    exact ⟨some v, rfl, Leads.pure ⟨v, rfl, means, ran⟩⟩
  | read reaches => exact reaches_leads sound ready inv recent reaches lower room

/-! ### Bodies -/

theorem call_leads {f : NativeRef} {g : Native} {args : List Value}
    {Q : Except BindError Value → World → Prop} (known : w.natives[f.index]? = some g)
    (runs : Leads {w with held := (.native f :: args.flatMap Value.handles) ++ w.held}
      (fun self => (g.code args).run self) fun r w' => Q r {w' with held := w.held}) :
    Leads w (fun self => callValue self (.native f) args) Q := by
  refine Leads.holding (Leads.congr (fun self => ?_) runs)
  simp only [runNative, known]

/-- What has been called is recorded if it is called `getattr` and may have read something. -/
theorem callTraced_leads {t : TracerRef} {f : NativeRef} {g : Native} {args : List Value}
    {Q : Except BindError Value → World → Prop}
    (runs : Leads {w with held := [.tracer t] ++ w.held}
      (fun self => callValue self (.native f) args) fun r w' => w'.natives[f.index]? = some g ∧
        ∃ v, r = .ok v ∧ Q (.ok v) ((g.place? args).elim {w' with held := w.held} fun d =>
          {w' with held := w.held}.modifyTracer t (·.record d))) :
    Leads w (fun self => callTraced self t (.native f) args) Q := by
  refine Leads.seq (Leads.holding (runs.mono ?_))
  rintro r w' ⟨known, v, rfl, here⟩
  refine ⟨v, rfl, Leads.of_eq (fun self => ?_) here⟩
  have name : w'.nativeName f = g.name := by
    rw [World.nativeName, known]
  unfold Native.place?
  split
  · next o name' rest =>
    show (if w'.nativeName f = getattrName then record t o name' >>= fun _ => pure v else pure v :
      Action Value) _ = _
    rw [name]
    split
    · rfl
    · rfl
  · next other =>
    rcases args with _ | ⟨x, _ | ⟨y, rest⟩⟩
    · rfl
    · cases x <;> rfl
    · cases x with
      | object o =>
        cases y with
        | str name' => exact absurd rfl (other o name' rest)
        | _ => rfl
      | _ => rfl

/-- From a world on, a part of a body ends, and then its attributes are read and recorded. -/
def Does (S : Scheme M) (c : Surroundings) (s : Scope) (n k : Nat) {α : Type} (w₀ : World)
    (p : Program α) (rs ds : List Dependency) (Q : World → Except BindError α → Prop) : Prop :=
  ∀ ⦃w⦄, w₀.Extends w → S.Inv w → w.Opens c s → S.Recent s n w →
    w.depth + k ≤ S.start.sites.length →
      Leads w (fun self => p.run self) fun r w' => Q w' r ∧ S.Ran s n k rs ds w w'

/-- It does not matter what is held meanwhile. -/
theorem Does.holding (sound : S.Sound) {c : Surroundings} {s : Scope} {α : Type} {w₀ : World}
    {p : Program α} {rs ds : List Dependency} {Q : World → Except BindError α → Prop}
    (does : S.Does c s n k w₀ p rs ds Q)
    (stable : ∀ {w₁ w₂ r}, w₁.Extends w₂ → Q w₁ r → Q w₂ r) (held : List Handle)
    (grows : w₀.Extends w) (inv : S.Inv w) (opens : w.Opens c s) (recent : S.Recent s n w)
    (room : w.depth + k ≤ S.start.sites.length) :
    Leads {w with held := held} (fun self => p.run self) fun r w' =>
      Q {w' with held := w.held} r ∧ S.Ran s n k rs ds w {w' with held := w.held} := by
  have enter : w.Slips 0 {w with held := held} := .progress w w.limit held
  refine (does (grows.trans enter.slight.grows) (inv.slight sound enter.slight)
    (opens.mono enter.slight.grows (Nat.le_refl _)) (recent.mono (Nat.le_refl _)) room).mono ?_
  rintro r w' ⟨here, ran⟩
  have leave : w'.Slips 0 {w' with held := w.held} := .progress w' w'.limit _
  exact ⟨stable leave.slight.grows here, ran.hold sound⟩

/-- **A part of a body does what is known of it**, in a network that can be filled below a
rank. -/
theorem Follows.does (sound : S.Sound) (ready : S.Evaluable k) {c : Surroundings} {s : Scope}
    {α : Type} {w₀ : World} {p : Program α} {rs ds : List Dependency}
    {Q : World → Except BindError α → Prop} (follows : S.Follows c s S.meaning w₀ p rs ds Q)
    (start : S.start.Extends w₀) {y : Declared} (owner : S.start.declared? c.owner = some y)
    (lower : ∀ d ∈ rs, S.start.Bound d → S.rank d < k) : S.Does c s n k w₀ p rs ds Q := by
  induction follows with
  | still free runs =>
    intro w grows inv opens recent room
    refine (runs grows opens).mono ?_
    exact fun r w' both => ⟨both.2, .of_notes sound inv recent both.1 free⟩
  | @read _ w₀ q d _ _ looks =>
    intro w grows inv opens recent room
    obtain ⟨_, owner₀, _⟩ := start.declared owner
    obtain ⟨_, owner', _⟩ := grows.declared owner₀
    have there := looks.mono (sound.grounded.mono start) owner₀ grows
    have below := lower d (List.mem_singleton.2 rfl)
    refine Leads.congr (fun self => congrFun (Program.run_request self q) w)
      ((looks_leads sound ready inv opens recent owner' there below room).mono ?_)
    rintro r w' ⟨v, rfl, means, ran⟩
    exact ⟨⟨v, rfl, means⟩, ran⟩
  | bind first succeeds next ihf ihn =>
    intro w grows inv opens recent room
    have begins :=
      ihf start (fun d mem => lower d (List.mem_append_left _ mem)) grows inv opens recent room
    refine Leads.congr (fun self => congrFun (Program.run_bind self _ _) w)
      (Leads.seq (begins.mono ?_))
    rintro r w₁ ⟨here, ran⟩
    obtain ⟨a, rfl⟩ := succeeds here
    have later := ran.advances.grows
    have more := ran.advances.more
    have ends := ihn (grows.trans later) here (start.trans (grows.trans later))
      (fun d mem => lower d (List.mem_append_right _ mem)) (.refl w₁) ran.advances.inv
        (opens.mono later more) (recent.mono more) (ran.advances.depth ▸ room)
    exact ⟨a, rfl, ends.mono fun r w' both => ⟨both.1, ran.trans both.2⟩⟩
  | weaken _ weaker ih =>
    intro w grows inv opens recent room
    refine (ih start lower grows inv opens recent room).mono ?_
    exact fun r w' both => ⟨weaker (grows.trans both.2.advances.grows) both.1, both.2⟩
  | attempt _ ih =>
    intro w grows inv opens recent room
    exact Leads.congr (fun self => congrFun (Program.run_attempt self _) w)
      (Leads.attempt (ih start lower grows inv opens recent room))
  | @hold _ _ _ _ _ hs _ _ stable ih =>
    intro w grows inv opens recent room
    have runs :=
      Does.holding sound (ih start lower) stable (hs ++ w.held) grows inv opens recent room
    exact Leads.congr (fun self => congrFun (Program.run_request self _) w)
      (Leads.request (Leads.holding runs))
  | @call _ f g args _ _ _ known _ stable ih =>
    intro w grows inv opens recent room
    have runs := Does.holding sound (ih start lower) stable
      ((.native f :: args.flatMap Value.handles) ++ w.held) grows inv opens recent room
    exact Leads.congr (fun self => congrFun (Program.run_request self _) w)
      (Leads.request (call_leads (grows.natives known) runs))
  | @callTraced _ t f g args _ _ _ tracer known _ succeeds read stable ih =>
    intro w grows inv opens recent room
    have known' : w.natives[f.index]? = some g := grows.natives known
    have runs := Does.holding sound (ih start lower) stable
      ((.native f :: args.flatMap Value.handles) ++ ([.tracer t] ++ w.held)) grows inv opens recent
        room
    refine Leads.congr (fun self => congrFun (Program.run_request self _) w)
      (Leads.request (callTraced_leads (g := g) (call_leads known' (runs.mono ?_))))
    rintro r w' ⟨here, ran⟩
    obtain ⟨v, rfl⟩ := succeeds here
    refine ⟨ran.advances.grows.natives known', v, rfl, ?_⟩
    cases place : g.place? args with
    | none => exact ⟨here, ran.unrecorded⟩
    | some d =>
      have noted := {w' with held := w.held}.slight_record t d
      exact ⟨stable noted.grows here, (ran.record sound recent tracer (read d place)).old⟩
  | @load _ t v name _ _ _ tracer _ succeeds read stable ih =>
    intro w grows inv opens recent room
    have runs := Does.holding sound (ih start lower) stable
      ((.tracer t :: v.handles) ++ w.held) grows inv opens recent room
    have got := Leads.respond
      (runs.congr fun self => (congrFun (Program.run_request self _) _).symm)
    refine Leads.congr (fun self => congrFun (Program.run_request self _) w)
      (Leads.request (Leads.seq (Leads.holding (got.mono ?_))))
    rintro r w' ⟨here, ran⟩
    obtain ⟨u, rfl⟩ := succeeds here
    refine ⟨u, rfl, ?_⟩
    cases v with
    | object o =>
      have noted := {w' with held := w.held}.slight_record t ⟨o, name⟩
      exact Leads.of_eq (fun _ => rfl) ⟨stable noted.grows here,
        (ran.record sound recent tracer (read _ rfl)).old⟩
    | _ => exact Leads.of_eq (fun _ => rfl) ⟨here, ran.unrecorded⟩

end Scheme

end LiveBinding
