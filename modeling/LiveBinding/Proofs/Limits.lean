import LiveBinding.Proofs.Consistency

/-! Limits on nested bodies do not cut cascades short.

A limit counts bodies that run inside other bodies. An update assigns what a body has made when
the body has ended, so the updates that this brings about start from the depth that the first one
started from. Whatever the limit, a change gets through to everything that depends on it. -/
namespace LiveBinding

/-- Reads attributes, one after the other. -/
def readEach : List Dependency → Program Unit
  | [] => pure ()
  | x :: rest => do
    let _ ← Program.request (.getAttr (.object x.object) x.name)
    readEach rest

namespace Network
variable {N : Network} {w : World}

/-- If attributes of lower ranks are read first, no two bodies are nested. -/
theorem readEach_leads (sound : N.Sound) {xs : List Dependency} (inv : N.Inv w fun _ => False)
    (depth : w.depth = 0) (bound : ∀ x ∈ xs, N.start.Bound x)
    (ordered : xs.Pairwise fun x y => N.rank x ≤ N.rank y)
    (due : ∀ y, N.start.Bound y → w.valueOf? y = none → y ∈ xs) :
    Leads w (fun self => (readEach xs).run self) fun r w' => r = .ok () ∧ N.AtRest w' := by
  induction xs generalizing w with
  | nil =>
    refine Leads.done ⟨rfl, inv, depth, fun {x} bound => ?_⟩
    by_contra unset
    cases due x bound (Option.not_isSome_iff_eq_none.1 unset)
  | cons x rest ih =>
    have here : N.start.Bound x := bound x List.mem_cons_self
    obtain ⟨y, known, _⟩ := sound.declared here
    rw [List.pairwise_cons] at ordered
    -- whatever has no value yet is of no lower rank
    have room : N.Roomy N.room (N.rank x) w := by
      refine ⟨0, by rw [depth]; exact Nat.zero_le _, fun y bound unset lower => ?_⟩
      rcases List.mem_cons.1 (due y bound unset) with rfl | later
      · omega
      · have higher := ordered.1 y later
        omega
    refine Leads.ask (Leads.request ((get_leads sound inv (fun _ _ => room) known).mono ?_))
    rintro r w₁ ⟨proceeds, answered⟩
    obtain ⟨⟨v, rfl⟩, set⟩ := answered here
    refine ih proceeds.inv (proceeds.depth.trans depth)
      (fun y mem => bound y (List.mem_cons_of_mem _ mem)) ordered.2 fun y bound unset => ?_
    have before : w.valueOf? y = none := by
      by_contra some
      have stays := proceeds.stored (Option.isSome_iff_ne_none.2 some)
      rw [unset] at stays
      cases stays
    rcases List.mem_cons.1 (due y bound before) with rfl | later
    · rw [unset] at set
      cases set
    · exact later

/-- **No limit cuts a cascade short.** Once the bound attributes have been read, each after those
of lower rank, a network stays consistent, even if no two bodies may be nested. -/
theorem Sound.reaches_everything (sound : N.Sound) {xs : List Dependency}
    (bound : ∀ x ∈ xs, N.start.Bound x) (every : ∀ x, N.start.Bound x → x ∈ xs)
    (ordered : xs.Pairwise fun x y => N.rank x ≤ N.rank y) : N.ConsistentAfter (readEach xs) := by
  have depth := (World.idle_of_reachable sound.reachable).depth
  exact consistentAfter_of_leads sound
    (readEach_leads sound (sound.inv _) depth bound ordered fun y bound _ => every y bound)

end Network

namespace doublingNetwork

/-- With room for a single body, both attributes follow the base once they have been read. -/
theorem follows_base : (doublingNetwork 0).ConsistentAfter
    (readEach [⟨⟨0⟩, "double"⟩, ⟨⟨0⟩, "quadruple"⟩]) := by
  have bound {x : Dependency} (mem : x ∈ [(⟨⟨0⟩, "double"⟩ : Dependency), ⟨⟨0⟩, "quadruple"⟩]) :
      (doublingNetwork 0).start.Bound x := by
    simp only [List.mem_cons, List.not_mem_nil, or_false] at mem
    rcases mem with rfl | rfl
    · exact bound_of_name (.inl rfl)
    · exact bound_of_name (.inr rfl)
  have every {x : Dependency} (here : (doublingNetwork 0).start.Bound x) :
      x ∈ [(⟨⟨0⟩, "double"⟩ : Dependency), ⟨⟨0⟩, "quadruple"⟩] := by
    obtain ⟨e, h, handler⟩ := here
    obtain ⟨_, ⟨rfl, _⟩ | ⟨rfl, _⟩⟩ := handlerOf handler
    · exact List.mem_cons_self
    · exact List.mem_cons_of_mem _ List.mem_cons_self
  -- the first of the two reads nothing that is bound
  have lowest : (doublingNetwork 0).rank ⟨⟨0⟩, "double"⟩ = 0 := by
    classical
    rw [Network.rank, Finset.card_eq_zero, Finset.filter_eq_empty_iff]
    intro y _ way
    exact absurd (up way).1 (by decide)
  refine sound.reaches_everything (fun x => bound) (fun x => every) ?_
  rw [List.pairwise_pair, lowest]
  exact Nat.zero_le _

/-- Reads both attributes, and assigns to the base. -/
def cascade : Program Unit := do
  readEach [⟨⟨0⟩, "double"⟩, ⟨⟨0⟩, "quadruple"⟩]
  (Operation.set ⟨⟨0⟩, "base"⟩ (.int 2)).program

/-- The world after that, for a limit of one body. -/
def cascaded : World :=
  (cascade.run (perform 9) (doublingNetwork 0).start).elim (doublingNetwork 0).start Prod.snd

set_option maxRecDepth 100000 in
/-- Within a limit of one body, the assignment brings about an update inside an update, and
neither of them fails. -/
theorem outruns_limit :
    (cascaded.engine ⟨0⟩).config.maxDepth = 1 ∧
      cascaded.stored? ⟨0⟩ "base" = some (.int 2) ∧
      cascaded.stored? ⟨0⟩ "quadruple" = some (.int 8) ∧
      (cascaded.log.all fun e => decide (e.severity ≠ .error)) = true := by
  decide +kernel

end doublingNetwork

end LiveBinding
