import LiveBinding.Proofs.Cells
import LiveBinding.Proofs.Execution
import Mathlib.Data.List.Count
import Mathlib.Data.List.Forall2

/-! The ledger of links: what every world that was ever reached has in order.

For each bound attribute the history of its engine says which evaluation was the latest
and what it consulted. The links the engine has for the attribute answer to that list, one
for one, and each of them has been put on the list of observers of its dependency exactly
once and on no other list. Being taken off a list is part of the record, so nothing here
depends on who holds what. -/
namespace LiveBinding

/-! ### Places of observers -/

namespace Registry

/-- How often an observer of an attribute was registered, counting the times it was
forgotten since. -/
def appearances (r : Registry) (name : String) (x : Observer) : Nat :=
  (r.observers name).count x + r.forgotten.count (name, x)

@[simp] theorem appearances_empty (name : String) (x : Observer) :
    Registry.empty.appearances name x = 0 := rfl

theorem appearances_add (r : Registry) (a name : String) (x y : Observer) :
    (r.add a y).appearances name x =
      r.appearances name x + if a = name ∧ y = x then 1 else 0 := by
  unfold appearances observers add
  rw [Dict.get?_insert]
  by_cases slot : a = name
  · subst slot
    by_cases same : y = x
    · subst same
      simp [observers]
      omega
    · simp [observers, same]
  · simp [slot]

theorem appearances_prune (r : Registry) (a name : String) (keep : Observer → Bool)
    (x : Observer) : (r.prune a keep).appearances name x = r.appearances name x := by
  unfold prune
  split
  · next xs found =>
    unfold appearances observers
    rw [Dict.get?_insert]
    by_cases slot : a = name
    · subst slot
      have apart : xs.count x = (xs.filter keep).count x + (xs.filter fun x => !keep x).count x :=
        List.countP_eq_countP_filter_add xs (· == x) keep
      have tagged : (((xs.filter fun x => !keep x).map (a, ·)).count (a, x)) =
          (xs.filter fun x => !keep x).count x :=
        List.count_map_of_injective _ _ (fun _ _ same => (Prod.mk.inj same).2) x
      rw [if_pos rfl, found, List.count_append, tagged]
      simp only [Option.getD_some, apart]
      omega
    · have other : (((xs.filter fun x => !keep x).map (a, ·)).count (name, x)) = 0 := by
        rw [List.count_eq_zero]
        intro mem
        obtain ⟨y, _, same⟩ := List.mem_map.1 mem
        exact slot (congrArg Prod.fst same)
      simp [slot, List.count_append, other]
  · rfl

end Registry

/-! ### The latest evaluation -/

/-- A successful evaluation of a bound attribute: what it consulted, and how many links
there were before it got its own. -/
structure Evaluation where
  owner : ObjectId
  consulted : List Dependency
  since : Nat

/-- The latest evaluation of a name in a history, unless the name was bound or all links
were given up since. -/
def latestIn (name : String) : List Milestone → Option Evaluation
  | [] => none
  | .bound other :: earlier => if other = name then none else latestIn name earlier
  | .evaluated other owner consulted since :: earlier =>
    if other = name then some ⟨owner, consulted, since⟩ else latestIn name earlier
  | .cleared :: _ => none

def Engine.latest (g : Engine) (name : String) : Option Evaluation := latestIn name g.history

theorem Engine.latest_addBinding (g : Engine) (a name : String) (b : Binding) :
    (g.addBinding a b).latest name = if a = name then none else g.latest name := rfl

theorem Engine.linksOf_addBinding (g : Engine) (a name : String) (b : Binding)
    (links : g.links.contains a = true → g.bindings.contains a = true) :
    (g.addBinding a b).linksOf name = if a = name then [] else g.linksOf name := by
  unfold addBinding linksOf
  by_cases bound : g.bindings.contains a = true
  · simp only [bound, if_true, Dict.get?_erase]
    split <;> rfl
  · have free : g.links.get? a = none := by
      have missing : g.links.contains a ≠ true := fun h => bound (links h)
      simpa [Dict.contains] using missing
    simp only [bound]
    by_cases same : a = name
    · subst same
      simp [free]
    · simp [same]

namespace World
variable {w w' : World} {e : EngineRef} {owner : ObjectId} {name : String}

/-- Whether an evaluation of an attribute is linked to something it consulted. -/
def follows (w : World) (owner : ObjectId) (name : String) (d : Dependency) : Bool :=
  !decide (d.object = owner ∧ d.name = name) && (w.registryOf? d.object).isSome

/-- What the links of an attribute are to be links to. -/
def due (w : World) (e : EngineRef) (name : String) (v : Evaluation) : List Dependency :=
  if (w.engine e).config.traceSubscriptions then v.consulted.filter (w.follows v.owner name)
  else []

/-- A link was made for an evaluation and registered once for a dependency. -/
structure Placed (w : World) (e : EngineRef) (name : String) (v : Evaluation) (l : LinkRef)
    (d : Dependency) : Prop where
  later : v.since ≤ l.index
  made : w.links[l.index]? = some ⟨e, v.owner, name⟩
  registered : ∃ r, w.registryOf? d.object = some r ∧
    (w.registry r).appearances d.name (.link l) = 1

/-- The links of an attribute answer to its latest evaluation. -/
def Answers (w : World) (e : EngineRef) (name : String) : Prop :=
  match (w.engine e).latest name with
  | none => (w.engine e).linksOf name = []
  | some v => List.Forall₂ (w.Placed e name v) ((w.engine e).linksOf name) (w.due e name v)

/-! ### Where links are -/

/-- Objects have registries of their own, and a link is in one place only. -/
structure Tidy (w : World) : Prop where
  built : ∀ {o r}, w.registryOf? o = some r → r.index < w.registries.size
  apart : ∀ {o p r}, w.registryOf? o = some r → w.registryOf? p = some r → o = p
  made : ∀ {r a l}, 0 < (w.registry r).appearances a (.link l) → l.index < w.links.size
  once : ∀ {r s a b l}, 0 < (w.registry r).appearances a (.link l) →
    0 < (w.registry s).appearances b (.link l) → r = s ∧ a = b

/-- More links and more registrations of them; what was there is as it was. -/
structure Linked (w w' : World) : Prop where
  objects : w'.objects = w.objects
  grown : w.links.size ≤ w'.links.size
  links : ∀ {i : Nat} {k}, w.links[i]? = some k → w'.links[i]? = some k
  appearances : ∀ {r a l}, l.index < w.links.size →
    (w'.registry r).appearances a (.link l) = (w.registry r).appearances a (.link l)
  forgotten : ∀ r, (w'.registry r).forgotten = (w.registry r).forgotten

namespace Linked

theorem refl (w : World) : w.Linked w := ⟨rfl, Nat.le_refl _, id, fun _ => rfl, fun _ => rfl⟩

theorem trans {w₁ w₂ w₃ : World} (first : w₁.Linked w₂) (next : w₂.Linked w₃) :
    w₁.Linked w₃ where
  objects := next.objects.trans first.objects
  grown := Nat.le_trans first.grown next.grown
  links found := next.links (first.links found)
  appearances old :=
    (next.appearances (Nat.lt_of_lt_of_le old first.grown)).trans (first.appearances old)
  forgotten r := (next.forgotten r).trans (first.forgotten r)

variable (linked : w.Linked w')
include linked

theorem declared? (o : ObjectId) : w'.declared? o = w.declared? o := by
  simp only [World.declared?, entity?, linked.objects]

theorem registryOf? (o : ObjectId) : w'.registryOf? o = w.registryOf? o := by
  rw [World.registryOf?, World.registryOf?, linked.declared?]

theorem has (o : ObjectId) : w'.has o = w.has o := by
  rw [World.has, World.has, linked.objects]

theorem follows (owner : ObjectId) (name : String) :
    w'.follows owner name = w.follows owner name := by
  funext d
  rw [World.follows, World.follows, linked.registryOf?]

theorem placed {v : Evaluation} {l : LinkRef} {d : Dependency} (placed : w.Placed e name v l d) :
    w'.Placed e name v l d where
  later := placed.later
  made := linked.links placed.made
  registered := by
    obtain ⟨r, found, count⟩ := placed.registered
    obtain ⟨old, _⟩ := Array.getElem?_eq_some_iff.1 placed.made
    exact ⟨r, by rw [linked.registryOf?, found], by rw [linked.appearances old, count]⟩

end Linked

/-- Links have been made, and these are all of them. -/
structure Wired (w w' : World) (ls : List LinkRef) : Prop where
  linked : w.Linked w'
  rest : ∃ links registries, w' = {w with links := links, registries := registries}
  new : ∀ l : LinkRef, w.links.size ≤ l.index → l.index < w'.links.size → l ∈ ls

namespace Wired
variable {ls ls' : List LinkRef}

theorem refl (w : World) : w.Wired w [] :=
  ⟨.refl w, ⟨_, _, rfl⟩, fun _ old new => absurd new (Nat.not_lt_of_le old)⟩

theorem trans {w₁ w₂ w₃ : World} (first : w₁.Wired w₂ ls) (next : w₂.Wired w₃ ls') :
    w₁.Wired w₃ (ls ++ ls') where
  linked := first.linked.trans next.linked
  rest := by
    obtain ⟨_, _, rfl⟩ := first.rest
    obtain ⟨_, _, rfl⟩ := next.rest
    exact ⟨_, _, rfl⟩
  new l old new := by
    by_cases early : l.index < w₂.links.size
    · exact List.mem_append_left _ (first.new l old early)
    · exact List.mem_append_right _ (next.new l (Nat.le_of_not_lt early) new)

end Wired

/-- A link for an attribute of an object, registered with the observers of the object. -/
def link (w : World) (k : Link) (r : RegistryRef) (name : String) : World :=
  (w.addLink k).1.modifyRegistry r (·.add name (.link ⟨w.links.size⟩))

theorem registry_link (tidy : w.Tidy) (k : Link) {r : RegistryRef} {o : ObjectId}
    (found : w.registryOf? o = some r) (s : RegistryRef) (a : String) :
    (w.link k r a).registry s =
      if r = s then (w.registry s).add a (.link ⟨w.links.size⟩) else w.registry s := by
  have inside : r.index < w.registries.size := tidy.built found
  refine (registry_modifyRegistry (w.addLink k).1 r s _).trans ?_
  by_cases same : r = s
  · rw [if_pos ⟨same, inside⟩, if_pos same]
    rfl
  · rw [if_neg (fun h => same h.1), if_neg same]
    rfl

theorem appearances_link (tidy : w.Tidy) (k : Link) {r : RegistryRef} {o : ObjectId}
    (found : w.registryOf? o = some r) (s : RegistryRef) (a b : String) (x : Observer) :
    ((w.link k r a).registry s).appearances b x =
      (w.registry s).appearances b x +
        if r = s ∧ a = b ∧ .link ⟨w.links.size⟩ = x then 1 else 0 := by
  rw [registry_link tidy k found]
  by_cases same : r = s
  · rw [if_pos same, Registry.appearances_add]
    simp only [same, true_and]
  · rw [if_neg same]
    simp [same]

/-- A link that does not exist yet is nowhere. -/
theorem Tidy.nowhere (tidy : w.Tidy) {l : LinkRef} (late : w.links.size ≤ l.index)
    (r : RegistryRef) (a : String) : (w.registry r).appearances a (.link l) = 0 := by
  by_contra some
  have old := tidy.made (Nat.pos_of_ne_zero some)
  omega

theorem Tidy.next_nowhere (tidy : w.Tidy) (r : RegistryRef) (a : String) :
    (w.registry r).appearances a (.link ⟨w.links.size⟩) = 0 := tidy.nowhere (Nat.le_refl _) r a

theorem linked_link (tidy : w.Tidy) (k : Link) {r : RegistryRef} {o : ObjectId}
    (found : w.registryOf? o = some r) (a : String) : w.Linked (w.link k r a) where
  objects := rfl
  grown := by
    show w.links.size ≤ (w.links.push k).size
    rw [Array.size_push]
    omega
  links := by
    intro i x here
    show (w.links.push k)[i]? = some x
    obtain ⟨inside, _⟩ := Array.getElem?_eq_some_iff.1 here
    rw [Array.getElem?_push, if_neg (by omega), here]
  appearances := by
    intro s b l old
    rw [appearances_link tidy k found, if_neg, Nat.add_zero]
    rintro ⟨_, _, same⟩
    cases same
    exact Nat.lt_irrefl _ old
  forgotten := by
    intro s
    rw [registry_link tidy k found]
    split <;> rfl

theorem tidy_link (tidy : w.Tidy) (k : Link) {r : RegistryRef} {o : ObjectId}
    (found : w.registryOf? o = some r) (a : String) : (w.link k r a).Tidy := by
  have linked := linked_link tidy k found a
  have count := appearances_link tidy k found
  constructor
  · intro p s here
    rw [linked.registryOf?] at here
    show s.index < (w.registries.modify r.index _).size
    rw [Array.size_modify]
    exact tidy.built here
  · intro p q s here there
    rw [linked.registryOf?] at here there
    exact tidy.apart here there
  · intro s b l some
    show l.index < (w.links.push k).size
    rw [count] at some
    rw [Array.size_push]
    split at some
    · next new =>
      cases new.2.2
      exact Nat.lt_succ_self _
    · exact Nat.lt_succ_of_lt (tidy.made some)
  · intro s t b c l here there
    rw [count] at here there
    by_cases new : l = ⟨w.links.size⟩
    · subst new
      rw [tidy.next_nowhere, Nat.zero_add] at here there
      split at here
      · next first =>
        split at there
        · next second => exact ⟨first.1.symm.trans second.1, first.2.1.symm.trans second.2.1⟩
        · exact absurd there (Nat.lt_irrefl 0)
      · exact absurd here (Nat.lt_irrefl 0)
    · have other : ∀ {p q : Prop}, ¬(p ∧ q ∧ Observer.link ⟨w.links.size⟩ = .link l) := by
        rintro p q ⟨_, _, same⟩
        cases same
        exact new rfl
      rw [if_neg other, Nat.add_zero] at here there
      exact tidy.once here there

/-! ### Linking an evaluation -/

/-- One dependency gets its link, or there is nothing to link. -/
theorem follow_run (tidy : w.Tidy) (v : Evaluation) (since : v.since ≤ w.links.size)
    (e : EngineRef) (name : String) (d : Dependency) :
    ∃ found w', Engine.follow e v.owner name d w = some (.ok found, w') ∧
      w.Wired w' found.toList ∧ w'.Tidy ∧
      List.Forall₂ (w'.Placed e name v) found.toList ([d].filter (w.follows v.owner name)) := by
  unfold Engine.follow
  by_cases self : d.object = v.owner ∧ d.name = name
  · refine ⟨none, w, by rw [if_pos self]; rfl, .refl w, tidy, ?_⟩
    have out : w.follows v.owner name d = false := by simp [follows, self]
    rw [List.filter_cons_of_neg (by simp [out])]
    exact .nil
  · rw [if_neg self, Action.read_bind]
    cases found : w.registryOf? d.object with
    | none =>
      refine ⟨none, w, rfl, .refl w, tidy, ?_⟩
      have out : w.follows v.owner name d = false := by simp [follows, found]
      rw [List.filter_cons_of_neg (by simp [out])]
      exact .nil
    | some r =>
      have linked := linked_link tidy ⟨e, v.owner, name⟩ found d.name
      refine ⟨some ⟨w.links.size⟩, w.link ⟨e, v.owner, name⟩ r d.name, rfl,
        ⟨linked, ⟨_, _, rfl⟩, fun l old new => ?_⟩, tidy_link tidy _ found _, ?_⟩
      · have last : l.index < (w.links.push ⟨e, v.owner, name⟩).size := new
        rw [Array.size_push] at last
        exact List.mem_singleton.2 (congrArg LinkRef.mk (by omega : l.index = w.links.size))
      have wanted : w.follows v.owner name d = true := by simp [follows, self, found]
      rw [List.filter_cons_of_pos wanted]
      refine .cons ⟨since, ?_, r, ?_, ?_⟩ .nil
      · exact Array.getElem?_push_size
      · rw [linked.registryOf?, found]
      · rw [appearances_link tidy _ found, tidy.next_nowhere, if_pos ⟨rfl, rfl, rfl⟩]

/-- Every dependency gets its link, in order. -/
theorem followAll_run (tidy : w.Tidy) (v : Evaluation) (since : v.since ≤ w.links.size)
    (e : EngineRef) (name : String) (ds : List Dependency) :
    ∃ ls w', Engine.followAll e v.owner name ds w = some (.ok ls, w') ∧
      w.Wired w' ls ∧ w'.Tidy ∧
      List.Forall₂ (w'.Placed e name v) ls (ds.filter (w.follows v.owner name)) := by
  induction ds generalizing w with
  | nil => exact ⟨[], w, rfl, .refl w, tidy, .nil⟩
  | cons d rest ih =>
    obtain ⟨first, w₁, run₁, wired₁, tidy₁, placed₁⟩ := follow_run tidy v since e name d
    obtain ⟨others, w₂, run₂, wired₂, tidy₂, placed₂⟩ :=
      ih tidy₁ (Nat.le_trans since wired₁.linked.grown)
    refine ⟨first.toList ++ others, w₂, ?_, wired₁.trans wired₂, tidy₂, ?_⟩
    · unfold Engine.followAll
      rw [Action.bind_apply, run₁]
      dsimp only
      rw [Action.bind_apply, run₂]
      rfl
    · have split : (d :: rest).filter (w.follows v.owner name) =
          [d].filter (w.follows v.owner name) ++ rest.filter (w.follows v.owner name) := by
        rw [← List.filter_append]
        rfl
      rw [split]
      rw [wired₁.linked.follows] at placed₂
      exact List.rel_append (placed₁.imp fun _ _ => wired₂.linked.placed) placed₂

/-! ### The ledger -/

structure Ledger (w : World) : Prop where
  tidy : w.Tidy
  answers : ∀ e name, w.Answers e name
  nodup : ∀ {e name v}, (w.engine e).latest name = some v → v.consulted.Nodup
  known : ∀ {e name v}, (w.engine e).latest name = some v →
    ∀ d ∈ v.consulted, w.has d.object = true
  /-- Only bound attributes have links. -/
  bound : ∀ {e name}, (w.engine e).links.contains name = true →
    (w.engine e).bindings.contains name = true
  traced : ∀ t, (w.tracer t).dependencies.Nodup

theorem ledger_initial (natives : Array Native) : (World.initial natives).Ledger where
  tidy :=
    { built := fun found => by cases found
      apart := fun found => by cases found
      made := fun some => absurd some (Nat.lt_irrefl 0)
      once := fun some => absurd some (Nat.lt_irrefl 0) }
  answers e name := rfl
  nodup found := by cases found
  known found := by cases found
  bound links := by cases links
  traced t := List.nodup_nil

/-- The links of an attribute still answer to an evaluation when neither has changed and
everything it consulted is observable as before. -/
theorem Answers.transport (answers : w.Answers e name)
    (links : (w'.engine e).linksOf name = (w.engine e).linksOf name)
    (latest : (w'.engine e).latest name = (w.engine e).latest name)
    (due : ∀ v, (w.engine e).latest name = some v → w'.due e name v = w.due e name v)
    (placed : ∀ v l d, w.Placed e name v l d → w'.Placed e name v l d) : w'.Answers e name := by
  unfold Answers at answers ⊢
  rw [latest, links]
  cases found : (w.engine e).latest name with
  | none =>
    rw [found] at answers
    exact answers
  | some v =>
    rw [found] at answers
    dsimp only at answers ⊢
    rw [due v found]
    exact answers.imp (placed v)

theorem follows_has {owner : ObjectId} {d : Dependency}
    (follows : w.follows owner name d = true) : w.has d.object = true := by
  rw [has_iff]
  by_contra outside
  have none : w.registryOf? d.object = none := by
    rw [registryOf?, declared?_of_size_le _ (Nat.le_of_not_lt outside)]
    rfl
  simp [World.follows, none] at follows

/-- What remains to be observed of an evaluation does not depend on keeping what does not
exist in the list. -/
theorem filter_follows_has (w : World) (owner : ObjectId) (name : String) (ds : List Dependency) :
    (ds.filter fun d => w.has d.object).filter (w.follows owner name) =
      ds.filter (w.follows owner name) := by
  rw [List.filter_filter]
  apply List.filter_congr
  intro d _
  cases wanted : w.follows owner name d with
  | true => rw [follows_has wanted, Bool.and_self]
  | false => rw [Bool.false_and]

theorem inside_of_bound (bound : (w.engine e).bindings.contains name = true) :
    e.index < w.engines.size := by
  by_contra outside
  rw [engine_of_size_le _ (Nat.le_of_not_lt outside)] at bound
  exact Bool.noConfusion bound

/-- The world in which an evaluation is on record and its links are to be made. -/
def concluded (w : World) (e : EngineRef) (owner : ObjectId) (name : String) (t : TracerRef) :
    World :=
  w.modifyEngine e (·.note (.evaluated name owner
    ((w.tracer t).dependencies.filter fun d => w.has d.object) w.links.size))

def setLinks (w : World) (e : EngineRef) (name : String) (ls : List LinkRef) : World :=
  w.modifyEngine e fun g => {g with links := g.links.insert name ls}

/-- Linking an evaluation changes the links of one attribute, and puts the evaluation on
record. -/
structure Relinked (w w' : World) (e : EngineRef) (name : String) (v : Evaluation)
    (t : TracerRef) (ls : List LinkRef) : Prop where
  linked : w.Linked w'
  rest : ∃ tracers registries links engines log, w' = {w with
    tracers := tracers, registries := registries, links := links, engines := engines, log := log}
  here : w'.engine e =
    {w.engine e with
      links := (w.engine e).links.insert name ls
      history := .evaluated name v.owner v.consulted v.since :: (w.engine e).history}
  others : ∀ e', e ≠ e' → w'.engine e' = w.engine e'
  new : ∀ l : LinkRef, w.links.size ≤ l.index → l.index < w'.links.size → l ∈ ls
  tracers : ∀ u, t ≠ u → w'.tracer u = w.tracer u
  size : w'.tracers.size = w.tracers.size
  log : w'.log = w.log ∨ ∃ k, w'.log = w.log.push (.subscriptionsInstalled v.owner name k)

/-- The last step of linking, in a world that has the new links. -/
theorem relinked_setLinks {w₂ : World} {v : Evaluation} {t : TracerRef} {ls : List LinkRef}
    (bound : (w.engine e).bindings.contains name = true) (linked : w.Linked w₂)
    (rest : ∃ tracers registries links engines log, w₂ = {w with
      tracers := tracers, registries := registries, links := links, engines := engines, log := log})
    (engines : w₂.engines =
      (w.modifyEngine e (·.note (.evaluated name v.owner v.consulted v.since))).engines)
    (new : ∀ l : LinkRef, w.links.size ≤ l.index → l.index < w₂.links.size → l ∈ ls)
    (tracers : ∀ u, t ≠ u → w₂.tracer u = w.tracer u)
    (size : w₂.tracers.size = w.tracers.size)
    (log : w₂.log = w.log ∨ ∃ k, w₂.log = w.log.push (.subscriptionsInstalled v.owner name k)) :
    w.Relinked (w₂.setLinks e name ls) e name v t ls := by
  have inside : e.index < w.engines.size := inside_of_bound bound
  have noted (e' : EngineRef) : w₂.engine e' =
      (w.modifyEngine e (·.note (.evaluated name v.owner v.consulted v.since))).engine e' := by
    simp only [World.engine, engines]
  have inside₂ : e.index < w₂.engines.size := by
    rw [engines]
    show e.index < (w.engines.modify e.index _).size
    rw [Array.size_modify]
    exact inside
  constructor
  · exact ⟨linked.objects, linked.grown, linked.links, linked.appearances, linked.forgotten⟩
  · obtain ⟨_, _, _, _, _, rfl⟩ := rest
    exact ⟨_, _, _, _, _, rfl⟩
  · refine (w₂.engine_modifyEngine e e _).trans ?_
    rw [if_pos ⟨rfl, inside₂⟩, noted, engine_modifyEngine, if_pos ⟨rfl, inside⟩]
    rfl
  · intro e' apart
    refine (w₂.engine_modifyEngine e e' _).trans ?_
    rw [if_neg fun both => apart both.1, noted, engine_modifyEngine,
      if_neg fun both => apart both.1]
  · exact new
  · exact tracers
  · exact size
  · exact log

/-- An evaluation that is on record and has its links is in order. -/
theorem Ledger.relinked (ledger : w.Ledger) {v : Evaluation} {ls : List LinkRef}
    {t : TracerRef} (bound : (w.engine e).bindings.contains name = true)
    (relinked : w.Relinked w' e name v t ls) (tidy : w'.Tidy)
    (nodup : v.consulted.Nodup) (known : ∀ d ∈ v.consulted, w.has d.object = true)
    (placed : List.Forall₂ (w'.Placed e name v) ls (w.due e name v))
    (traced : ∀ t, (w'.tracer t).dependencies.Nodup) : w'.Ledger := by
  have linked := relinked.linked
  have here := relinked.here
  have others := relinked.others
  have latest (a : String) :
      (w'.engine e).latest a = if name = a then some v else (w.engine e).latest a := by
    rw [here]
    rfl
  have due (e' : EngineRef) (a : String) (u : Evaluation) : w'.due e' a u = w.due e' a u := by
    unfold World.due
    rw [linked.follows]
    by_cases same : e = e'
    · subst same
      rw [here]
    · rw [others e' same]
  have evaluated (P : Evaluation → Prop) (new : P v)
      (old : ∀ {e name u}, (w.engine e).latest name = some u → P u) {e' : EngineRef} {a : String}
      {u : Evaluation} (found : (w'.engine e').latest a = some u) : P u := by
    by_cases same : e = e'
    · subst same
      rw [latest] at found
      split at found
      · cases found
        exact new
      · exact old found
    · rw [others e' same] at found
      exact old found
  constructor
  · exact tidy
  · intro e' a
    by_cases same : e = e'
    · subst same
      by_cases this : name = a
      · subst this
        unfold Answers
        rw [latest, if_pos rfl, here]
        show List.Forall₂ _ (((w.engine e).links.insert name ls).get? name |>.getD []) _
        rw [Dict.get?_insert_self, due]
        exact placed
      · refine (ledger.answers e a).transport ?_ ?_ (fun u _ => due e a u)
          fun _ _ _ => linked.placed
        · rw [here]
          show (((w.engine e).links.insert name ls).get? a).getD [] = _
          rw [Dict.get?_insert, if_neg this]
          rfl
        · rw [latest, if_neg this]
    · refine (ledger.answers e' a).transport ?_ ?_ (fun u _ => due e' a u)
        fun _ _ _ => linked.placed
      · rw [others e' same]
      · rw [others e' same]
  · exact evaluated _ nodup ledger.nodup
  · exact evaluated (fun u => ∀ d ∈ u.consulted, w'.has d.object = true)
      (fun d mem => by rw [linked.has, known d mem])
      fun found d mem => by rw [linked.has, ledger.known found d mem]
  · intro e' a links
    by_cases same : e = e'
    · subst same
      rw [here] at links ⊢
      simp only [Dict.contains, Dict.get?_insert] at links
      split at links
      · next this => exact this ▸ bound
      · exact ledger.bound links
    · rw [others e' same] at links ⊢
      exact ledger.bound links
  · exact traced

/-- After an evaluation the links of its attribute are made anew. -/
theorem Ledger.relink (ledger : w.Ledger) (owner : ObjectId) (t : TracerRef)
    (bound : (w.engine e).bindings.contains name = true) :
    ∃ w' ls, (do Engine.conclude e owner name t; Engine.relink e owner name t) w =
        some (.ok (), w') ∧ w'.Ledger ∧
      w.Relinked w' e name
        ⟨owner, (w.tracer t).dependencies.filter fun d => w.has d.object, w.links.size⟩ t ls := by
  let v : Evaluation :=
    ⟨owner, (w.tracer t).dependencies.filter fun d => w.has d.object, w.links.size⟩
  have nodup : v.consulted.Nodup := (ledger.traced t).filter _
  have known (d : Dependency) (mem : d ∈ v.consulted) : w.has d.object = true :=
    (List.mem_filter.1 mem).2
  let w₁ := w.concluded e owner name t
  have config : (w₁.engine e).config = (w.engine e).config := by
    have here := w.engine_modifyEngine e e (·.note (.evaluated name owner v.consulted v.since))
    rw [if_pos ⟨rfl, inside_of_bound bound⟩] at here
    show ((w.modifyEngine e _).engine e).config = _
    rw [here]
    rfl
  cases traced : (w.engine e).config.traceSubscriptions with
  | false =>
    have run : Engine.relink e owner name t w₁ = some (.ok (), w₁.setLinks e name []) := by
      simp only [Engine.relink, Action.read_bind, config, traced]
      rfl
    have linked : w.Linked w₁ := ⟨rfl, Nat.le_refl _, id, fun _ => rfl, fun _ => rfl⟩
    have relinked : w.Relinked (w₁.setLinks e name []) e name v t [] :=
      relinked_setLinks bound linked ⟨_, _, _, _, _, rfl⟩ rfl
        (fun _ old new => absurd new (Nat.not_lt_of_le old)) (fun _ _ => rfl) rfl (.inl rfl)
    refine ⟨_, [], run, ledger.relinked bound relinked ?_ nodup known ?_ ledger.traced, relinked⟩
    · exact ⟨ledger.tidy.built, ledger.tidy.apart, ledger.tidy.made, ledger.tidy.once⟩
    · have none : w.due e name v = [] := by
        unfold World.due
        exact if_neg fun on => Bool.noConfusion (on.symm.trans traced)
      rw [none]
      exact .nil
  | true =>
    let w₂ := w₁.modifyTracer t Tracer.drain
    have tidy₂ : w₂.Tidy :=
      ⟨ledger.tidy.built, ledger.tidy.apart, ledger.tidy.made, ledger.tidy.once⟩
    obtain ⟨ls, w₃, followed, wired, tidy, placed⟩ :=
      followAll_run tidy₂ v (Nat.le_refl _) e name (w.tracer t).dependencies
    let installed := LogEntry.subscriptionsInstalled owner name ls.length
    let w₄ := w₃.addEntry installed
    have run : Engine.relink e owner name t w₁ = some (.ok (), w₄.setLinks e name ls) := by
      simp only [Engine.relink, Action.read_bind, config, traced, if_true]
      show (Engine.followAll e owner name (w.tracer t).dependencies >>= _) w₂ = _
      rw [Action.bind_apply, followed]
      rfl
    obtain ⟨links, registries, rest⟩ := wired.rest
    have tracers : w₃.tracers = w₂.tracers := by rw [rest]
    have tracer (u : TracerRef) : w₃.tracer u = w₂.tracer u := by
      simp only [World.tracer, tracers]
    have linked : w.Linked w₄ :=
      ⟨wired.linked.objects, wired.linked.grown, wired.linked.links, wired.linked.appearances,
        wired.linked.forgotten⟩
    have relinked : w.Relinked (w₄.setLinks e name ls) e name v t ls := by
      refine relinked_setLinks bound linked
        ⟨w₂.tracers, registries, links, w₁.engines, w₂.log.push installed, ?_⟩ ?_ wired.new
        (fun u apart => ?_) ?_ (.inr ⟨ls.length, ?_⟩)
      · show w₃.addEntry _ = _
        rw [rest]
        rfl
      · show w₃.engines = _
        rw [rest]
        rfl
      · show w₃.tracer u = _
        rw [tracer, tracer_modifyTracer, if_neg fun both => apart both.1]
        rfl
      · show w₃.tracers.size = _
        rw [tracers]
        exact Array.size_modify
      · show w₃.log.push _ = _
        rw [rest]
        rfl
    refine ⟨_, ls, run, ledger.relinked bound relinked ?_ nodup known ?_ ?_, relinked⟩
    · exact ⟨tidy.built, tidy.apart, tidy.made, tidy.once⟩
    · have same : w.due e name v =
          (w.tracer t).dependencies.filter (w₂.follows owner name) := by
        unfold World.due
        exact (if_pos traced).trans (w.filter_follows_has owner name _)
      rw [same]
      exact placed.imp fun _ _ p => ⟨p.later, p.made, p.registered⟩
    · intro u
      show (w₃.tracer u).dependencies.Nodup
      rw [tracer, w₁.tracer_modifyTracer]
      split
      · exact List.nodup_nil
      · exact ledger.traced u

end World
end LiveBinding
