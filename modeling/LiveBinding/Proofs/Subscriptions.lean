import LiveBinding.Proofs.LedgerFrame
import LiveBinding.Proofs.Reachable

/-! Subscriptions are exact.

An attribute is linked to what its latest successful evaluation consulted, once to each
attribute of an observable object other than itself, and to nothing else. The ledger says
this of the links the engine has; here it is said of the observers that are held, on the
lists of whatever object. -/
namespace LiveBinding

/-! ### Who holds links

Only engines do. -/

/-- None of the handles is a link. -/
def Linkless (hs : List Handle) : Prop := ∀ h ∈ hs, h.isLink = false

namespace Linkless

theorem append {gs hs : List Handle} (first : Linkless gs) (second : Linkless hs) :
    Linkless (gs ++ hs) := by
  intro h mem
  rcases List.mem_append.1 mem with mem | mem
  · exact first h mem
  · exact second h mem

theorem flatMap {α : Type} {xs : List α} {f : α → List Handle} (each : ∀ x, Linkless (f x)) :
    Linkless (xs.flatMap f) := by
  intro h mem
  obtain ⟨x, _, mem⟩ := List.mem_flatMap.1 mem
  exact each x h mem

theorem map {α : Type} {xs : List α} {f : α → Handle} (each : ∀ x, (f x).isLink = false) :
    Linkless (xs.map f) := by
  intro h mem
  obtain ⟨x, _, rfl⟩ := List.mem_map.1 mem
  exact each x

theorem cons {h : Handle} {hs : List Handle} (first : h.isLink = false) (rest : Linkless hs) :
    Linkless (h :: hs) := List.forall_mem_cons.2 ⟨first, rest⟩

theorem nil : Linkless [] := fun _ mem => by cases mem

theorem value (v : Value) : Linkless v.handles := by
  cases v <;> first | exact nil | exact cons rfl nil

theorem dict {κ : Type} (d : Dict κ Value) : Linkless d.handles := flatMap fun _ => value _

theorem environment (x : Environment) : Linkless x.handles := append (dict _) (dict _)

theorem scope (s : Scope) : Linkless s.handles :=
  cons rfl (cons rfl (append (append (environment _) (map fun _ => rfl)) (map fun _ => rfl)))

theorem subscription (s : Subscription) : Linkless s.handles := cons rfl nil

theorem kept (k : Kept) : Linkless k.handles := by
  cases k with
  | value v => exact value v
  | subscription s => exact subscription s
  | bundle ss => exact flatMap subscription
  | scope s => exact scope s
  | registry r => exact nil
  | _ => exact cons rfl nil

theorem entity (x : Entity) : Linkless x.handles := by
  cases x with
  | declared d => exact append (append (dict _) (map fun _ => rfl)) (map fun _ => rfl)
  | change c => exact cons rfl (append (value _) (value _))
  | view o t => exact cons rfl (map fun _ => rfl)

end Linkless

namespace World
variable {w : World} {e : EngineRef} {name : String} {d : Dependency}

theorem holds_link {g : Handle} {l : LinkRef} (held : .link l ∈ w.holds g) :
    ∃ e name, g = .engine e ∧ l ∈ (w.engine e).linksOf name := by
  have plain {hs : List Handle} (none : Linkless hs) (mem : .link l ∈ hs) : False :=
    Bool.noConfusion (none _ mem)
  cases g with
  | engine e =>
    rcases List.mem_append.1 held with mem | mem
    · exact (plain (.flatMap fun _ => .map fun _ => rfl) mem).elim
    · obtain ⟨⟨name, ls⟩, here, mem⟩ := List.mem_flatMap.1 mem
      obtain ⟨l', mem, same⟩ := List.mem_map.1 mem
      cases same
      refine ⟨e, name, rfl, ?_⟩
      rw [Engine.linksOf, Dict.get?_eq_some.2 here]
      exact mem
  | object o =>
    refine (plain ?_ held).elim
    show Linkless ((w.entity? o).elim [] Entity.handles)
    cases w.entity? o with
    | none => exact .nil
    | some x => exact .entity x
  | native f =>
    refine (plain ?_ held).elim
    show Linkless ((w.natives[f.index]?).elim [] fun n => n.captured.flatMap Value.handles)
    cases w.natives[f.index]? with
    | none => exact .nil
    | some n => exact .flatMap .value
  | list r => exact (plain (.flatMap .value) held).elim
  | map r => exact (plain (.dict _) held).elim
  | layer l => exact (plain (.dict _) held).elim
  | function f => exact (plain (.environment _) held).elim
  | tracer t => exact (plain (.cons rfl (.map fun _ => rfl)) held).elim
  | watcher c => cases held
  | link l => cases held

/-- A link that is held is one an engine has, unless something in progress holds it. -/
theorem held_or_linked_of_isLive {l : LinkRef} (live : w.isLive (.link l) = true) :
    .link l ∈ w.held ∨ ∃ e name, l ∈ (w.engine e).linksOf name := by
  by_contra none
  rw [not_or] at none
  refine isLive_iff.1 live (.intro (fun root => ?_) fun g held => ?_)
  · rcases List.mem_append.1 root with kept | held
    · exact Bool.noConfusion ((Linkless.flatMap fun _ => .kept _) _ kept)
    · exact none.1 held
  · obtain ⟨e, name, _, mem⟩ := holds_link held.2
    exact absurd ⟨e, name, mem⟩ none.2

/-- A link that is held while no notification runs is one an engine has. -/
theorem linksOf_of_isLive (quiet : Linkless w.held) {l : LinkRef}
    (live : w.isLive (.link l) = true) : ∃ e name, l ∈ (w.engine e).linksOf name :=
  (held_or_linked_of_isLive live).resolve_left fun held => Bool.noConfusion (quiet _ held)

/-- What an engine that is held has is held. -/
theorem isLive_of_linksOf {l : LinkRef} (live : w.isLive (.engine e) = true)
    (mem : l ∈ (w.engine e).linksOf name) : w.isLive (.link l) = true := by
  have inside : e.index < w.engines.size := by
    by_contra outside
    rw [engine_of_size_le _ (Nat.le_of_not_lt outside)] at mem
    cases mem
  cases found : (w.engine e).links.get? name with
  | none =>
    rw [Engine.linksOf, found] at mem
    cases mem
  | some ls =>
    rw [Engine.linksOf, found] at mem
    have here : .engine e ∈ (List.range w.engines.size).map fun i => Handle.engine ⟨i⟩ :=
      List.mem_map.2 ⟨e.index, List.mem_range.2 inside, rfl⟩
    refine isLive_of_holds live ⟨?_, List.mem_append_right _ ?_⟩
    · simp only [holders, List.append_assoc]
      exact List.mem_append_left _ here
    · exact List.mem_flatMap.2 ⟨(name, ls), Dict.get?_eq_some.1 found, List.mem_map_of_mem mem⟩

/-! ### Observers that are links -/

/-- Whether a link is one that an engine has made for a name. -/
def linksTo (w : World) (e : EngineRef) (name : String) (l : LinkRef) : Bool :=
  (w.links[l.index]?).any fun k => decide (k.engine = e ∧ k.name = name)

/-- The link that an observer is, if somebody holds it and it was made for the name. -/
def linkFor? (w : World) (e : EngineRef) (name : String) : Observer → Option LinkRef
  | .watcher _ => none
  | .link l => if w.isLive (.link l) && w.linksTo e name l then some l else none

/-- The observers of an attribute of an object, in order. -/
def observersOf (w : World) (d : Dependency) : List Observer :=
  (w.registryOf? d.object).elim [] fun r => (w.registry r).observers d.name

/-- The links of a bound attribute that observe an attribute of an object and are held. -/
def installed (w : World) (e : EngineRef) (name : String) (d : Dependency) : List LinkRef :=
  (w.observersOf d).filterMap (w.linkFor? e name)

/-- Whether the latest evaluation of a bound attribute consulted something else that can
be observed. -/
def consults (w : World) (e : EngineRef) (name : String) (d : Dependency) : Bool :=
  match (w.engine e).latest name with
  | some v => v.consulted.contains d && w.follows v.owner name d
  | none => false

/-- What a notification found dropped stays dropped. Handles cannot be made up, so what
nobody holds any more is never held again. -/
def Lasting (w : World) : Prop :=
  ∀ r name x, (name, x) ∈ (w.registry r).forgotten → w.isLive x.handle = false

/-! ### One link for one dependency -/

theorem exists_partner {α β : Type} {S : α → β → Prop} {as : List α} {bs : List β}
    (paired : List.Forall₂ S as bs) {a : α} (mem : a ∈ as) : ∃ b ∈ bs, S a b := by
  induction paired with
  | nil => cases mem
  | cons first rest ih =>
    cases mem with
    | head => exact ⟨_, List.mem_cons_self, first⟩
    | tail _ mem =>
      obtain ⟨b, there, pair⟩ := ih mem
      exact ⟨b, List.mem_cons_of_mem _ there, pair⟩

/-- If a relation pairs two lists in order, tells apart what it pairs with the second, and
nothing occurs twice there, each item of the second list has one partner. -/
theorem exists_unique_partner {α β : Type} {S : α → β → Prop}
    (tells : ∀ a b c, S a b → S a c → b = c) {as : List α} {bs : List β}
    (paired : List.Forall₂ S as bs) (nodup : bs.Nodup) {b : β} (mem : b ∈ bs) :
    ∃ a ∈ as, S a b ∧ ∀ a' ∈ as, S a' b → a' = a := by
  induction paired with
  | nil => cases mem
  | @cons a₀ b₀ as bs first rest ih =>
    rw [List.nodup_cons] at nodup
    cases mem with
    | head =>
      refine ⟨a₀, List.mem_cons_self, first, fun a' mem' pair => ?_⟩
      cases mem' with
      | head => rfl
      | tail _ mem' =>
        obtain ⟨c, there, pair'⟩ := exists_partner rest mem'
        exact absurd (tells _ _ _ pair pair' ▸ there) nodup.1
    | tail _ mem =>
      obtain ⟨a, here, pair, only⟩ := ih nodup.2 mem
      refine ⟨a, List.mem_cons_of_mem _ here, pair, fun a' mem' pair' => ?_⟩
      cases mem' with
      | head => exact absurd (tells _ _ _ first pair' ▸ mem) nodup.1
      | tail _ mem' => exact only a' mem' pair'

/-! ### Exactness -/

/-- What holds of every reachable world: the ledger is in order, and whatever the host
holds, it holds no links. -/
structure Settled (w : World) : Prop where
  ledger : w.Ledger
  quiet : Linkless w.held

theorem settled_of_reachable (reached : Reachable w) : w.Settled := by
  refine reached.invariant frame_kept (fun natives => ⟨ledger_initial natives, .nil⟩) ?_ ?_ ?_
  · exact fun kept settled => ⟨kept.ledger settled.ledger, kept.progress.1 ▸ settled.quiet⟩
  · intro w hs plain settled
    exact ⟨(w.still_progress w.depth w.limit hs).ledger settled.ledger, plain⟩
  · intro w settled
    exact ⟨w.still_collect.ledger settled.ledger, settled.quiet⟩

/-- A place in the registries tells which dependency a link is for. -/
theorem Placed.tells (tidy : w.Tidy) {v : Evaluation} {l : LinkRef} {d : Dependency}
    (placed : w.Placed e name v l d) {r : RegistryRef} {c : Dependency}
    (found : w.registryOf? c.object = some r)
    (some : 0 < (w.registry r).appearances c.name (.link l)) : d = c := by
  obtain ⟨s, here, count⟩ := placed.registered
  obtain ⟨rfl, names⟩ := tidy.once (count ▸ Nat.one_pos) some
  have objects : d.object = c.object := tidy.apart here found
  cases d
  cases c
  cases objects
  cases names
  rfl

/-- The links an engine has for a name are due to its latest evaluation. -/
theorem Ledger.exists_placed (ledger : w.Ledger) {l : LinkRef}
    (mem : l ∈ (w.engine e).linksOf name) :
    ∃ v, (w.engine e).latest name = some v ∧ ∃ d ∈ w.due e name v, w.Placed e name v l d := by
  have answers := ledger.answers e name
  unfold Answers at answers
  cases latest : (w.engine e).latest name with
  | none =>
    rw [latest] at answers
    rw [show (w.engine e).linksOf name = [] from answers] at mem
    cases mem
  | some v =>
    rw [latest] at answers
    exact ⟨v, rfl, exists_partner answers mem⟩

/-- Without links nothing of them is on any list. -/
theorem Ledger.not_appears (ledger : w.Ledger) (unlinked : w.links = #[]) {r : RegistryRef}
    {a : String} {l : LinkRef} : ¬ 0 < (w.registry r).appearances a (.link l) := by
  intro appears
  have made := ledger.tidy.made appears
  rw [unlinked] at made
  cases made

theorem Ledger.not_mem_linksOf (ledger : w.Ledger) (unlinked : w.links = #[]) {l : LinkRef} :
    l ∉ (w.engine e).linksOf name := by
  intro held
  obtain ⟨v, _, d, _, placed⟩ := ledger.exists_placed held
  obtain ⟨r, _, count⟩ := placed.registered
  exact ledger.not_appears unlinked (count ▸ Nat.one_pos)

/-- An observer that is held is one of the links the engine has, if it was made for the
engine and the name. -/
theorem Settled.mem_linksOf (settled : w.Settled) {l : LinkRef}
    (live : w.isLive (.link l) = true) (made : w.linksTo e name l = true) :
    l ∈ (w.engine e).linksOf name := by
  obtain ⟨e', name', mem⟩ := linksOf_of_isLive settled.quiet live
  obtain ⟨v, _, d, _, placed⟩ := settled.ledger.exists_placed mem
  rw [linksTo, placed.made] at made
  obtain ⟨rfl, rfl⟩ := of_decide_eq_true made
  exact mem

theorem mem_due {v : Evaluation} (latest : (w.engine e).latest name = some v)
    (traced : (w.engine e).config.traceSubscriptions = true) :
    d ∈ w.due e name v ↔ w.consults e name d = true := by
  rw [due, if_pos traced, List.mem_filter, consults, latest]
  simp

/-- Which observers of a dependency are links of the name: those that its latest evaluation
has placed there. -/
theorem Settled.linkFor?_eq_some (settled : w.Settled) {x : Observer} {l : LinkRef}
    (listed : x ∈ w.observersOf d) (chosen : w.linkFor? e name x = some l) :
    x = .link l ∧ l ∈ (w.engine e).linksOf name ∧
      ∃ v, (w.engine e).latest name = some v ∧ d ∈ w.due e name v ∧ w.Placed e name v l d := by
  cases x with
  | watcher c => cases chosen
  | link l' =>
    rw [linkFor?] at chosen
    split at chosen
    · next both =>
      cases chosen
      rw [Bool.and_eq_true] at both
      have here := settled.mem_linksOf both.1 both.2
      refine ⟨rfl, here, ?_⟩
      unfold observersOf at listed
      cases found : w.registryOf? d.object with
      | none =>
        rw [found] at listed
        cases listed
      | some r =>
        rw [found] at listed
        obtain ⟨v, latest, c, due, placed⟩ := settled.ledger.exists_placed here
        have some : 0 < (w.registry r).appearances d.name (.link l) :=
          Nat.add_pos_left (List.count_pos_iff.2 listed) _
        obtain rfl := placed.tells settled.ledger.tidy found some
        exact ⟨v, latest, due, placed⟩
    · cases chosen

/-- A link that was never forgotten is on the list of its dependency once. -/
theorem Placed.count {v : Evaluation} {l : LinkRef} (placed : w.Placed e name v l d)
    (live : w.isLive (.link l) = true) (lasting : w.Lasting) :
    (w.observersOf d).count (.link l) = 1 := by
  obtain ⟨r, found, count⟩ := placed.registered
  have never : (w.registry r).forgotten.count (d.name, .link l) = 0 := by
    rw [List.count_eq_zero]
    intro mem
    exact Bool.noConfusion (live.symm.trans (lasting r _ _ mem))
  rw [Registry.appearances, never, Nat.add_zero] at count
  rw [observersOf, found]
  exact count

theorem length_installed (w : World) (e : EngineRef) (name : String) (d : Dependency) :
    (w.installed e name d).length =
      (w.observersOf d).countP fun x => (w.linkFor? e name x).isSome :=
  List.length_filterMap_eq_countP

/-- **Subscriptions are exact.** In every reachable world, an attribute of an engine that
traces is linked to each attribute that its latest evaluation consulted by one observer, to
anything else by none, and all of its observers were made for that evaluation. -/
theorem installed_exact (reached : Reachable w) (lasting : w.Lasting)
    (live : w.isLive (.engine e) = true)
    (traced : (w.engine e).config.traceSubscriptions = true) (name : String) (d : Dependency) :
    (w.installed e name d).length = (if w.consults e name d then 1 else 0) ∧
      ∀ l ∈ w.installed e name d, ∃ v, (w.engine e).latest name = some v ∧
        v.since ≤ l.index ∧ w.links[l.index]? = some ⟨e, v.owner, name⟩ := by
  have settled := settled_of_reachable reached
  constructor
  · rw [length_installed]
    cases consults : w.consults e name d with
    | false =>
      rw [if_neg Bool.false_ne_true, List.countP_eq_zero]
      intro x listed chosen
      obtain ⟨l, some⟩ := Option.isSome_iff_exists.1 chosen
      obtain ⟨_, _, v, latest, due, _⟩ := settled.linkFor?_eq_some listed some
      rw [mem_due latest traced, consults] at due
      cases due
    | true =>
      obtain ⟨v, latest⟩ : ∃ v, (w.engine e).latest name = some v := by
        cases latest : (w.engine e).latest name with
        | none =>
          rw [World.consults, latest] at consults
          cases consults
        | some v => exact ⟨v, rfl⟩
      have due : d ∈ w.due e name v := (mem_due latest traced).2 consults
      have nodup : (w.due e name v).Nodup := by
        rw [World.due, if_pos traced]
        exact (settled.ledger.nodup latest).filter _
      have answers : List.Forall₂ (w.Placed e name v) ((w.engine e).linksOf name)
          (w.due e name v) := by
        have answers := settled.ledger.answers e name
        unfold Answers at answers
        rw [latest] at answers
        exact answers
      have tells (l : LinkRef) (b c : Dependency) (here : w.Placed e name v l b)
          (there : w.Placed e name v l c) : b = c := by
        obtain ⟨r, found, count⟩ := there.registered
        exact here.tells settled.ledger.tidy found (count ▸ Nat.one_pos)
      obtain ⟨l, mem, placed, only⟩ := exists_unique_partner tells answers nodup due
      have held := isLive_of_linksOf live mem
      rw [if_pos rfl, ← placed.count held lasting, List.count_eq_countP]
      apply List.countP_congr
      intro x listed
      constructor
      · intro chosen
        obtain ⟨l', some⟩ := Option.isSome_iff_exists.1 chosen
        obtain ⟨rfl, mem', u, latest', _, placed'⟩ := settled.linkFor?_eq_some listed some
        obtain rfl : u = v := Option.some.inj (latest'.symm.trans latest)
        rw [only l' mem' placed']
        exact beq_self_eq_true _
      · intro same
        obtain rfl := eq_of_beq same
        have made : w.linksTo e name l = true := by
          rw [linksTo, placed.made]
          exact decide_eq_true ⟨rfl, rfl⟩
        simp only [linkFor?, held, made, Bool.and_self, if_true, Option.isSome_some]
  · intro l mem
    obtain ⟨x, listed, chosen⟩ := List.mem_filterMap.1 mem
    obtain ⟨_, _, v, latest, _, placed⟩ := settled.linkFor?_eq_some listed chosen
    exact ⟨v, latest, placed.later, placed.made⟩

/-- Nothing that was never forgotten needs to last. -/
theorem lasting_of_isEmpty (none : (w.registries.all fun r => r.forgotten.isEmpty) = true) :
    w.Lasting := by
  intro r name x mem
  by_cases inside : r.index < w.registries.size
  · have here := Array.all_eq_true.1 none r.index inside
    rw [registry, Array.getElem?_eq_getElem inside, Option.getD_some,
      List.isEmpty_iff.1 here] at mem
    cases mem
  · rw [registry_of_size_le _ (Nat.le_of_not_lt inside)] at mem
    cases mem

/-- An object that is kept, with an attribute `double` that consults `base`. -/
def linkedPair : Program ObjectId := do
  let o ← .request (.newObject
    { typeName := "Item", parent := none, attributes := .ofList [("base", .int 1)]
      members := [], constants := .empty, storage := .empty, config := none })
  .request (.keep "item" (.object o))
  let f ← .request (.newFunction "double" ⟨.empty, .empty⟩ fun s _ =>
    .request (.getName s "base"))
  .request (.bind o "double" .subscribe f (.given 0))
  let _ ← Program.request (.readAttr o "double")
  .request (.setAttr (.object o) "base" (.int 2))
  return o

/-- The world after that, and after an update of `double`. -/
def linkedPairWorld : World :=
  (linkedPair.run (perform 9) (.initial #[])).elim (.initial #[]) Prod.snd

set_option maxRecDepth 100000 in
/-- `base` has one observer, made for the second evaluation of `double`. -/
theorem installed_linkedPair :
    linkedPairWorld.isLive (.engine ⟨0⟩) = true ∧
      (linkedPairWorld.engine ⟨0⟩).config.traceSubscriptions = true ∧
      (linkedPairWorld.installed ⟨0⟩ "double" ⟨⟨0⟩, "base"⟩).length = 1 := by
  have live : linkedPairWorld.isLive (.engine ⟨0⟩) = true := by decide +kernel
  have traced : (linkedPairWorld.engine ⟨0⟩).config.traceSubscriptions = true := by
    decide +kernel
  have lasting : linkedPairWorld.Lasting := lasting_of_isEmpty (by decide +kernel)
  have reached : Reachable linkedPairWorld := (Reachable.start #[]).final 9 linkedPair
  have consults : linkedPairWorld.consults ⟨0⟩ "double" ⟨⟨0⟩, "base"⟩ = true := by
    decide +kernel
  have exact := (installed_exact reached lasting live traced "double" ⟨⟨0⟩, "base"⟩).1
  rw [if_pos consults] at exact
  exact ⟨live, traced, exact⟩

end World

end LiveBinding
