import LiveBinding.Proofs.Layers
import LiveBinding.Proofs.Moments

/-! Looking an attribute up along an owner chain.

The lookup is a loop: an object is asked whether it has the attribute, and if it has not, the loop
goes on with its parent. A view is asked by looking the attribute up from its owner on, so one loop
may run inside another. Nothing bounds either of them but the order in which objects come into
being: parents and owners are older than what refers to them, at every moment of every run. -/
namespace LiveBinding

namespace World
variable {w : World} {name : String} {o p q : ObjectId} {os inner asked : List ObjectId}
  {r : Option ObjectId} {b : Bool}

/-! ### The loop -/

mutual

/-- The loop from an object on: whom it asks, in order and through views as well, and what it comes
to. -/
inductive Walks (w : World) (name : String) :
    ObjectId → List ObjectId → Option ObjectId → Prop where
  | found {o : ObjectId} {inner : List ObjectId} (has : Replies w name o inner true) :
      Walks w name o (o :: inner) (some o)
  | next {o p : ObjectId} {inner rest : List ObjectId} {r : Option ObjectId}
      (lacks : Replies w name o inner false) (parent : w.parent? o = some p)
      (goes : Walks w name p rest r) : Walks w name o (o :: inner ++ rest) r
  | last {o : ObjectId} {inner : List ObjectId} (lacks : Replies w name o inner false)
      (root : w.parent? o = none) : Walks w name o (o :: inner) none

/-- What an object replies when it is asked for an attribute, and whom it asks before. -/
inductive Replies (w : World) (name : String) : ObjectId → List ObjectId → Bool → Prop where
  | declared {o : ObjectId} {d : Declared} (entity : w.entity? o = some (.declared d)) :
      Replies w name o [] (d.hasAttribute name)
  | change {o : ObjectId} {c : Change} (entity : w.entity? o = some (.change c)) :
      Replies w name o [] (c.attribute? name).isSome
  | view {o p : ObjectId} {t : Option TracerRef} {asked : List ObjectId} {r : Option ObjectId}
      (entity : w.entity? o = some (.view p t)) (walks : Walks w name p asked r) :
      Replies w name o asked r.isSome
  | gone {o : ObjectId} (entity : w.entity? o = none) : Replies w name o [] false

end

theorem replies_iff : w.Replies name o inner b ↔ match w.entity? o with
    | some (.declared d) => inner = [] ∧ b = d.hasAttribute name
    | some (.change c) => inner = [] ∧ b = (c.attribute? name).isSome
    | some (.view p _) => ∃ r, w.Walks name p inner r ∧ b = r.isSome
    | none => inner = [] ∧ b = false := by
  constructor
  · intro replies
    cases replies with
    | declared entity | change entity | gone entity =>
      rw [entity]
      exact ⟨rfl, rfl⟩
    | view entity walks =>
      rw [entity]
      exact ⟨_, walks, rfl⟩
  · intro shape
    rcases entity : w.entity? o with _ | d | c | ⟨p, t⟩
    all_goals rw [entity] at shape
    · obtain ⟨rfl, rfl⟩ := shape
      exact .gone entity
    · obtain ⟨rfl, rfl⟩ := shape
      exact .declared entity
    · obtain ⟨rfl, rfl⟩ := shape
      exact .change entity
    · obtain ⟨r, walks, rfl⟩ := shape
      exact .view entity walks

/-- Only declared objects have parents, and they ask nobody. -/
theorem Replies.alone (replies : w.Replies name o inner b) (parent : w.parent? o = some p) :
    inner = [] := by
  obtain ⟨declared, _⟩ := Option.filter_eq_some_iff.1 parent
  obtain ⟨d, known, _⟩ := Option.bind_eq_some_iff.1 declared
  rw [replies_iff, (w.declared?_eq_some).1 known] at replies
  exact replies.1

/-- Each is older than those before it. -/
def Descending (os : List ObjectId) : Prop := os.Pairwise fun p q => q.index < p.index

/-- A loop that starts somewhere ends, and asks ever older objects on the way. -/
theorem Descends.exists_walk (descends : w.Descends) (name : String) (o : ObjectId) :
    (∃ inner, w.Replies name o inner (w.hasAttribute o name) ∧ Descending (o :: inner)) ∧
      ∃ asked, w.Walks name o asked (w.nearest? o name) ∧ Descending asked ∧
        ∀ q ∈ asked, q.index ≤ o.index := by
  induction size : o.index using Nat.strong_induction_on generalizing o with
  | _ n ih =>
    subst size
    have replies : ∃ inner, w.Replies name o inner (w.hasAttribute o name) ∧
        Descending (o :: inner) := by
      rw [descends.hasAttribute_eq]
      rcases entity : w.entity? o with _ | d | c | ⟨p, t⟩
      · exact ⟨[], .gone entity, List.pairwise_singleton ..⟩
      · exact ⟨[], .declared entity, List.pairwise_singleton ..⟩
      · exact ⟨[], .change entity, List.pairwise_singleton ..⟩
      · have older := descends.owner entity
        obtain ⟨_, asked, walks, descending, below⟩ := ih p.index older p rfl
        exact ⟨asked, .view entity walks, List.pairwise_cons.2
          ⟨fun q mem => Nat.lt_of_le_of_lt (below q mem) older, descending⟩⟩
    refine ⟨replies, ?_⟩
    obtain ⟨inner, replies, descending⟩ := replies
    have below : ∀ q ∈ o :: inner, q.index ≤ o.index := by
      refine List.forall_mem_cons.2 ⟨Nat.le_refl _, fun q mem => Nat.le_of_lt ?_⟩
      exact (List.pairwise_cons.1 descending).1 q mem
    rw [descends.nearest?_eq]
    cases has : w.hasAttribute o name with
    | true =>
      rw [has] at replies
      exact ⟨_, .found replies, descending, below⟩
    | false =>
      rw [has] at replies
      cases parent : w.parent? o with
      | none => exact ⟨_, .last replies parent, descending, below⟩
      | some p =>
        have older := descends.parent?_lt parent
        obtain ⟨_, rest, goes, descending', below'⟩ := ih p.index older p rfl
        have after (q : ObjectId) (mem : q ∈ rest) : q.index < o.index :=
          Nat.lt_of_le_of_lt (below' q mem) older
        cases replies.alone parent
        exact ⟨_, .next replies parent goes, List.pairwise_cons.2 ⟨after, descending'⟩,
          List.forall_mem_cons.2 ⟨Nat.le_refl _, fun q mem => Nat.le_of_lt (after q mem)⟩⟩

/-- The loop has one way to go. -/
theorem Descends.walk_unique (descends : w.Descends) (name : String) (o : ObjectId) :
    (∀ {inner inner' b b'}, w.Replies name o inner b → w.Replies name o inner' b' →
      inner = inner' ∧ b = b') ∧
    ∀ {asked asked' r r'}, w.Walks name o asked r → w.Walks name o asked' r' →
      asked = asked' ∧ r = r' := by
  induction size : o.index using Nat.strong_induction_on generalizing o with
  | _ n ih =>
    subst size
    have replies {inner inner' : List ObjectId} {b b' : Bool} (first : w.Replies name o inner b)
        (other : w.Replies name o inner' b') : inner = inner' ∧ b = b' := by
      rw [replies_iff] at first other
      rcases entity : w.entity? o with _ | d | c | ⟨p, t⟩
      all_goals rw [entity] at first other
      · exact ⟨first.1.trans other.1.symm, first.2.trans other.2.symm⟩
      · exact ⟨first.1.trans other.1.symm, first.2.trans other.2.symm⟩
      · exact ⟨first.1.trans other.1.symm, first.2.trans other.2.symm⟩
      · obtain ⟨r, walks, rfl⟩ := first
        obtain ⟨r', walks', rfl⟩ := other
        obtain ⟨rfl, rfl⟩ := (ih p.index (descends.owner entity) p rfl).2 walks walks'
        exact ⟨rfl, rfl⟩
    refine ⟨replies, fun first other => ?_⟩
    cases first with
    | found has =>
      cases other with
      | found has' => exact ⟨congrArg (o :: ·) (replies has has').1, rfl⟩
      | next lacks _ _ => cases (replies has lacks).2
      | last lacks _ => cases (replies has lacks).2
    | next lacks parent goes =>
      cases other with
      | found has => cases (replies has lacks).2
      | next lacks' parent' goes' =>
        cases parent.symm.trans parent'
        obtain ⟨rfl, rfl⟩ := (ih _ (descends.parent?_lt parent) _ rfl).2 goes goes'
        exact ⟨by rw [(replies lacks lacks').1], rfl⟩
      | last _ root => cases parent.symm.trans root
    | last lacks root =>
      cases other with
      | found has => cases (replies has lacks).2
      | next _ parent _ => cases root.symm.trans parent
      | last lacks' _ => exact ⟨congrArg (o :: ·) (replies lacks lacks').1, rfl⟩

/-- Parents and owners are older at every moment. -/
theorem Arises.descends (arises : w.Arises) : w.Descends := by
  refine arises.invariant frame_descends (fun natives => ⟨fun known => ?_, fun known => ?_⟩)
    (fun step here => step.2 here) (fun _ _ _ _ here => here.of_objects rfl)
    fun _ _ _ here => here.of_objects rfl
  · cases known
  · cases known

/-- What a chain comes to: the first object that bears the name, if one does. -/
theorem Lineage.nearest?_iff (lineage : w.Lineage o os) (descends : w.Descends) (name : String) :
    (∀ {p}, w.nearest? o name = some p ↔
      ∃ before after, os = before ++ p :: after ∧ w.Bears name p ∧ ∀ q ∈ before, ¬ w.Bears name q) ∧
    (w.nearest? o name = none ↔ ∀ q ∈ os, ¬ w.Bears name q) := by
  have bears (q : ObjectId) : w.hasAttribute q name = true ↔ w.Bears name q :=
    descends.hasAttribute_iff
  rw [lineage.nearest? descends]
  constructor
  · intro p
    rw [List.find?_eq_some_iff_append, bears]
    constructor
    · rintro ⟨has, before, after, parts, lack⟩
      exact ⟨before, after, parts, has, fun q mem => by simpa [← bears] using lack q mem⟩
    · rintro ⟨before, after, parts, has, lack⟩
      exact ⟨has, before, after, parts, fun q mem => by simpa [← bears] using lack q mem⟩
  · rw [List.find?_eq_none]
    exact forall₂_congr fun q _ => not_congr (bears q)

/-- **Looking an attribute up along an owner chain always ends at the nearest owner.** At every
moment of every run, parents are older than their children and owners older than their views. So
from any object on, and for any name, the loop ends, in one way only and with what lookups go by;
on the way, through views as well, it asks ever older objects and so none of them twice. It comes
to the first object of the chain that has the attribute, and to nothing exactly if none has it,
where an object that is asked replies truly. -/
theorem Arises.walk_ends (arises : w.Arises) :
    (∀ {o d p}, w.declared? o = some d → d.parent = some p → p.index < o.index) ∧
    (∀ {o p t}, w.entity? o = some (.view p t) → p.index < o.index) ∧
    ∀ (name : String) (o : ObjectId), ∃ asked r os, w.Walks name o asked r ∧ w.nearest? o name = r ∧
      (∀ {asked' r'}, w.Walks name o asked' r' → asked' = asked ∧ r' = r) ∧
      Descending asked ∧ asked.Nodup ∧ w.Lineage o os ∧
      (∀ {p}, r = some p ↔ ∃ before after, os = before ++ p :: after ∧ w.Bears name p ∧
        ∀ q ∈ before, ¬ w.Bears name q) ∧
      (r = none ↔ ∀ q ∈ os, ¬ w.Bears name q) ∧
      ∀ {q inner b}, w.Replies name q inner b → (b = true ↔ w.Bears name q) := by
  have descends := arises.descends
  refine ⟨descends.parent, descends.owner, fun name o => ?_⟩
  obtain ⟨_, asked, walks, descending, _⟩ := descends.exists_walk name o
  obtain ⟨os, lineage⟩ := descends.exists_lineage o
  have ends := lineage.nearest?_iff descends name
  have once : asked.Nodup := descending.imp fun less same => by
    rw [same] at less
    exact Nat.lt_irrefl _ less
  refine ⟨asked, _, os, walks, rfl, fun other => (descends.walk_unique name o).2 other walks,
    descending, once, lineage, ends.1, ends.2, fun {q inner b} replies => ?_⟩
  obtain ⟨⟨_, truly, _⟩, _⟩ := descends.exists_walk name q
  rw [((descends.walk_unique name q).1 replies truly).2]
  exact descends.hasAttribute_iff

end World

namespace staircase

/-- A child, a view of it, and an object whose parent is the view. -/
def session : Program Unit := do
  let p ← .request (.newObject
    { typeName := "Item", parent := none, attributes := .ofList [("x", .int 7)], members := []
      constants := .empty, storage := .empty, config := none })
  .request (.keep "p" (.object p))
  let c ← .request (.newObject
    { typeName := "Item", parent := some p, attributes := .ofList [("y", .int 0)], members := []
      constants := .empty, storage := .empty, config := none })
  .request (.keep "c" (.object c))
  let l ← .request (.newLayer .empty)
  let v ← .request (.getName ⟨c, l, ⟨.empty, .empty⟩, none, none⟩ "nonlocals")
  .request (.keep "v" (.value v))
  let o ← .request (.newObject
    { typeName := "Item", parent := v.asObject, attributes := .empty, members := []
      constants := .empty, storage := .empty, config := none })
  .request (.keep "o" (.object o))

def start : World := (session.run (perform 12) (.initial #[])).elim (.initial #[]) Prod.snd

theorem arises : start.Arises := ((Reachable.start #[]).final 12 session).arises

theorem view_found : (start.declared? ⟨1⟩).map (·.parent) = some (some ⟨0⟩) ∧
    (start.entity? ⟨2⟩).any (fun | .view p _ => decide (p = ⟨1⟩) | _ => false) = true ∧
    start.parent? ⟨3⟩ = some ⟨2⟩ ∧ start.parent? ⟨2⟩ = none ∧
    start.nearest? ⟨3⟩ "x" = some ⟨2⟩ ∧ start.nearest? ⟨3⟩ "z" = none := by
  decide +kernel

/-- The view has what the chain of its owner has, and is found before that chain; nobody is asked
twice. -/
theorem finds_view : ∃ asked, start.Walks "x" ⟨3⟩ asked (some ⟨2⟩) ∧ asked.Nodup ∧
    start.Bears "x" ⟨2⟩ ∧ ¬ start.Bears "x" ⟨3⟩ ∧ ¬ start.Bears "z" ⟨2⟩ := by
  obtain ⟨-, -, chain, last, near, missing⟩ := view_found
  obtain ⟨-, -, ends⟩ := arises.walk_ends
  have above : start.Lineage ⟨3⟩ [⟨3⟩, ⟨2⟩] := .next chain (.last last)
  obtain ⟨asked, r, os, walks, same, -, -, once, lineage, first, -⟩ := ends "x" ⟨3⟩
  cases same.symm.trans near
  cases lineage.unique above
  obtain ⟨-, r', os', -, same', -, -, -, lineage', -, none, -⟩ := ends "z" ⟨3⟩
  cases same'.symm.trans missing
  cases lineage'.unique above
  obtain ⟨before, after, parts, bears, lack⟩ := first.1 rfl
  refine ⟨asked, walks, once, bears, ?_, none.1 rfl ⟨2⟩ (by simp)⟩
  cases before with
  | nil => cases parts
  | cons q before =>
    obtain ⟨rfl, -⟩ := List.cons.inj parts
    exact lack _ (List.mem_cons_self ..)

end staircase

end LiveBinding
