import LiveBinding.Proofs.Looks
import LiveBinding.Proofs.Presence
import LiveBinding.Proofs.Route

/-! States that differ in the values of attributes.

Two states may have the same objects with the same parents, the same containers and the same native
functions, but other values in attributes. Only what is there in both of them is compared: what is
gone in one of them may be anything in the other. Names are then found in the same places, and what
is done with a value without reading an attribute gives the same. -/
namespace LiveBinding

/-- The same object in two states: only values of attributes differ. -/
inductive SameObject : Option Entity → Option Entity → Prop where
  | same (x : Option Entity) : SameObject x x
  | declared {d d' : Declared} (fixed : d.Fixed d') :
      SameObject (some (.declared d)) (some (.declared d'))

/-- Objects of the same type with the same attributes, whatever the values and whatever else they
have. -/
inductive Akin : Option Entity → Option Entity → Prop where
  | same (x : Option Entity) : Akin x x
  | declared {d d' : Declared} (typeName : d'.typeName = d.typeName)
      (attributes : ∀ n, d'.hasAttribute n = d.hasAttribute n) :
      Akin (some (.declared d)) (some (.declared d'))

namespace World

/-- No view. -/
def Plain (w : World) (o : ObjectId) : Prop := ∀ p t, w.entity? o ≠ some (.view p t)

/-- Objects are in the same places. -/
structure SamePlaces (w w' : World) : Prop where
  object : ∀ o, SameObject (w.entity? o) (w'.entity? o)
  parent : ∀ o, w'.parent? o = w.parent? o

/-- What is there in both states is the same in both, but for the values of attributes. -/
structure Peers (a a' : World) : Prop where
  object : ∀ {o}, a.isLive (.object o) = true → a'.isLive (.object o) = true →
    Akin (a.entity? o) (a'.entity? o)
  parent : ∀ {o}, a.isLive (.object o) = true → a'.isLive (.object o) = true →
    a'.parent? o = a.parent? o
  native : ∀ {f}, a.isLive (.native f) = true → a'.isLive (.native f) = true →
    a'.natives[f.index]? = a.natives[f.index]?
  list : ∀ {r}, a.isLive (.list r) = true → a'.isLive (.list r) = true →
    ∃ xs, a.lists[r.index]? = some xs ∧ a'.lists[r.index]? = some xs
  map : ∀ {r}, a.isLive (.map r) = true → a'.isLive (.map r) = true →
    ∃ d, a.maps[r.index]? = some d ∧ a'.maps[r.index]? = some d

/-- What evaluations in two states can have in hand in the same place: what is there in both states,
and the containers that they make, one as the other. These have other references if there are
not as many in both states. -/
inductive Both (a a' : World) : Handle → Handle → Prop where
  | live {h : Handle} (here : a.isLive h = true) (there : a'.isLive h = true) : Both a a' h h
  | list (n : Nat) : Both a a' (.list ⟨a.lists.size + n⟩) (.list ⟨a'.lists.size + n⟩)
  | map (n : Nat) : Both a a' (.map ⟨a.maps.size + n⟩) (.map ⟨a'.maps.size + n⟩)

namespace Both
variable {a a' : World} {h h' : Handle}

theorem left (both : a.Both a' h h') : a.InHand h := by
  cases both with
  | live here _ => exact .inr here
  | list n => exact .inl (Nat.le_add_right ..)
  | map n => exact .inl (Nat.le_add_right ..)

theorem right (both : a.Both a' h h') : a'.InHand h' := by
  cases both with
  | live _ there => exact .inr there
  | list n => exact .inl (Nat.le_add_right ..)
  | map n => exact .inl (Nat.le_add_right ..)

/-- No object comes to be. -/
theorem object {o : ObjectId} (both : a.Both a' (.object o) h') :
    a.isLive (.object o) = true ∧ a'.isLive (.object o) = true := by
  cases both with
  | live here there => exact ⟨here, there⟩

theorem native {f : NativeRef} (both : a.Both a' (.native f) h') :
    a.isLive (.native f) = true ∧ a'.isLive (.native f) = true := by
  cases both with
  | live here there => exact ⟨here, there⟩

end Both

/-- Places in two tables that stand for each other: one that was there for itself, and those that
are added in their order. -/
inductive SamePlace (m m' : Nat) : Nat → Nat → Prop where
  | old {i : Nat} (here : i < m) (there : i < m') : SamePlace m m' i i
  | new (n : Nat) : SamePlace m m' (m + n) (m' + n)

theorem SamePlace.eq_iff {m m' i i' j j' : Nat} (first : SamePlace m m' i i')
    (other : SamePlace m m' j j') : i' = j' ↔ i = j := by
  cases first <;> cases other <;> omega

namespace Peers
variable {a a' : World} (peers : a.Peers a')
include peers

theorem listPlace {r r' : ListRef} (both : a.Both a' (.list r) (.list r')) :
    SamePlace a.lists.size a'.lists.size r.index r'.index := by
  cases both with
  | live here there =>
    obtain ⟨xs, here, there⟩ := peers.list here there
    exact .old (Array.getElem?_eq_some_iff.1 here).1 (Array.getElem?_eq_some_iff.1 there).1
  | list n => exact .new n

theorem mapPlace {r r' : MapRef} (both : a.Both a' (.map r) (.map r')) :
    SamePlace a.maps.size a'.maps.size r.index r'.index := by
  cases both with
  | live here there =>
    obtain ⟨d, here, there⟩ := peers.map here there
    exact .old (Array.getElem?_eq_some_iff.1 here).1 (Array.getElem?_eq_some_iff.1 there).1
  | map n => exact .new n

end Peers

/-! ### Names -/

namespace SamePlaces
variable {w w' : World} (places : w.SamePlaces w')
include places

theorem within (name : String) (fuel : Nat) (o : ObjectId) :
    w'.hasWithin name fuel o = w.hasWithin name fuel o ∧
      w'.nearestWithin name fuel o = w.nearestWithin name fuel o := by
  induction fuel generalizing o with
  | zero => exact ⟨by simp only [hasWithin], by simp only [nearestWithin]⟩
  | succ fuel ih =>
    constructor
    · have object := places.object o
      simp only [hasWithin]
      generalize w.entity? o = x, w'.entity? o = x' at object
      cases object with
      | same x =>
        rcases x with _ | d | c | ⟨p, t⟩
        · rfl
        · rfl
        · rfl
        · simp only [(ih p).2]
      | declared fixed => exact fixed.attributes name
    · simp only [nearestWithin, (ih o).1, places.parent o]
      split
      · rfl
      · cases w.parent? o with
        | none => rfl
        | some p => exact (ih p).2

theorem nearest? (o : ObjectId) (name : String) : w'.nearest? o name = w.nearest? o name :=
  (places.within name _ o).2

end SamePlaces

/-- Names are found in the same places, if nobody has a view. -/
theorem Peers.nearest? {a a' : World} (peers : a.Peers a')
    (plain : ∀ {o}, a.isLive (.object o) = true → a.Plain o) {o : ObjectId}
    (live : a.isLive (.object o) = true) (live' : a'.isLive (.object o) = true) (name : String) :
    a'.nearest? o name = a.nearest? o name := by
  have has (fuel : Nat) {o : ObjectId} (live : a.isLive (.object o) = true)
      (live' : a'.isLive (.object o) = true) :
      a'.hasWithin name fuel o = a.hasWithin name fuel o := by
    cases fuel with
    | zero => simp only [hasWithin]
    | succ fuel =>
      have object := peers.object live live'
      simp only [hasWithin]
      generalize here : a.entity? o = x, a'.entity? o = x' at object
      cases object with
      | same x =>
        rcases x with _ | d | c | ⟨p, t⟩
        · rfl
        · rfl
        · rfl
        · exact absurd here (plain live p t)
      | declared _ attributes => exact attributes name
  have within (fuel : Nat) {o : ObjectId} (live : a.isLive (.object o) = true)
      (live' : a'.isLive (.object o) = true) :
      a'.nearestWithin name fuel o = a.nearestWithin name fuel o := by
    induction fuel generalizing o with
    | zero => simp only [nearestWithin]
    | succ fuel ih =>
      have parents := peers.parent live live'
      simp only [nearestWithin, has fuel live live', parents]
      split
      · rfl
      · cases parent : a.parent? o with
        | none => rfl
        | some p =>
          rw [parent] at parents
          exact ih (Option.filter_eq_some_iff.1 parent).2 (Option.filter_eq_some_iff.1 parents).2
  exact within _ live live'

theorem Endures.samePlaces {a w : World} (endures : a.Endures w) : a.SamePlaces w where
  object o := by
    rw [endures.entity?]
    exact .same _
  parent := endures.parent?

/-! ### Attributes -/

variable {w w' : World} {d : Dependency}

/-- A read of the attribute evaluates nothing: it has a value if it has a read binding. -/
def Filled (w : World) (d : Dependency) : Prop :=
  w.handlerOf? d = none ∨ (w.valueOf? d).isSome

/-- The value of an attribute as it is, if there is such an attribute. -/
def glance (w : World) (d : Dependency) : Option Value :=
  match w.entity? d.object with
  | some (.declared x) => if x.hasAttribute d.name then some (w.valuation d) else none
  | some (.change c) => c.attribute? d.name
  | _ => none

/-- What reading an attribute of a value gives if nothing is evaluated. -/
def attr (w : World) (v : Value) (name : String) : Except BindError Value :=
  match v with
  | .object o =>
    match w.glance ⟨o, name⟩ with
    | some x => .ok x
    | none => .error (.noSuchAttribute (w.typeName o) name)
  | other => .error (.noSuchAttribute (w.typeNameOf other) name)

theorem readAttr_glance (filled : (w.glance d).isSome = true → w.Filled d)
    (plain : w.Plain d.object) (self : Performer) :
    readAttr self d.object d.name w = some (.ok (w.glance d), w) := by
  rcases entity : w.entity? d.object with _ | x | c | ⟨p, t⟩
  · simp only [readAttr, Action.read_bind, glance, entity]
    rfl
  · have known := (w.declared?_eq_some).2 entity
    have stored := valueOf?_of_declared known
    simp only [glance, entity]
    cases has : x.hasAttribute d.name with
    | false =>
      have unset : x.values.get? d.name = none := by
        rw [Declared.hasAttribute, Bool.or_eq_false_iff, Dict.contains] at has
        exact Option.not_isSome_iff_eq_none.1 (Bool.eq_false_iff.1 has.1)
      rw [readAttr_declared known, Action.holding, Action.within_apply]
      simp only [readDeclared, unset, has]
      rfl
    | true =>
      have shown : (w.glance d).isSome = true := by
        simp only [glance, entity, has]
        rfl
      rw [if_pos rfl, valuation]
      cases value : w.valueOf? d with
      | some v => exact readAttr_stored value self
      | none =>
        rcases filled shown with free | set
        · exact readAttr_free ⟨x, known, has⟩ value free self
        · rw [value] at set
          cases set
  · simp only [readAttr, Action.read_bind, glance, entity]
    rfl
  · exact absurd entity (plain p t)

theorem getAttr_attr {v : Value} {name : String}
    (quiet : ∀ o, v = .object o → w.Filled ⟨o, name⟩ ∧ w.Plain o) (self : Performer) :
    getAttr self v name w = some (w.attr v name, w) := by
  cases v with
  | object o =>
    obtain ⟨filled, plain⟩ := quiet o rfl
    show (readAttr self o name >>= _) w = _
    rw [Action.bind_apply, readAttr_glance (fun _ => filled) plain self]
    simp only [attr]
    cases w.glance ⟨o, name⟩ <;> rfl
  | _ => rfl

/-- What a name is found in has something to show for it. -/
theorem glance_of_nearest? {o p : ObjectId} {name : String} (found : w.nearest? o name = some p)
    (plain : w.Plain p) : (w.glance ⟨p, name⟩).isSome = true := by
  have has {fuel : Nat} (has : w.hasWithin name fuel p = true) :
      (w.glance ⟨p, name⟩).isSome = true := by
    cases fuel with
    | zero =>
      simp only [hasWithin] at has
      cases has
    | succ fuel =>
      simp only [hasWithin] at has
      rcases entity : w.entity? p with _ | x | c | ⟨q, t⟩
      · rw [entity] at has
        cases has
      · rw [entity] at has
        simp only [glance, entity]
        rw [if_pos has]
        rfl
      · rw [entity] at has
        simp only [glance, entity]
        exact has
      · exact absurd entity (plain q t)
  have within (fuel : Nat) (o : ObjectId) (found : w.nearestWithin name fuel o = some p) :
      (w.glance ⟨p, name⟩).isSome = true := by
    induction fuel generalizing o with
    | zero =>
      simp only [nearestWithin] at found
      cases found
    | succ fuel ih =>
      simp only [nearestWithin] at found
      split at found
      · next here =>
        cases found
        exact has here
      · split at found
        · next q _ => exact ih q found
        · cases found
  exact within _ o found

/-- Reading an attribute that has something to show gives something. -/
theorem readAttr_ne_none {self : Performer} (shows : (w.glance d).isSome = true) :
    readAttr self d.object d.name w ≠ some (.ok none, w') := by
  intro run
  rcases entity : w.entity? d.object with _ | x | c | ⟨p, t⟩
  · simp only [glance, entity] at shows
    cases shows
  · have has : x.hasAttribute d.name = true := by
      by_contra lacks
      simp only [glance, entity, if_neg lacks] at shows
      cases shows
    rw [readAttr_declared ((w.declared?_eq_some).2 entity)] at run
    obtain ⟨u, inner, _⟩ := Action.exists_of_holding run
    have last {w₁ w₂ : World} : (do
        return some ((← Action.read (·.stored? d.object d.name)).getD .null) :
          Action (Option Value)) w₁ ≠ some (.ok none, w₂) := nofun
    cases stored : x.values.get? d.name with
    | some v =>
      simp only [readDeclared, stored] at inner
      cases inner
    | none =>
      simp only [readDeclared, stored, has, Bool.not_true, Bool.false_eq_true, if_false] at inner
      cases engine : x.engine with
      | none =>
        rw [engine] at inner
        exact last inner
      | some e =>
        rw [engine] at inner
        dsimp only at inner
        rw [Action.read_bind] at inner
        split at inner
        · rcases Action.exists_of_bind inner with ⟨e, _, fails⟩ | ⟨_, w₃, _, ends⟩
          · cases fails
          · exact last ends
        · exact last inner
  · simp only [readAttr, Action.read_bind, glance, entity, Action.pure_apply, Option.some.injEq,
      Prod.mk.injEq, Except.ok.injEq] at run shows
    rw [run.1] at shows
    cases shows
  · simp only [glance, entity] at shows
    cases shows

/-- What an attribute has to show is held by its object. -/
theorem holds_of_glance {v : Value} (shows : w.glance d = some v) {h : Handle}
    (mem : h ∈ v.handles) : w.Holds (.object d.object) h := by
  have held {x : Entity} (entity : w.entity? d.object = some x) (mem : h ∈ x.handles) :
      w.Holds (.object d.object) h := by
    refine ⟨mem_holders.2 ?_, ?_⟩
    · exact (Array.getElem?_eq_some_iff.1 entity).1
    · rw [holds, entity]
      exact mem
  rcases entity : w.entity? d.object with _ | x | c | ⟨p, t⟩
  · simp only [glance, entity] at shows
    cases shows
  · simp only [glance, entity] at shows
    split at shows
    · cases shows
      rw [valuation, valueOf?_of_declared ((w.declared?_eq_some).2 entity)] at mem
      cases value : x.values.get? d.name with
      | none =>
        rw [value] at mem
        cases mem
      | some v =>
        rw [value] at mem
        refine held entity (List.mem_append_left _ (List.mem_append_left _ ?_))
        exact List.mem_flatMap.2 ⟨_, Dict.get?_eq_some.1 value, mem⟩
    · cases shows
  · simp only [glance, entity, Change.attribute?] at shows
    have mine : h ∈ (Entity.change c).handles := by
      show h ∈ .object c.owner :: c.old.handles ++ c.new.handles
      split at shows
      · cases shows
        cases mem
      · split at shows
        · cases shows
          exact List.mem_append_left _ (List.mem_cons.2 (.inl (List.mem_singleton.1 mem)))
        · split at shows
          · cases shows
            cases mem
          · split at shows
            · cases shows
              exact List.mem_append_left _ (List.mem_cons_of_mem _ mem)
            · split at shows
              · cases shows
                exact List.mem_append_right _ mem
              · cases shows
    exact held entity mine
  · simp only [glance, entity] at shows
    cases shows

theorem typeName_akin {w w' : World} {o : ObjectId} (akin : Akin (w.entity? o) (w'.entity? o)) :
    w'.typeName o = w.typeName o := by
  simp only [World.typeName]
  generalize w.entity? o = x, w'.entity? o = x' at akin
  cases akin with
  | same x => rfl
  | declared typeName _ => exact typeName

theorem isLive_of_item {r : ListRef} (live : w.isLive (.list r) = true) {xs : List Value}
    (there : w.lists[r.index]? = some xs) {h : Handle} (mem : h ∈ xs.flatMap Value.handles) :
    w.isLive h = true := by
  refine isLive_of_holds live ⟨mem_holders.2 (Array.getElem?_eq_some_iff.1 there).1, ?_⟩
  rw [holds, items, there]
  exact mem

theorem isLive_of_entry {r : MapRef} (live : w.isLive (.map r) = true) {x : Dict String Value}
    (there : w.maps[r.index]? = some x) {h : Handle} (mem : h ∈ x.handles) : w.isLive h = true := by
  refine isLive_of_holds live ⟨mem_holders.2 (Array.getElem?_eq_some_iff.1 there).1, ?_⟩
  rw [holds, entries, there]
  exact mem

/-- What two states both have, with what it holds, looks the same in both. -/
theorem Peers.looks {a a' : World} (peers : a.Peers a') : a.SameLooks (a.Both a') a' where
  nativeName both := by
    rw [World.nativeName, World.nativeName, peers.native both.native.1 both.native.2]
  typeName both := typeName_akin (peers.object both.object.1 both.object.2)
  items {r r'} both := by
    cases both with
    | live here there =>
      obtain ⟨xs, same, same'⟩ := peers.list here there
      have left : a.items r = xs := by rw [World.items, same]; rfl
      have right : a'.items r = xs := by rw [World.items, same']; rfl
      rw [left, right]
      refine List.forall₂_same.2 fun x mem => .refl fun h inside => ?_
      have held : h ∈ xs.flatMap Value.handles := List.mem_flatMap.2 ⟨x, mem, inside⟩
      exact .live (isLive_of_item here same held) (isLive_of_item there same' held)
    | list n =>
      rw [World.items, World.items, Array.getElem?_eq_none (Nat.le_add_right ..),
        Array.getElem?_eq_none (Nat.le_add_right ..)]
      exact .nil
  entries {r r'} both := by
    cases both with
    | live here there =>
      obtain ⟨d, same, same'⟩ := peers.map here there
      have left : a.entries r = d := by rw [World.entries, same]; rfl
      have right : a'.entries r = d := by rw [World.entries, same']; rfl
      rw [left, right]
      refine List.forall₂_same.2 fun e mem => ⟨rfl, .refl fun h inside => ?_⟩
      have held : h ∈ d.handles := List.mem_flatMap.2 ⟨e, mem, inside⟩
      exact .live (isLive_of_entry here same held) (isLive_of_entry there same' held)
    | map n =>
      rw [World.entries, World.entries, Array.getElem?_eq_none (Nat.le_add_right ..),
        Array.getElem?_eq_none (Nat.le_add_right ..)]
      exact .nil
  list {r r' s s'} first other := by
    have places := (peers.listPlace first).eq_iff (peers.listPlace other)
    obtain ⟨⟨r⟩, ⟨r'⟩, ⟨s⟩, ⟨s'⟩⟩ := r, r', s, s'
    simpa only [ListRef.mk.injEq] using places
  map {r r' s s'} first other := by
    have places := (peers.mapPlace first).eq_iff (peers.mapPlace other)
    obtain ⟨⟨r⟩, ⟨r'⟩, ⟨s⟩, ⟨s'⟩⟩ := r, r', s, s'
    simpa only [MapRef.mk.injEq] using places

theorem isLive_of_glance (live : w.isLive (.object d.object) = true) {v : Value}
    (shows : w.glance d = some v) {h : Handle} (mem : h ∈ v.handles) : w.isLive h = true :=
  isLive_of_holds live (holds_of_glance shows mem)

theorem Plain.akin {w w' : World} {o : ObjectId} (plain : w.Plain o)
    (akin : Akin (w.entity? o) (w'.entity? o)) : w'.Plain o := by
  intro p t there
  rw [there] at akin
  generalize here : w.entity? o = x at akin
  cases akin with
  | same => exact plain p t here

theorem glance_akin (akin : Akin (w.entity? d.object) (w'.entity? d.object))
    (same : w'.valueOf? d = w.valueOf? d) : w'.glance d = w.glance d := by
  simp only [World.glance, valuation, same]
  generalize w.entity? d.object = x, w'.entity? d.object = x' at akin
  cases akin with
  | same x => rfl
  | declared _ attributes => simp only [attributes]

theorem attr_akin {v : Value} {name : String}
    (akin : ∀ o, v = .object o → Akin (w.entity? o) (w'.entity? o))
    (same : ∀ o, v = .object o → w'.valueOf? ⟨o, name⟩ = w.valueOf? ⟨o, name⟩) :
    w'.attr v name = w.attr v name := by
  cases v with
  | object o =>
    have akin := akin o rfl
    simp only [World.attr, glance_akin (d := ⟨o, name⟩) akin (same o rfl), typeName_akin akin]
  | _ => rfl

end World

end LiveBinding
