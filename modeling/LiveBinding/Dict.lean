/-! Finite maps with one entry a key, in order of first insertion.

A `Dict` is a list of entries whose keys do not repeat, and the type says so. The
view of a dictionary is `get?`; each operation is described by what it does to
that view (`get?_insert`, `get?_erase`), and nothing else needs to look at the
list. -/
namespace LiveBinding

/-- A finite map; `entries` are in order of first insertion. -/
structure Dict (κ α : Type) where
  entries : List (κ × α)
  nodup : (entries.map Prod.fst).Nodup

namespace Dict
variable {κ α : Type}

def empty : Dict κ α := ⟨[], .nil⟩

instance : Inhabited (Dict κ α) := ⟨empty⟩

def keys (d : Dict κ α) : List κ := d.entries.map Prod.fst

def size (d : Dict κ α) : Nat := d.entries.length

section
variable [DecidableEq κ]

/-! ### Entries -/

/-- The value beside the first occurrence of a key. -/
def find (k : κ) : List (κ × α) → Option α
  | [] => none
  | (k', v) :: rest => if k' = k then some v else find k rest

/-- Replaces the value beside a key, or adds the entry at the end. -/
def put (k : κ) (v : α) : List (κ × α) → List (κ × α)
  | [] => [(k, v)]
  | (k', v') :: rest => if k' = k then (k, v) :: rest else (k', v') :: put k v rest

theorem keys_put (k : κ) (v : α) (es : List (κ × α)) :
    (put k v es).map Prod.fst =
      if k ∈ es.map Prod.fst then es.map Prod.fst else es.map Prod.fst ++ [k] := by
  induction es with
  | nil => simp [put]
  | cons e rest ih =>
    obtain ⟨k', v'⟩ := e
    by_cases h : k' = k
    · simp [put, h]
    · have h' : ¬k = k' := fun he => h he.symm
      simp only [put, h, if_false, List.map_cons, ih, List.mem_cons, h', false_or]
      split <;> simp

theorem nodup_put {k : κ} {v : α} {es : List (κ × α)} (h : (es.map Prod.fst).Nodup) :
    ((put k v es).map Prod.fst).Nodup := by
  rw [keys_put]
  split
  · exact h
  · next hk =>
    refine List.nodup_append.mpr ⟨h, by simp, ?_⟩
    intro a ha b hb he
    rw [List.mem_singleton.mp hb] at he
    exact hk (he ▸ ha)

omit [DecidableEq κ] in
theorem nodup_filter {p : κ × α → Bool} {es : List (κ × α)} (h : (es.map Prod.fst).Nodup) :
    ((es.filter p).map Prod.fst).Nodup :=
  h.sublist (List.filter_sublist.map _)

theorem find_put (k k' : κ) (v : α) (es : List (κ × α)) :
    find k' (put k v es) = if k = k' then some v else find k' es := by
  induction es with
  | nil => simp [put, find]
  | cons e rest ih =>
    obtain ⟨j, w⟩ := e
    by_cases h : j = k
    · subst h
      by_cases h' : j = k' <;> simp [put, find, h']
    · by_cases h' : j = k'
      · subst h'
        simp [put, find, h, Ne.symm h]
      · simp [put, find, h, h', ih]

theorem find_filter_ne (k k' : κ) (es : List (κ × α)) :
    find k' (es.filter fun e => !decide (e.1 = k)) = if k = k' then none else find k' es := by
  induction es with
  | nil => simp [find]
  | cons e rest ih =>
    obtain ⟨j, w⟩ := e
    by_cases h : j = k
    · subst h
      by_cases h' : j = k'
      · subst h'
        simpa using ih
      · simpa [find, h'] using ih
    · by_cases h' : j = k'
      · subst h'
        simp [find, h, Ne.symm h]
      · simp [find, h, h', ih]

theorem find_eq_some {k : κ} {v : α} {es : List (κ × α)} (nodup : (es.map Prod.fst).Nodup) :
    find k es = some v ↔ (k, v) ∈ es := by
  induction es with
  | nil => simp [find]
  | cons e rest ih =>
    obtain ⟨j, w⟩ := e
    rw [List.map_cons, List.nodup_cons] at nodup
    have only : (k, v) ∈ rest → j ≠ k := by
      intro mem same
      subst same
      exact nodup.1 (List.mem_map.2 ⟨_, mem, rfl⟩)
    by_cases h : j = k
    · subst h
      have out : (j, v) ∉ rest := fun mem => only mem rfl
      simp [find, out, eq_comm]
    · have h' : ¬k = j := fun he => h he.symm
      simp [find, h, h', ih nodup.2]

/-! ### Operations -/

def get? (d : Dict κ α) (k : κ) : Option α := find k d.entries

def contains (d : Dict κ α) (k : κ) : Bool := (d.get? k).isSome

def insert (d : Dict κ α) (k : κ) (v : α) : Dict κ α := ⟨put k v d.entries, nodup_put d.nodup⟩

def erase (d : Dict κ α) (k : κ) : Dict κ α :=
  ⟨d.entries.filter fun e => !decide (e.1 = k), nodup_filter d.nodup⟩

/-- Puts entries in one after the other. -/
def insertAll (d : Dict κ α) (es : List (κ × α)) : Dict κ α :=
  es.foldl (fun d e => d.insert e.1 e.2) d

/-- Later entries replace earlier ones of the same key. -/
def ofList (es : List (κ × α)) : Dict κ α := empty.insertAll es

/-- The view of a dictionary is its entries. -/
theorem get?_eq_some {d : Dict κ α} {k : κ} {v : α} : d.get? k = some v ↔ (k, v) ∈ d.entries :=
  find_eq_some d.nodup

theorem mem_keys {d : Dict κ α} {k : κ} : k ∈ d.keys ↔ d.contains k = true := by
  rw [keys, List.mem_map, contains, Option.isSome_iff_exists]
  constructor
  · rintro ⟨⟨k, v⟩, mem, rfl⟩
    exact ⟨v, get?_eq_some.2 mem⟩
  · rintro ⟨v, found⟩
    exact ⟨(k, v), get?_eq_some.1 found, rfl⟩

@[simp] theorem get?_empty (k : κ) : (empty : Dict κ α).get? k = none := rfl

theorem get?_insert (d : Dict κ α) (k k' : κ) (v : α) :
    (d.insert k v).get? k' = if k = k' then some v else d.get? k' := find_put ..

@[simp] theorem get?_insert_self (d : Dict κ α) (k : κ) (v : α) :
    (d.insert k v).get? k = some v := by simp [get?_insert]

theorem get?_erase (d : Dict κ α) (k k' : κ) :
    (d.erase k).get? k' = if k = k' then none else d.get? k' := find_filter_ne ..

@[simp] theorem get?_erase_self (d : Dict κ α) (k : κ) : (d.erase k).get? k = none := by
  simp [get?_erase]

@[simp] theorem contains_empty (k : κ) : (empty : Dict κ α).contains k = false := rfl

theorem contains_insert (d : Dict κ α) (k k' : κ) (v : α) :
    (d.insert k v).contains k' = true ↔ k = k' ∨ d.contains k' = true := by
  rw [contains, get?_insert]
  split <;> simp_all [contains]

end

end Dict

end LiveBinding
