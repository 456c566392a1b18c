/-!
# Insertion-ordered maps

Finite maps that remember the order in which their keys came in. Giving a key a new value leaves it
in its place, and a new key goes to the end. Models, adjacency lists and component numbers are such
maps, because answers list them in this order.
-/

namespace Clausal

/-- A finite map whose keys are kept in the order of their first insertion. -/
structure OrderedMap (α β : Type) where
  entries : List (α × β)
  nodup : (entries.map Prod.fst).Nodup

namespace OrderedMap

variable {α β : Type} [DecidableEq α]

/-- The value of the first entry with key `k`. -/
def lookup (k : α) : List (α × β) → Option β
  | [] => none
  | (k', b) :: rest => if k' = k then some b else lookup k rest

/-- Applies `f` to the value of `k`, or puts a new entry for `k` at the end. -/
def alterEntries (k : α) (f : Option β → β) : List (α × β) → List (α × β)
  | [] => [(k, f none)]
  | (k', b) :: rest => if k' = k then (k', f (some b)) :: rest else (k', b) :: alterEntries k f rest

/-- Altering the value of a key keeps the order of the keys; a new key goes to the end. -/
theorem keys_alterEntries (k : α) (f : Option β → β) (l : List (α × β)) :
    (alterEntries k f l).map Prod.fst =
      if k ∈ l.map Prod.fst then l.map Prod.fst else l.map Prod.fst ++ [k] := by
  induction l with
  | nil => simp [alterEntries]
  | cons e rest ih =>
    obtain ⟨k', b⟩ := e
    by_cases h : k' = k
    · simp [alterEntries, h]
    · have h' : ¬ k = k' := fun e => h e.symm
      simp only [alterEntries, h, ↓reduceIte, List.map_cons, ih, List.mem_cons, h', false_or]
      split <;> simp

/-- Altering the value of a key repeats no key. -/
theorem nodup_alterEntries {k : α} {f : Option β → β} {l : List (α × β)}
    (h : (l.map Prod.fst).Nodup) : ((alterEntries k f l).map Prod.fst).Nodup := by
  rw [keys_alterEntries]
  split
  · exact h
  · next hk =>
    rw [List.nodup_append]
    refine ⟨h, by simp, ?_⟩
    intro a ha b hb
    rw [List.mem_singleton] at hb
    rintro rfl
    exact hk (hb ▸ ha)

/-- The map without entries. -/
def empty : OrderedMap α β := ⟨[], List.nodup_nil⟩

/-- The keys in the order of their first insertion. -/
def keys (m : OrderedMap α β) : List α := m.entries.map Prod.fst

/-- The values in the order of their keys. -/
def values (m : OrderedMap α β) : List β := m.entries.map Prod.snd

/-- The value of a key. -/
def find? (m : OrderedMap α β) (k : α) : Option β := lookup k m.entries

/-- Whether a key has a value. -/
def contains (m : OrderedMap α β) (k : α) : Bool := (m.find? k).isSome

/-- The number of keys. -/
def size (m : OrderedMap α β) : Nat := m.entries.length

/-- Gives `k` the value `f` of its present value. -/
def alter (m : OrderedMap α β) (k : α) (f : Option β → β) : OrderedMap α β :=
  ⟨alterEntries k f m.entries, nodup_alterEntries m.nodup⟩

/-- Gives `k` the value `b`. -/
def insert (m : OrderedMap α β) (k : α) (b : β) : OrderedMap α β := m.alter k fun _ => b

/-- The map of a list of entries, where the last value of a key counts. -/
def ofList (l : List (α × β)) : OrderedMap α β := l.foldl (fun m e => m.insert e.1 e.2) empty

omit [DecidableEq α] in
/-- The empty map has no keys. -/
@[simp]
theorem keys_empty : (empty : OrderedMap α β).keys = [] := rfl

/-- The empty map has no value for any key. -/
@[simp]
theorem find?_empty (k : α) : (empty : OrderedMap α β).find? k = none := rfl

/-- The altered map has the same keys in the same order, with a new key at the end. -/
theorem keys_alter (m : OrderedMap α β) (k : α) (f : Option β → β) :
    (m.alter k f).keys = if k ∈ m.keys then m.keys else m.keys ++ [k] :=
  keys_alterEntries k f m.entries

/-- Altering the value of a key changes no other value. -/
theorem find?_alter (m : OrderedMap α β) (k : α) (f : Option β → β) (k' : α) :
    (m.alter k f).find? k' = if k' = k then some (f (m.find? k)) else m.find? k' := by
  obtain ⟨l, hl⟩ := m
  simp only [alter, find?]
  clear hl
  induction l with
  | nil => by_cases h : k = k' <;> simp [alterEntries, lookup, h, eq_comm]
  | cons e rest ih =>
    obtain ⟨k₀, b⟩ := e
    by_cases h : k₀ = k
    · subst h
      by_cases h' : k₀ = k'
      · simp [alterEntries, lookup, h']
      · have h'' : ¬ k' = k₀ := fun e => h' e.symm
        simp [alterEntries, lookup, h', h'']
    · by_cases h' : k₀ = k'
      · subst h'
        simp [alterEntries, lookup, h]
      · simp [alterEntries, lookup, h, h', ih]

/-- Giving a key a value changes no other value. -/
theorem find?_insert (m : OrderedMap α β) (k : α) (b : β) (k' : α) :
    (m.insert k b).find? k' = if k' = k then some b else m.find? k' := by
  simp only [insert, find?_alter]

/-- Giving a key a value keeps the keys in their order, with a new key at the end. -/
theorem keys_insert (m : OrderedMap α β) (k : α) (b : β) :
    (m.insert k b).keys = if k ∈ m.keys then m.keys else m.keys ++ [k] :=
  keys_alter m k _

/-- A key has a value exactly if it is listed. -/
theorem isSome_find?_iff (m : OrderedMap α β) (k : α) : (m.find? k).isSome = true ↔ k ∈ m.keys := by
  obtain ⟨l, hl⟩ := m
  simp only [find?, keys]
  clear hl
  induction l with
  | nil => simp [lookup]
  | cons e rest ih =>
    obtain ⟨k₀, b⟩ := e
    by_cases h : k₀ = k
    · simp [lookup, h]
    · have h' : ¬ k = k₀ := fun e => h e.symm
      simp [lookup, h, h', ih]

/-- The keys with a value are the listed ones. -/
theorem contains_iff {m : OrderedMap α β} {k : α} : m.contains k = true ↔ k ∈ m.keys :=
  isSome_find?_iff m k

end OrderedMap

end Clausal
