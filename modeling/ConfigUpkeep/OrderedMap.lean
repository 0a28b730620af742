/-
# ConfigUpkeep.OrderedMap -- finite maps that remember the order of their keys

A map is its list of bindings.  Writing a key that is present replaces its value
where it stands; writing a new key adds it at the end.  So the keys come in the
order of their first writing and the values are the last ones written.

`get?_insert` is the law of look-up.  The type does not ask that keys differ; every
map built by `insert` from the empty one has different keys (`keys_insert`,
`nodup_insert`).
-/

namespace ConfigUpkeep

set_option autoImplicit false

universe u v

/-- A map from keys to values that keeps the order in which keys were first written. -/
structure OrderedMap (κ : Type u) (β : Type v) where
  toList : List (κ × β)
  deriving DecidableEq, Repr

namespace OrderedMap

variable {κ : Type u} {β : Type v} [DecidableEq κ]

def empty : OrderedMap κ β := ⟨[]⟩

/-- Write a binding into a list of bindings: in place if the key is there, else at the end. -/
def write (key : κ) (value : β) : List (κ × β) → List (κ × β)
  | [] => [(key, value)]
  | binding :: rest =>
      if binding.1 = key then (key, value) :: rest else binding :: write key value rest

def insert (map : OrderedMap κ β) (key : κ) (value : β) : OrderedMap κ β :=
  ⟨write key value map.toList⟩

/-- The value of the key, if it has one. -/
def get? (map : OrderedMap κ β) (key : κ) : Option β :=
  (map.toList.find? fun binding => binding.1 = key).map Prod.snd

def keys (map : OrderedMap κ β) : List κ := map.toList.map Prod.fst

/-- Write the bindings of a list, one after another. -/
def insertAll (map : OrderedMap κ β) (bindings : List (κ × β)) : OrderedMap κ β :=
  bindings.foldl (fun built binding => built.insert binding.1 binding.2) map

def ofList (bindings : List (κ × β)) : OrderedMap κ β := empty.insertAll bindings

/-- Add a value at the end of the key's list of values. -/
def addTo {γ : Type v} (map : OrderedMap κ (List γ)) (key : κ) (value : γ) :
    OrderedMap κ (List γ) :=
  map.insert key ((map.get? key).getD [] ++ [value])

/-- The values of each key of a list of bindings, in order. -/
def groups {γ : Type v} (bindings : List (κ × γ)) : OrderedMap κ (List γ) :=
  bindings.foldl (fun built binding => built.addTo binding.1 binding.2) empty

/-! ## Look-up after writing -/

@[simp] theorem get?_empty (key : κ) : (empty : OrderedMap κ β).get? key = none := rfl

/-- A written key has the value written; every other key keeps its value. -/
theorem get?_insert (map : OrderedMap κ β) (key other : κ) (value : β) :
    (map.insert key value).get? other = if key = other then some value else map.get? other := by
  obtain ⟨bindings⟩ := map
  simp only [insert, get?]
  induction bindings with
  | nil => by_cases same : key = other <;> simp [write, same]
  | cons binding rest ih =>
      by_cases here : binding.1 = key
      · by_cases same : key = other
        · simp [write, here, same]
        · simp [write, here, same]
      · by_cases found : binding.1 = other
        · have apart : key ≠ other := fun e => here (found.trans e.symm)
          simp [write, found, apart, apart.symm]
        · simpa [write, here, found] using ih

/-- Writing keeps the order of the keys that are present. -/
theorem keys_insert (map : OrderedMap κ β) (key : κ) (value : β) :
    (map.insert key value).keys = if key ∈ map.keys then map.keys else map.keys ++ [key] := by
  obtain ⟨bindings⟩ := map
  simp only [insert, keys]
  induction bindings with
  | nil => simp [write]
  | cons binding rest ih =>
      by_cases here : binding.1 = key
      · simp [write, here]
      · have apart : ¬ key = binding.1 := fun e => here e.symm
        simp only [write, here, if_false, List.map_cons, List.mem_cons, apart, false_or]
        by_cases later : key ∈ rest.map Prod.fst
        · simpa [later] using ih
        · simpa [later] using ih

/-- Writing keeps the keys different. -/
theorem nodup_insert {map : OrderedMap κ β} (distinct : map.keys.Nodup) (key : κ) (value : β) :
    (map.insert key value).keys.Nodup := by
  rw [keys_insert]
  split
  · exact distinct
  · rename_i fresh
    rw [List.nodup_append]
    refine ⟨distinct, by simp, fun a here b there => ?_⟩
    rw [List.mem_singleton] at there
    rintro rfl
    exact fresh (there ▸ here)

/-- Where the keys are different, every binding is found by its key. -/
theorem get?_of_mem {map : OrderedMap κ β} (distinct : map.keys.Nodup) {binding : κ × β}
    (member : binding ∈ map.toList) : map.get? binding.1 = some binding.2 := by
  obtain ⟨bindings⟩ := map
  simp only [keys, get?] at distinct member ⊢
  induction bindings with
  | nil => cases member
  | cons first rest ih =>
      obtain ⟨apart, distinct⟩ := List.nodup_cons.1 distinct
      rcases List.mem_cons.1 member with rfl | later
      · simp
      · have other : first.1 ≠ binding.1 := fun same =>
          apart (same ▸ List.mem_map_of_mem later)
        rw [List.find?_cons_of_neg (by simpa using other)]
        exact ih distinct later

end OrderedMap

end ConfigUpkeep
