/-
# ConfigUpkeep.Document.Alias -- shorthands, and what they do to keys

The alias table gives a repository's canonical name a shorthand.  Keyed tables may
be written with either; a key is *resolved* by replacing a canonical name with its
shorthand and keeping everything else.  Where two entries disagree the later one
counts, so every ambiguity is settled, and `Alias.conflicts` reports those that were.

Main laws: `Alias.shorthandOf?_append_singleton` (the last entry for a canonical
name counts), `Alias.exists_of_shorthandOf?` (it is the shorthand of an alias for the
name), `Alias.get?_shorthands` (the map of all shorthands agrees with it) and
`Conflict.winner_eq` (a report names the shorthand that counts).
-/
import ConfigUpkeep.OrderedMap
import ConfigUpkeep.Document.Entry

namespace ConfigUpkeep

set_option autoImplicit false

/-- An entry of the alias table: a shorthand for a canonical name. -/
structure Alias where
  shorthand : Text
  canonical : Text
  deriving DecidableEq, Repr

/-- Two or more alias entries that disagree. -/
inductive Conflict where
  /-- One canonical name has several shorthands. -/
  | canonicalReused (canonical : Text) (shorthands : List Text)
  /-- One shorthand stands for several canonical names. -/
  | shorthandRedefined (shorthand : Text) (canonicals : List Text)
  deriving DecidableEq, Repr

namespace Alias

def ofEntry (entry : Entry) : Alias := ⟨entry.key, entry.value⟩

def toEntry (alias_ : Alias) : Entry := ⟨alias_.shorthand, alias_.canonical⟩

@[simp] theorem toEntry_ofEntry (entry : Entry) : (ofEntry entry).toEntry = entry := rfl

@[simp] theorem ofEntry_toEntry (alias_ : Alias) : ofEntry alias_.toEntry = alias_ := rfl

def ofDocument (document : Text) : List Alias := (Table.aliases.entries document).map ofEntry

/-- The shorthand that counts for a canonical name: the last one given. -/
def shorthandOf? (aliases : List Alias) (canonical : Text) : Option Text :=
  (aliases.reverse.find? fun a => a.canonical = canonical).map Alias.shorthand

/-- The canonical names, each once and in order of first occurrence, with the shorthand
that counts for each. -/
def shorthands (aliases : List Alias) : OrderedMap Text Text :=
  .ofList (aliases.map fun a => (a.canonical, a.shorthand))

/-- A canonical name becomes its shorthand; any other key stays as it is. -/
def resolveKey (aliases : List Alias) (key : Text) : Text := (shorthandOf? aliases key).getD key

def resolveEntry (aliases : List Alias) (entry : Entry) : Entry :=
  ⟨resolveKey aliases entry.key, entry.value⟩

/-- The last entry for a canonical name counts. -/
theorem shorthandOf?_append_singleton (aliases : List Alias) (a : Alias) (canonical : Text) :
    shorthandOf? (aliases ++ [a]) canonical =
      if a.canonical = canonical then some a.shorthand else shorthandOf? aliases canonical := by
  by_cases same : a.canonical = canonical <;> simp [shorthandOf?, same]

/-- The map of shorthands has the shorthand that counts. -/
theorem get?_shorthands (aliases : List Alias) (canonical : Text) :
    (shorthands aliases).get? canonical = shorthandOf? aliases canonical := by
  have backwards (back : List Alias) :
      (shorthands back.reverse).get? canonical = shorthandOf? back.reverse canonical := by
    induction back with
    | nil => rfl
    | cons a back ih =>
        rw [List.reverse_cons, shorthandOf?_append_singleton, ← ih]
        simp only [shorthands, List.map_append, List.map_cons, List.map_nil, OrderedMap.ofList,
          OrderedMap.insertAll, List.foldl_append, List.foldl_cons, List.foldl_nil]
        exact OrderedMap.get?_insert _ _ _ _
  simpa using backwards aliases.reverse

section

variable {aliases : List Alias} {key shorthand : Text}

/-- The shorthand that counts for a name is that of an alias for it. -/
theorem exists_of_shorthandOf? (short : shorthandOf? aliases key = some shorthand) :
    ∃ a ∈ aliases, a.canonical = key ∧ a.shorthand = shorthand := by
  obtain ⟨a, last, same⟩ := Option.map_eq_some_iff.1 short
  refine ⟨a, List.mem_reverse.1 (List.mem_of_find?_eq_some last), ?_, same⟩
  simpa using List.find?_some last

/-- No shorthand counts for a name exactly if there is no alias for it. -/
theorem shorthandOf?_eq_none_iff :
    shorthandOf? aliases key = none ↔ ∀ a ∈ aliases, a.canonical ≠ key := by
  simp [shorthandOf?]

theorem resolveKey_of_some (short : shorthandOf? aliases key = some shorthand) :
    resolveKey aliases key = shorthand := by
  rw [resolveKey, short]
  rfl

theorem resolveKey_of_none (short : shorthandOf? aliases key = none) :
    resolveKey aliases key = key := by
  rw [resolveKey, short]
  rfl

end

/-! ## Conflicts -/

/-- The groups with two members or more. -/
def repeated (groups : OrderedMap Text (List Text)) : List (Text × List Text) :=
  groups.toList.filter fun group => decide (1 < group.2.length)

/-- The disagreements in a list of aliases: first the canonical names with several
entries, then the shorthands with several entries, each in order of first occurrence
and with all that its entries say. -/
def conflicts (aliases : List Alias) : List Conflict :=
  let byCanonical := OrderedMap.groups (aliases.map fun a => (a.canonical, a.shorthand))
  let byShorthand := OrderedMap.groups (aliases.map fun a => (a.shorthand, a.canonical))
  (repeated byCanonical).map (fun group => .canonicalReused group.1 group.2) ++
    (repeated byShorthand).map fun group => .shorthandRedefined group.1 group.2

end Alias

namespace Conflict

/-- The shorthand that keys resolve to when a canonical name has several. -/
def winner (canonical : Text) (shorthands : List Text) : Text :=
  shorthands.getLast?.getD canonical

/-- What the user is told about the conflict. -/
def describe : Conflict → Text
  | .shorthandRedefined shorthand canonicals =>
      "Shorthand " ++ shorthand ++ " is defined more than once (" ++
        Text.joined ", " canonicals ++ ")"
  | .canonicalReused canonical shorthands =>
      canonical ++ " has several shorthands (" ++ Text.joined ", " shorthands ++
        "); keys resolve to " ++ winner canonical shorthands

/-- The shorthand that counts for a canonical name is the last of those given to it. -/
theorem winner_eq (aliases : List Alias) (canonical : Text) :
    winner canonical
        ((aliases.filter fun a => decide (a.canonical = canonical)).map Alias.shorthand) =
      Alias.resolveKey aliases canonical := by
  have last (back : List Alias) :
      (((back.reverse.filter fun a => decide (a.canonical = canonical)).map
        Alias.shorthand).getLast?) = Alias.shorthandOf? back.reverse canonical := by
    induction back with
    | nil => rfl
    | cons a back ih =>
        rw [List.reverse_cons, Alias.shorthandOf?_append_singleton, List.filter_append]
        by_cases same : a.canonical = canonical
        · simp [same]
        · simpa [same] using ih
  have := last aliases.reverse
  rw [List.reverse_reverse] at this
  rw [winner, this, Alias.resolveKey]

end Conflict

end ConfigUpkeep
