/-
# ConfigUpkeep.Proofs.Conflicts -- reports of conflicting aliases are exact

`Alias.conflicts` groups the aliases of a document twice, by canonical name and by
shorthand, and reports every group with two members or more.  This module says what the
report holds without grouping:

* the groups of a list of bindings are its keys, each once and in order of first
  occurrence, each with the values that the list gives it (`OrderedMap.toList_groups`);
* so the groups that are reported belong to the names that occur several times
  (`Alias.repeated_groups`), and there are none exactly if no name does
  (`Alias.reused_eq_nil_iff`).

Resolving keys goes another way: it writes all aliases into a map, in which later ones
replace earlier ones.  The shorthand that a report calls the winner is the one in that map
(`Alias.conflicts_exact`).
-/
import Mathlib.Data.List.Nodup
import ConfigUpkeep.Document.Alias
import ConfigUpkeep.Proofs.Lists

namespace ConfigUpkeep

set_option autoImplicit false

/-! ## Groups -/

namespace OrderedMap

universe u v

variable {κ : Type u} {γ : Type v} [DecidableEq κ]

/-- The values that a list of bindings gives a key, in order. -/
def valuesOf (key : κ) (bindings : List (κ × γ)) : List γ :=
  (bindings.filter fun binding => decide (binding.1 = key)).map Prod.snd

theorem groups_append_singleton (bindings : List (κ × γ)) (binding : κ × γ) :
    groups (bindings ++ [binding]) = (groups bindings).addTo binding.1 binding.2 := by
  simp [groups]

theorem valuesOf_append_singleton (key : κ) (bindings : List (κ × γ)) (binding : κ × γ) :
    valuesOf key (bindings ++ [binding]) =
      if binding.1 = key then valuesOf key bindings ++ [binding.2] else valuesOf key bindings := by
  by_cases same : binding.1 = key <;> simp [valuesOf, same]

/-- The values that a key is given are as many as its occurrences. -/
theorem length_valuesOf (key : κ) (bindings : List (κ × γ)) :
    (valuesOf key bindings).length = (bindings.map Prod.fst).count key := by
  rw [valuesOf, List.length_map, ← List.countP_eq_length_filter, List.count, List.countP_map]
  rfl

/-- The groups come in order of the first occurrence of their keys. -/
theorem keys_groups (bindings : List (κ × γ)) :
    (groups bindings).keys = (bindings.map Prod.fst).eraseDups := by
  induction bindings using List.reverseRecOn with
  | nil => rfl
  | append_singleton bindings binding ih =>
      rw [groups_append_singleton, addTo, keys_insert, ih, List.map_append, List.map_singleton]
      by_cases known : binding.1 ∈ bindings.map Prod.fst
      · rw [if_pos (List.mem_eraseDups.2 known), List.eraseDups_append_of_mem known]
      · rw [if_neg (mt List.mem_eraseDups.1 known), List.eraseDups_append_of_not_mem known]

/-- A group has the values that the bindings give its key, in order. -/
theorem getD_get?_groups (key : κ) (bindings : List (κ × γ)) :
    ((groups bindings).get? key).getD [] = valuesOf key bindings := by
  induction bindings using List.reverseRecOn with
  | nil => rfl
  | append_singleton bindings binding ih =>
      rw [groups_append_singleton, addTo, get?_insert, valuesOf_append_singleton]
      by_cases same : binding.1 = key
      · subst same
        rw [if_pos rfl, if_pos rfl, ih]
        rfl
      · rw [if_neg same, if_neg same, ih]

theorem nodup_groups (bindings : List (κ × γ)) : (groups bindings).keys.Nodup := by
  induction bindings using List.reverseRecOn with
  | nil => exact List.nodup_nil
  | append_singleton bindings binding ih =>
      rw [groups_append_singleton]
      exact nodup_insert ih _ _

/-- **The groups of a list of bindings**: each key once, in order of first occurrence, with the
values that it is given. -/
theorem toList_groups (bindings : List (κ × γ)) :
    (groups bindings).toList =
      (bindings.map Prod.fst).eraseDups.map fun key => (key, valuesOf key bindings) := by
  have found : ∀ group ∈ (groups bindings).toList,
      group = (group.1, valuesOf group.1 bindings) := by
    intro group member
    rw [← getD_get?_groups, get?_of_mem (nodup_groups bindings) member]
    rfl
  rw [← keys_groups, keys, List.map_map]
  calc (groups bindings).toList = (groups bindings).toList.map id := (List.map_id _).symm
    _ = _ := List.map_congr_left found

end OrderedMap

/-! ## Names that occur several times -/

namespace Alias

/-- The names that occur several times, each once and in order of first occurrence. -/
def reused {κ : Type} [DecidableEq κ] (names : List κ) : List κ :=
  names.eraseDups.filter fun name => decide (1 < names.count name)

section

variable {κ : Type} [DecidableEq κ] {names : List κ} {name : κ}

theorem mem_reused : name ∈ reused names ↔ 1 < names.count name := by
  rw [reused, List.mem_filter, List.mem_eraseDups, decide_eq_true_iff]
  exact ⟨fun both => both.2, fun several => ⟨List.count_pos_iff.1 (by omega), several⟩⟩

/-- No name is reused exactly if the names are different. -/
theorem reused_eq_nil_iff : reused names = [] ↔ names.Nodup := by
  rw [List.nodup_iff_count_le_one, List.eq_nil_iff_forall_not_mem]
  simp only [mem_reused, Nat.not_lt]

theorem mem_of_mem_reused (member : name ∈ reused names) : name ∈ names := by
  have several := mem_reused.1 member
  exact List.count_pos_iff.1 (by omega)

end

/-- The groups with two members or more are those of the names that occur several times. -/
theorem repeated_groups (bindings : List (Text × Text)) :
    repeated (OrderedMap.groups bindings) = (reused (bindings.map Prod.fst)).map fun name =>
      (name, OrderedMap.valuesOf name bindings) := by
  rw [repeated, OrderedMap.toList_groups, List.filter_map, reused]
  simp only [Function.comp_def, OrderedMap.length_valuesOf]

/-! ## The report -/

/-- The shorthands that the aliases give a canonical name, in order. -/
def shorthandsOf (canonical : Text) (aliases : List Alias) : List Text :=
  (aliases.filter fun a => decide (a.canonical = canonical)).map Alias.shorthand

/-- The canonical names that the aliases give a shorthand, in order. -/
def canonicalsOf (shorthand : Text) (aliases : List Alias) : List Text :=
  (aliases.filter fun a => decide (a.shorthand = shorthand)).map Alias.canonical

/-- What is reported: the canonical names with several shorthands, and then the shorthands with
several canonical names. -/
theorem conflicts_eq (aliases : List Alias) :
    conflicts aliases =
      (reused (aliases.map Alias.canonical)).map (fun canonical =>
          .canonicalReused canonical (shorthandsOf canonical aliases)) ++
        (reused (aliases.map Alias.shorthand)).map fun shorthand =>
          .shorthandRedefined shorthand (canonicalsOf shorthand aliases) := by
  simp only [conflicts, repeated_groups, List.map_map, Function.comp_def, OrderedMap.valuesOf,
    List.filter_map, shorthandsOf, canonicalsOf]

/-- A canonical name that some alias has resolves to the shorthand in the map. -/
theorem get?_shorthands_of_mem {aliases : List Alias} {canonical : Text}
    (member : canonical ∈ aliases.map Alias.canonical) :
    (shorthands aliases).get? canonical = some (resolveKey aliases canonical) := by
  obtain ⟨a, listed, named⟩ := List.mem_map.1 member
  rw [get?_shorthands]
  cases found : shorthandOf? aliases canonical with
  | none => exact absurd named (shorthandOf?_eq_none_iff.1 found a listed)
  | some shorthand => rw [resolveKey_of_some found]

/-- **Reports of conflicts are sound, complete, and name the winner.**  First come the canonical
names that several aliases have, each once and in order of first occurrence, with all their
shorthands, and then likewise the shorthands.  There is nothing to report exactly if all
canonical names are different and all shorthands are.  The winner in the report on a canonical
name is what keys resolve to. -/
theorem conflicts_exact (aliases : List Alias) :
    conflicts aliases =
        (reused (aliases.map Alias.canonical)).map (fun canonical =>
            .canonicalReused canonical (shorthandsOf canonical aliases)) ++
          (reused (aliases.map Alias.shorthand)).map (fun shorthand =>
            .shorthandRedefined shorthand (canonicalsOf shorthand aliases)) ∧
      (conflicts aliases = [] ↔
        (aliases.map Alias.canonical).Nodup ∧ (aliases.map Alias.shorthand).Nodup) ∧
      ∀ canonical shorthands, .canonicalReused canonical shorthands ∈ conflicts aliases →
        ∃ winner, (Alias.shorthands aliases).get? canonical = some winner ∧
          resolveKey aliases canonical = winner ∧
          (Conflict.canonicalReused canonical shorthands).describe =
            canonical ++ " has several shorthands (" ++ Text.joined ", " shorthands ++
              "); keys resolve to " ++ winner := by
  refine ⟨conflicts_eq aliases, ?_, fun canonical shorthands reported => ?_⟩
  · rw [conflicts_eq, List.append_eq_nil_iff, List.map_eq_nil_iff, List.map_eq_nil_iff,
      reused_eq_nil_iff, reused_eq_nil_iff]
  · rw [conflicts_eq, List.mem_append] at reported
    rcases reported with here | elsewhere
    · obtain ⟨name, listed, same⟩ := List.mem_map.1 here
      obtain ⟨rfl, rfl⟩ := Conflict.canonicalReused.inj same
      have occurs := mem_of_mem_reused listed
      have winner : Conflict.winner name (shorthandsOf name aliases) =
          resolveKey aliases name := Conflict.winner_eq aliases name
      refine ⟨_, get?_shorthands_of_mem occurs, rfl, ?_⟩
      rw [← winner]
      rfl
    · obtain ⟨name, -, impossible⟩ := List.mem_map.1 elsewhere
      cases impossible

/-- Two aliases of one name, the second given twice, and a shorthand with two names. -/
example :
    conflicts [⟨"a", "App"⟩, ⟨"b", "Lib"⟩, ⟨"c", "App"⟩, ⟨"b", "Doc"⟩, ⟨"c", "App"⟩] =
      [.canonicalReused "App" ["a", "c", "c"], .shorthandRedefined "b" ["Lib", "Doc"],
        .shorthandRedefined "c" ["App", "App"]] := by
  decide

end Alias

end ConfigUpkeep
