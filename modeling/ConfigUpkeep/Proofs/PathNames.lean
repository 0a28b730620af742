/-
# ConfigUpkeep.Proofs.PathNames -- the names on a path

What the operations on paths do to a path's names.  A *name* is not empty and holds no
slash (`IsName`); the names of a path are such, and a path put together from names has
them again (`names_ofNames`).  Taking out dots keeps names (`mem_collapse`), and a last
name that is no dot stays last (`collapse_append_singleton`).
-/
import ConfigUpkeep.Path
import ConfigUpkeep.Proofs.Pieces

namespace ConfigUpkeep.Path

set_option autoImplicit false

/-! ## Names -/

/-- A text that can stand between slashes. -/
def IsName (name : Text) : Prop := name ≠ [] ∧ '/' ∉ name

theorem isName_of_mem_names {path : Path} {name : Text} (member : name ∈ path.names) :
    IsName name := by
  rw [names, List.mem_filter] at member
  obtain ⟨piece, nonempty⟩ := member
  exact ⟨by simpa using nonempty, (List.of_mem_splitOn piece).1⟩

/-- The names before a slash, then the names behind it. -/
theorem names_append (s t : Text) : names ⟨s ++ '/' :: t⟩ = names ⟨s⟩ ++ names ⟨t⟩ := by
  simp only [names, List.splitOn_eq_splitOnP]
  rw [List.splitOnP_append_cons s t (by simp), List.filter_append]

theorem names_nil : names ⟨[]⟩ = [] := rfl

theorem names_cons (t : Text) : names ⟨'/' :: t⟩ = names ⟨t⟩ := names_append [] t

theorem names_of_isName {name : Text} (isName : IsName name) : names ⟨name⟩ = [name] := by
  have uncut : name.splitOn '/' = [name] := by
    rw [List.splitOn_eq_splitOnP]
    refine List.splitOnP_eq_singleton fun c inside => ?_
    simpa using fun same : c = '/' => isName.2 (same ▸ inside)
  simp [names, uncut, isName.1]

theorem joined_cons_cons (name next : Text) (rest : List Text) :
    Text.joined "/" (name :: next :: rest) = name ++ '/' :: Text.joined "/" (next :: rest) := by
  simp [Text.joined, List.intercalate_cons_cons]

/-- Names with slashes between them are found again. -/
theorem names_joined {ns : List Text} (all : ∀ name ∈ ns, IsName name) :
    names ⟨Text.joined "/" ns⟩ = ns := by
  induction ns with
  | nil => rfl
  | cons name rest ih =>
      obtain ⟨here, later⟩ := List.forall_mem_cons.1 all
      cases rest with
      | nil =>
          have alone : Text.joined "/" [name] = name := by simp [Text.joined]
          rw [alone, names_of_isName here]
      | cons next rest =>
          rw [joined_cons_cons, names_append, names_of_isName here, ih later, List.singleton_append]

theorem names_ofNames {ns : List Text} (all : ∀ name ∈ ns, IsName name) :
    (ofNames ns).names = ns := by
  rw [ofNames, names_cons, names_joined all]

/-! ## Taking out dots -/

theorem mem_descend {rooted : Bool} {way : List Text} {name other : Text}
    (member : other ∈ descend rooted way name) : other ∈ way ∨ other = name := by
  unfold descend at member
  split at member
  · exact Or.inl member
  · split at member
    · split at member
      · split at member
        · exact (List.mem_cons.1 member).symm.imp_left id
        · exact Or.inl (List.mem_cons_of_mem _ member)
      · split at member
        · cases member
        · exact Or.inr (List.mem_singleton.1 member)
    · exact (List.mem_cons.1 member).symm.imp_left id

theorem mem_foldl_descend {rooted : Bool} {ns way : List Text} {name : Text}
    (member : name ∈ ns.foldl (descend rooted) way) : name ∈ way ∨ name ∈ ns := by
  induction ns generalizing way with
  | nil => exact Or.inl member
  | cons first rest ih =>
      rw [List.foldl_cons] at member
      rcases ih member with early | late
      · rcases mem_descend early with before | same
        · exact Or.inl before
        · exact Or.inr (same ▸ List.mem_cons_self ..)
      · exact Or.inr (List.mem_cons_of_mem _ late)

/-- Taking out dots brings no new name. -/
theorem mem_collapse {rooted : Bool} {ns : List Text} {name : Text}
    (member : name ∈ collapse rooted ns) : name ∈ ns := by
  rw [collapse, List.mem_reverse] at member
  rcases mem_foldl_descend member with none_ | inside
  · cases none_
  · exact inside

theorem descend_of_ne {rooted : Bool} (way : List Text) {name : Text} (away : name ≠ here)
    (down : name ≠ above) : descend rooted way name = name :: way := by
  unfold descend
  rw [if_neg away, if_neg down]

/-- A last name that is no dot stays last. -/
theorem collapse_append_singleton {rooted : Bool} (ns : List Text) {name : Text}
    (away : name ≠ here) (down : name ≠ above) :
    collapse rooted (ns ++ [name]) = collapse rooted ns ++ [name] := by
  rw [collapse, List.foldl_append, List.foldl_cons, List.foldl_nil, descend_of_ne _ away down,
    List.reverse_cons, collapse]

theorem isName_of_mem_collapse {rooted : Bool} {ns : List Text}
    (all : ∀ name ∈ ns, IsName name) : ∀ name ∈ collapse rooted ns, IsName name :=
  fun name member => all name (mem_collapse member)

end ConfigUpkeep.Path
