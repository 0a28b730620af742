/-
# ConfigUpkeep.Proofs.CanonicalPaths -- the path that a user means

A path given by a user loses its detours first, and is seen from the working directory
only then.  So a way that begins with double dots is taken on its own, where there is
nothing to take back, and once more below the names of the directory.

* Names lead on if they are no dots (`IsStep`).  A path is *canonical* if it leads from
  the root through such names, with one slash behind them or none (`Canonical`).
* `foldl_collapse`: on a way that is there already, names without their detours lead where
  the names themselves lead.  The induction is on the names from the front; the way that
  they make on their own never holds a single dot, and only a name that it holds is ever
  taken back.
* Hence both orders mean one path, up to the slash at the end of a rooted path
  (`absolute_eq`), and a path that was made absolute stays as it is
  (`Canonical.absolute_eq_self`).
* A sibling has the name that was asked for (`fileName_sibling`), and next to a canonical path
  it stands where the path stands (`Canonical.sibling_eq`).

The main result is `ofUser_meant`.
-/
import Mathlib.Data.List.Basic
import Mathlib.Data.List.Induction
import ConfigUpkeep.Failure
import ConfigUpkeep.Proofs.PathNames

namespace ConfigUpkeep.Path

set_option autoImplicit false

/-- A name that leads on: no dots. -/
def IsStep (name : Text) : Prop := IsName name ∧ name ≠ here ∧ name ≠ above

/-- The path with a slash at its end. -/
def withSlash (path : Path) : Path := ⟨path.spelling ++ "/"⟩

/-- The path leads from the root through names that are no dots.  Behind the last of them, if
there is one, there may be a slash. -/
inductive Canonical : Path → Prop where
  | bare {ns : List Text} (steps : ∀ name ∈ ns, IsStep name) : Canonical (ofNames ns)
  | slashed {ns : List Text} (steps : ∀ name ∈ ns, IsStep name) (some_ : ns ≠ []) :
      Canonical (ofNames ns).withSlash

/-! ## Ways without detours -/

theorem descend_above_of_ne {rooted : Bool} {last : Text} {way : List Text} (down : last ≠ above) :
    descend rooted (last :: way) above = way := by
  have away : above ≠ here := by decide
  simp only [descend, if_neg away, if_neg down, if_true]

/-- Where going up takes a name back, no dots are left on the way. -/
theorem dotless_descend {way : List Text} {name : Text}
    (dotless : ∀ other ∈ way, other ≠ here ∧ other ≠ above) :
    ∀ other ∈ descend true way name, other ≠ here ∧ other ≠ above := by
  by_cases stay : name = here
  · simpa only [descend, if_pos stay] using dotless
  · by_cases up : name = above
    · subst up
      cases way with
      | nil => simp [descend, stay]
      | cons last way =>
          rw [descend_above_of_ne (dotless last (List.mem_cons_self ..)).2]
          exact fun other member => dotless other (List.mem_cons_of_mem _ member)
    · rw [descend_of_ne _ stay up]
      exact List.forall_mem_cons.2 ⟨⟨stay, up⟩, dotless⟩

theorem dotless_foldl {ns way : List Text} (dotless : ∀ other ∈ way, other ≠ here ∧ other ≠ above) :
    ∀ other ∈ ns.foldl (descend true) way, other ≠ here ∧ other ≠ above := by
  induction ns generalizing way with
  | nil => exact dotless
  | cons name ns ih => exact ih (dotless_descend dotless)

/-- Seen from the root, names without their detours lead on. -/
theorem isStep_of_mem_collapse {ns : List Text} (all : ∀ name ∈ ns, IsName name) :
    ∀ name ∈ collapse true ns, IsStep name := by
  intro name member
  have onWay : name ∈ ns.foldl (descend true) [] := List.mem_reverse.1 member
  exact ⟨all name (mem_collapse member), dotless_foldl (List.forall_mem_nil _) name onWay⟩

/-- Names that lead on make no detours. -/
theorem collapse_of_steps {rooted : Bool} {ns : List Text} (steps : ∀ name ∈ ns, IsStep name) :
    collapse rooted ns = ns := by
  induction ns using List.reverseRecOn with
  | nil => rfl
  | append_singleton ns name ih =>
      obtain ⟨before, last⟩ := List.forall_mem_append.1 steps
      obtain ⟨-, away, down⟩ := last name (List.mem_singleton_self _)
      rw [collapse_append_singleton _ away down, ih before]

/-! ## Taking a way on its own first -/

theorem collapse_append_singleton_eq {rooted : Bool} (ns : List Text) (name : Text) :
    collapse rooted (ns ++ [name]) =
      (descend rooted (collapse rooted ns).reverse name).reverse := by
  rw [collapse, collapse, List.foldl_append, List.reverse_reverse]
  rfl

/-- A way on its own holds no single dot. -/
theorem here_not_mem_collapse {rooted : Bool} (ns : List Text) : here ∉ collapse rooted ns := by
  induction ns using List.reverseRecOn with
  | nil => simp [collapse]
  | append_singleton ns name ih =>
      rw [collapse_append_singleton_eq, List.mem_reverse]
      by_cases stay : name = here
      · simpa [descend, stay] using ih
      · intro member
        rcases mem_descend member with before | same
        · exact ih (List.mem_reverse.1 before)
        · exact stay same.symm

/-- One name further on a way of its own is one name further behind another way. -/
theorem foldl_descend (base : List Text) {way : List Text} (name : Text) (moves : here ∉ way) :
    (descend false way name).reverse.foldl (descend true) base =
      descend true (way.reverse.foldl (descend true) base) name := by
  -- Unless a name is taken back, the way of its own ends in the name or stays.
  have further : descend false way name = name :: way →
      (descend false way name).reverse.foldl (descend true) base =
        descend true (way.reverse.foldl (descend true) base) name := by
    intro grows
    rw [grows, List.reverse_cons, List.foldl_append]
    rfl
  by_cases stay : name = here
  · simp only [descend, if_pos stay]
  · by_cases up : name = above
    · subst up
      cases way with
      | nil => exact further (by simp [descend, stay])
      | cons last way =>
          by_cases down : last = above
          · exact further (by simp [descend, stay, down])
          · have away : last ≠ here := fun same => moves (same ▸ List.mem_cons_self ..)
            rw [descend_above_of_ne down, List.reverse_cons, List.foldl_append, List.foldl_cons,
              List.foldl_nil, descend_of_ne _ away down, descend_above_of_ne down]
    · exact further (descend_of_ne _ stay up)

/-- **Behind a way that is there already, names without their detours lead where the names
lead.** -/
theorem foldl_collapse (base ns : List Text) :
    (collapse false ns).foldl (descend true) base = ns.foldl (descend true) base := by
  induction ns using List.reverseRecOn with
  | nil => rfl
  | append_singleton ns name ih =>
      have moves : here ∉ (collapse false ns).reverse := by
        rw [List.mem_reverse]
        exact here_not_mem_collapse ns
      rw [collapse_append_singleton_eq, foldl_descend base name moves, List.reverse_reverse, ih,
        List.foldl_append]
      rfl

theorem collapse_append_collapse (base ns : List Text) :
    collapse true (base ++ collapse false ns) = collapse true (base ++ ns) := by
  simp only [collapse, List.foldl_append]
  rw [← collapse, foldl_collapse]

/-! ## Names with slashes between them -/

theorem joined_eq_nil_iff {ns : List Text} (all : ∀ name ∈ ns, IsName name) :
    Text.joined "/" ns = [] ↔ ns = [] := by
  constructor
  · intro empty
    rw [← names_joined all, empty, names_nil]
  · rintro rfl
    rfl

/-- What stands in front of the last name does not depend on it. -/
theorem exists_joined_append_singleton (ns : List Text) :
    ∃ front, ∀ name, Text.joined "/" (ns ++ [name]) = front ++ name := by
  induction ns with
  | nil => exact ⟨[], fun name => by simp [Text.joined]⟩
  | cons first ns ih =>
      obtain ⟨front, written⟩ := ih
      refine ⟨first ++ '/' :: front, fun name => ?_⟩
      cases ns with
      | nil => rw [List.singleton_append, joined_cons_cons, ← List.nil_append [name], written]; simp
      | cons next ns =>
          rw [List.cons_append, List.cons_append, joined_cons_cons, ← List.cons_append, written]
          simp

/-- Names end in no slash. -/
theorem getLast?_joined {ns : List Text} (all : ∀ name ∈ ns, IsName name) :
    (Text.joined "/" ns).getLast? ≠ some '/' := by
  induction ns using List.reverseRecOn with
  | nil => simp [Text.joined]
  | append_singleton ns name ih =>
      obtain ⟨nonempty, noSlash⟩ := all name (by simp)
      obtain ⟨front, written⟩ := exists_joined_append_singleton ns
      rw [written, List.getLast?_append_of_ne_nil _ nonempty]
      exact fun slash => noSlash (List.mem_of_getLast? slash)

/-- Names start with no slash. -/
theorem head?_joined {ns : List Text} (all : ∀ name ∈ ns, IsName name) :
    (Text.joined "/" ns).head? ≠ some '/' := by
  cases ns with
  | nil => simp [Text.joined]
  | cons name ns =>
      obtain ⟨nonempty, noSlash⟩ := all name (List.mem_cons_self ..)
      obtain ⟨c, name, rfl⟩ := List.exists_cons_of_ne_nil nonempty
      have first : (Text.joined "/" ((c :: name) :: ns)).head? = some c := by
        cases ns <;> simp [Text.joined, List.intercalate_cons_cons]
      rw [first]
      rintro ⟨⟩
      exact noSlash (List.mem_cons_self ..)

theorem names_append_slash (t : Text) : names ⟨t ++ ['/']⟩ = names ⟨t⟩ := by
  rw [names_append, names_nil, List.append_nil]

theorem names_withSlash (path : Path) : path.withSlash.names = path.names :=
  names_append_slash path.spelling

/-! ## Paths without detours -/

/-- The path of the root: a slash alone. -/
def root : Path := ofNames []

theorem ofNames_eq_root_iff {ns : List Text} (all : ∀ name ∈ ns, IsName name) :
    ofNames ns = root ↔ ns = [] := by
  constructor
  · intro same
    rw [← names_ofNames all, same]
    rfl
  · rintro rfl
    rfl

theorem endsInSlash_ofNames {ns : List Text} (all : ∀ name ∈ ns, IsName name) :
    (ofNames ns).endsInSlash = true ↔ ns = [] := by
  constructor
  · intro slash
    refine Decidable.byContradiction fun some_ => ?_
    have written : Text.joined "/" ns ≠ [] := mt (joined_eq_nil_iff all).1 some_
    obtain ⟨c, rest, cut⟩ := List.exists_cons_of_ne_nil written
    have ends := getLast?_joined all
    rw [endsInSlash, ofNames, cut, List.getLast?_cons_cons, decide_eq_true_iff] at slash
    rw [cut] at ends
    exact ends slash
  · rintro rfl
    rfl

theorem endsInSlash_withSlash (path : Path) : path.withSlash.endsInSlash = true := by
  simp [endsInSlash, withSlash]

/-- A rooted path without detours leads through its names, with the slash that it had. -/
theorem normal_of_rooted {path : Path} (rooted : path.isRooted = true) :
    path.normal =
      if path.endsInSlash = true ∧ ofNames (collapse true path.names) ≠ root then
        (ofNames (collapse true path.names)).withSlash
      else ofNames (collapse true path.names) := by
  have all : ∀ name ∈ collapse true path.names, IsName name :=
    isName_of_mem_collapse fun name => isName_of_mem_names
  simp only [normal, rooted, if_true, ne_eq, ofNames_eq_root_iff all]
  by_cases none_ : collapse true path.names = []
  · simp [none_, Text.joined, ofNames]
  · have written : Text.joined "/" (collapse true path.names) ≠ [] :=
      mt (joined_eq_nil_iff all).1 none_
    rw [if_neg (by simpa using written)]
    cases path.endsInSlash <;> simp [none_, ofNames, withSlash]

theorem isRooted_normal {path : Path} (rooted : path.isRooted = true) :
    path.normal.isRooted = true := by
  rw [normal_of_rooted rooted]
  split <;> rfl

/-- Without its detours a path that is not rooted is not rooted either, and leads on by the names
that are left, or by a single dot. -/
theorem normal_of_unrooted {path : Path} (unrooted : path.isRooted = false) :
    path.normal.isRooted = false ∧
      path.normal.names =
        if collapse false path.names = [] then [here] else collapse false path.names := by
  have all : ∀ name ∈ collapse false path.names, IsName name :=
    isName_of_mem_collapse fun name => isName_of_mem_names
  -- Neither question is about the slash at the end.
  have ended {t : Text} (nonempty : t ≠ []) (other : t.head? ≠ some '/') (slash : Bool) :
      isRooted ⟨t ++ if slash then ("/" : Text) else []⟩ = false ∧
        names ⟨t ++ if slash then ("/" : Text) else []⟩ = names ⟨t⟩ := by
    obtain ⟨c, t, rfl⟩ := List.exists_cons_of_ne_nil nonempty
    cases slash with
    | false => exact ⟨decide_eq_false other, congrArg (fun t => names ⟨t⟩) (List.append_nil _)⟩
    | true => exact ⟨decide_eq_false other, names_append_slash _⟩
  simp only [normal, unrooted, Bool.false_eq_true, if_false]
  by_cases none_ : collapse false path.names = []
  · have empty : Text.joined "/" (collapse false path.names) = [] := (joined_eq_nil_iff all).2 none_
    rw [empty, if_pos none_]
    exact ended (show here ≠ [] by decide) (by decide) path.endsInSlash
  · have written : Text.joined "/" (collapse false path.names) ≠ [] :=
      mt (joined_eq_nil_iff all).1 none_
    rw [if_neg (by simpa using written), if_neg none_]
    obtain ⟨unrooted_, same⟩ := ended written (head?_joined all) path.endsInSlash
    exact ⟨unrooted_, same.trans (names_joined all)⟩

/-- A rooted path whose names lead on means what it spells. -/
theorem resolve_of_steps (directory : Path) {path : Path} (rooted : path.isRooted = true)
    (steps : ∀ name ∈ path.names, IsStep name) : resolve directory path = ofNames path.names := by
  rw [resolve, if_pos rooted, collapse_of_steps steps]

/-- The rooted path that is meant leads through names that lead on. -/
theorem exists_resolve_eq (directory path : Path) :
    ∃ ns, (∀ name ∈ ns, IsStep name) ∧ resolve directory path = ofNames ns := by
  have mine : ∀ name ∈ path.names, IsName name := fun name => isName_of_mem_names
  have both : ∀ name ∈ directory.names ++ path.names, IsName name :=
    List.forall_mem_append.2 ⟨fun name => isName_of_mem_names, mine⟩
  rw [resolve]
  split
  · exact ⟨_, isStep_of_mem_collapse mine, rfl⟩
  · exact ⟨_, isStep_of_mem_collapse both, rfl⟩

/-- **Taking out detours first changes no path that is meant**: seen from a directory, a path that
is not rooted means what it means without its detours. -/
theorem resolve_normal (directory : Path) {path : Path} (unrooted : path.isRooted = false) :
    resolve directory path.normal = resolve directory path := by
  obtain ⟨still, left⟩ := normal_of_unrooted unrooted
  simp only [resolve, still, unrooted, Bool.false_eq_true, if_false, left]
  congr 1
  split
  · rename_i none_
    rw [← collapse_append_collapse _ path.names, none_, List.append_nil, collapse, collapse,
      List.foldl_append]
    rfl
  · exact collapse_append_collapse _ _

/-- **The path that a user means** is the rooted path that the text means, with the slash at its
end if the text is rooted and ends in one. -/
theorem absolute_eq (directory path : Path) :
    absolute directory path =
      if path.isRooted = true ∧ path.endsInSlash = true ∧ resolve directory path ≠ root then
        (resolve directory path).withSlash
      else resolve directory path := by
  cases rooted : path.isRooted with
  | true =>
      rw [absolute, if_pos (isRooted_normal rooted), normal_of_rooted rooted, resolve, if_pos rooted]
      simp
  | false =>
      rw [absolute, (normal_of_unrooted rooted).1, if_neg (by simp), resolve_normal _ rooted]
      simp

/-! ## Canonical paths -/

theorem canonical_absolute (directory path : Path) : (absolute directory path).Canonical := by
  obtain ⟨ns, steps, meant⟩ := exists_resolve_eq directory path
  rw [absolute_eq, meant]
  split
  · rename_i slash
    exact .slashed steps fun none_ => slash.2.2 (by rw [none_]; rfl)
  · exact .bare steps

namespace Canonical

variable {path : Path}

theorem isRooted (canonical : path.Canonical) : path.isRooted = true := by
  cases canonical <;> rfl

/-- The names of a canonical path lead on. -/
theorem isStep_of_mem_names (canonical : path.Canonical) : ∀ name ∈ path.names, IsStep name := by
  cases canonical with
  | bare steps => rwa [names_ofNames fun name member => (steps name member).1]
  | slashed steps some_ =>
      rwa [names_withSlash, names_ofNames fun name member => (steps name member).1]

/-- A canonical path stays as it is, wherever it is seen from. -/
theorem absolute_eq_self (canonical : path.Canonical) (directory : Path) :
    absolute directory path = path := by
  have meant := resolve_of_steps directory canonical.isRooted canonical.isStep_of_mem_names
  rw [absolute_eq, meant]
  cases canonical with
  | bare steps =>
      have all := fun name member => (steps name member).1
      rw [names_ofNames all, if_neg]
      rintro ⟨-, slash, some_⟩
      exact some_ ((ofNames_eq_root_iff all).2 ((endsInSlash_ofNames all).1 slash))
  | slashed steps some_ =>
      have all := fun name member => (steps name member).1
      rw [names_withSlash, names_ofNames all, if_pos]
      exact ⟨rfl, endsInSlash_withSlash _, mt (ofNames_eq_root_iff all).1 some_⟩

/-- Without a slash at its end a canonical path is told by its names, and has some. -/
theorem eq_ofNames (canonical : path.Canonical) (bare : path.endsInSlash = false) :
    path = ofNames path.names ∧ path.names ≠ [] := by
  cases canonical with
  | bare steps =>
      have all := fun name member => (steps name member).1
      rw [names_ofNames all]
      refine ⟨rfl, fun none_ => ?_⟩
      rw [(endsInSlash_ofNames all).2 none_] at bare
      cases bare
  | slashed steps some_ =>
      rw [endsInSlash_withSlash] at bare
      cases bare

end Canonical

/-! ## Siblings -/

theorem parent_of_rooted {path : Path} (rooted : path.isRooted = true) :
    path.parent = ofNames path.names.dropLast := by
  rw [parent, if_pos rooted]
  rfl

/-- A sibling stands in the directory that is meant by the parent of the path. -/
theorem sibling_eq {directory path : Path} {name : Text} (leads : IsStep name) {upper : List Text}
    (steps : ∀ name ∈ upper, IsStep name) (meant : resolve directory path.parent = ofNames upper) :
    sibling directory path name = ofNames (upper ++ [name]) := by
  have unrooted : isRooted ⟨name⟩ = false := by
    refine decide_eq_false fun slash => leads.1.2 ?_
    exact List.mem_of_head? slash
  have all : ∀ other ∈ upper ++ [name], IsStep other :=
    List.forall_mem_append.2 ⟨steps, List.forall_mem_singleton.2 leads⟩
  have stands : resolve (ofNames upper) ⟨name⟩ = ofNames (upper ++ [name]) := by
    rw [resolve, if_neg (by simp [unrooted]), names_ofNames fun name member => (steps name member).1,
      names_of_isName leads.1, collapse_of_steps all]
  rw [sibling, meant, stands, (Canonical.bare all).absolute_eq_self]

/-- A sibling has the name that was asked for. -/
theorem fileName_sibling (directory path : Path) {name : Text} (leads : IsStep name) :
    (sibling directory path name).fileName = name := by
  obtain ⟨upper, steps, meant⟩ := exists_resolve_eq directory path.parent
  have all : ∀ other ∈ upper ++ [name], IsName other :=
    List.forall_mem_append.2
      ⟨fun name member => (steps name member).1, List.forall_mem_singleton.2 leads.1⟩
  rw [sibling_eq leads steps meant, fileName, names_ofNames all, List.getLast?_append]
  rfl

/-- A sibling of a canonical path stands in the directory of the path. -/
theorem Canonical.sibling_eq {path : Path} (canonical : path.Canonical) (directory : Path)
    {name : Text} (leads : IsStep name) :
    sibling directory path name = ofNames (path.names.dropLast ++ [name]) := by
  have steps : ∀ name ∈ path.names.dropLast, IsStep name :=
    fun name member => canonical.isStep_of_mem_names name (List.dropLast_subset _ member)
  have spelled := names_ofNames fun name member => (steps name member).1
  refine Path.sibling_eq leads steps ?_
  rw [parent_of_rooted canonical.isRooted, resolve_of_steps directory rfl (by rwa [spelled]), spelled]

/-! ## What a user means -/

theorem ofUser_eq_ok {directory path : Path} {given : Text} :
    ofUser directory given = .ok path ↔ ofUser? directory given = some path := by
  unfold ofUser
  cases ofUser? directory given <;> simp

theorem ofUser?_eq_some {directory path : Path} {given : Text} :
    ofUser? directory given = some path ↔ nul ∉ given ∧ absolute directory ⟨given⟩ = path := by
  rw [ofUser?]
  by_cases holds : nul ∈ given <;> simp [holds]

/-- There is a text that means the path. -/
def IsMeant (path : Path) : Prop :=
  ∃ (directory : Path) (given : Text), ofUser directory given = .ok path

theorem IsMeant.canonical {path : Path} (meant : path.IsMeant) : path.Canonical := by
  obtain ⟨directory, given, accepted⟩ := meant
  obtain ⟨-, rfl⟩ := ofUser?_eq_some.1 (ofUser_eq_ok.1 accepted)
  exact canonical_absolute directory ⟨given⟩

/-- What the path is like that is meant by a text that a user gives. -/
structure Meant (directory : Path) (given : Text) (path : Path) : Prop where
  rooted : path.isRooted = true
  canonical : path.Canonical
  /-- Only a rooted text leads to a path with a slash behind its last name. -/
  slash : path.endsInSlash = true → path = root ∨ isRooted ⟨given⟩ = true
  fixed : ∀ elsewhere, absolute elsewhere path = path
  /-- Up to the slash it is the path that the text means, seen from the directory at once. -/
  resolved : path = resolve directory ⟨given⟩ ∨ path = (resolve directory ⟨given⟩).withSlash

theorem meant_absolute (directory : Path) (given : Text) :
    Meant directory given (absolute directory ⟨given⟩) := by
  have canonical := canonical_absolute directory ⟨given⟩
  refine ⟨canonical.isRooted, canonical, fun slash => ?_, canonical.absolute_eq_self, ?_⟩
  · rw [absolute_eq] at slash ⊢
    split
    · rename_i slashed
      exact Or.inr slashed.1
    · rename_i bare
      rw [if_neg bare] at slash
      obtain ⟨ns, steps, meant⟩ := exists_resolve_eq directory ⟨given⟩
      rw [meant] at slash ⊢
      have all := fun name member => (steps name member).1
      exact Or.inl ((ofNames_eq_root_iff all).2 ((endsInSlash_ofNames all).1 slash))
  · rw [absolute_eq]
    split
    · exact Or.inr rfl
    · exact Or.inl rfl

/-- **A text that a user gives means one canonical path**, unless it holds the character NUL, and
then it means none.  The path stays as it is when it is made absolute again, and up to a slash
at its end it is what the text means seen from the directory, detours and all. -/
theorem ofUser_meant (directory : Path) (given : Text) :
    ((∃ failure, ofUser directory given = .error failure) ↔ nul ∈ given) ∧
      (nul ∉ given → ∃ path, ofUser directory given = .ok path ∧ Meant directory given path) := by
  have accepted (free : nul ∉ given) : ofUser directory given = .ok (absolute directory ⟨given⟩) :=
    ofUser_eq_ok.2 (ofUser?_eq_some.2 ⟨free, rfl⟩)
  refine ⟨⟨?_, fun holds => ⟨.nulInPath given, ?_⟩⟩, fun free => ?_⟩
  · rintro ⟨failure, refused⟩
    refine Decidable.byContradiction fun free => ?_
    rw [accepted free] at refused
    cases refused
  · simp [ofUser, ofUser?, holds]
  · exact ⟨_, accepted free, meant_absolute directory given⟩

/-- Double dots go up in the directory, and stop at the root. -/
example : ofUser? ⟨"/w/x"⟩ "./../../..//a/../b/." = some ⟨"/b"⟩ := by decide +kernel

end ConfigUpkeep.Path
