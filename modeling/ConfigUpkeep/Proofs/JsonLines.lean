/-
# ConfigUpkeep.Proofs.JsonLines -- a written value is one line, and objects are read back

Whatever a value spells, its text holds no line feed (`Json.not_mem_render`): strings escape
it, and the characters of a number are known (`Decimal.mark_text`).

An object is put in order when it is made, and it stays in that order (`Json.indexed_indexed`).
So an object made of readable values is readable (`Json.readable_object`), and its members
are among those that it was made of (`Json.exists_of_get?_object`).

The payload of a failure holds a number, which can only be read where something ends it.
Inside the payload a comma does (`Json.value_digits`), so a payload is read back as well
(`Failure.read?_payload`).
-/
import ConfigUpkeep.Failure
import ConfigUpkeep.Proofs.JsonRoundTrip
import ConfigUpkeep.Proofs.Stamps

namespace ConfigUpkeep

set_option autoImplicit false

/-! ## One line -/

namespace Decimal

/-- A character that numbers are written with. -/
def Mark (c : Char) : Prop := c.isDigit = true ∨ c ∈ ['.', '-', '+', 'e']

theorem Mark.zero : Mark '0' := Or.inl rfl

theorem Mark.point : Mark '.' := Or.inr (by decide)

theorem mark_digits (n : Nat) : ∀ c ∈ digits n, Mark c :=
  fun _ member => Or.inl (isDigit_of_mem_digits member)

theorem mark_replicate (n : Nat) : ∀ c ∈ List.replicate n '0', Mark c := by
  intro c member
  rw [List.eq_of_mem_replicate member]
  exact Mark.zero

theorem mark_pointed {ds : Text} (all : ∀ c ∈ ds, Mark c) : ∀ c ∈ pointed ds, Mark c := by
  match ds with
  | [] => exact all
  | [_] => exact all
  | d :: e :: rest =>
      obtain ⟨first, later⟩ := List.forall_mem_cons.1 all
      exact List.forall_mem_cons.2 ⟨first, List.forall_mem_cons.2 ⟨Mark.point, later⟩⟩

theorem mark_exponentMark (e : Int) : ∀ c ∈ exponentMark e, Mark c := by
  have sign : Mark (if e < 0 then '-' else '+') := by
    split <;> exact Or.inr (by decide)
  exact List.forall_mem_cons.2 ⟨Or.inr (by decide),
    List.forall_mem_cons.2 ⟨sign, mark_digits _⟩⟩

theorem mark_layout {ds : Text} (all : ∀ c ∈ ds, Mark c) (point : Int) :
    ∀ c ∈ layout ds point, Mark c := by
  rw [layout]
  split
  · exact List.forall_mem_append.2 ⟨all, mark_replicate _⟩
  split
  · exact List.forall_mem_append.2 ⟨fun c member => all c (List.mem_of_mem_take member),
      List.forall_mem_cons.2 ⟨Mark.point, fun c member => all c (List.mem_of_mem_drop member)⟩⟩
  split
  · exact List.forall_mem_cons.2 ⟨Mark.zero, List.forall_mem_cons.2 ⟨Mark.point,
      List.forall_mem_append.2 ⟨mark_replicate _, all⟩⟩⟩
  · exact List.forall_mem_append.2 ⟨mark_pointed all, mark_exponentMark _⟩

/-- A number is written with the characters of numbers. -/
theorem mark_text (d : Decimal) : ∀ c ∈ d.text, Mark c := by
  have laid := mark_layout (mark_digits d.coefficient)
    (d.exponent + (digits d.coefficient).length)
  rw [text]
  split
  · exact List.forall_mem_singleton.2 Mark.zero
  · dsimp only
    split
    · exact List.forall_mem_cons.2 ⟨Or.inr (by decide), laid⟩
    · exact laid

theorem not_mem_text (d : Decimal) : '\n' ∉ d.text := by
  intro member
  rcases d.mark_text _ member with digit | mark
  · revert digit
    decide
  · revert mark
    decide

end Decimal

namespace Json

mutual

/-- **A written value is one line.** -/
theorem not_mem_render : ∀ json : Json, '\n' ∉ render json
  | .null => by decide
  | .bool true => by decide
  | .bool false => by decide
  | .number (.finite value) => by
      rw [render]
      exact value.not_mem_text
  | .number (.infinite _) => by
      rw [render]
      decide
  | .string t => by
      rw [render]
      exact not_mem_quote t
  | .array items => by
      rw [render, List.mem_cons, not_or]
      exact ⟨by decide, not_mem_renderItems items⟩
  | .members fields => by
      rw [render, List.mem_cons, not_or]
      exact ⟨by decide, not_mem_renderMembers fields⟩

theorem not_mem_renderItems : ∀ items : List Json, '\n' ∉ renderItems items
  | [] => by decide
  | [item] => by
      simp [renderItems, not_mem_render item]
  | item :: next :: rest => by
      simp [renderItems, not_mem_render item, not_mem_renderItems (next :: rest)]

theorem not_mem_renderMembers : ∀ fields : List (Text × Json), '\n' ∉ renderMembers fields
  | [] => by decide
  | [(name, value)] => by
      simp [renderMembers, not_mem_quote name, not_mem_render value]
  | (name, value) :: next :: rest => by
      simp [renderMembers, not_mem_quote name, not_mem_render value,
        not_mem_renderMembers (next :: rest)]

end

end Json

/-! ## Objects in order -/

namespace OrderedMap

universe u v

variable {κ : Type u} {β : Type v} [DecidableEq κ]

theorem mem_write {key : κ} {value : β} {bindings : List (κ × β)} {binding : κ × β}
    (member : binding ∈ write key value bindings) :
    binding = (key, value) ∨ binding ∈ bindings := by
  induction bindings with
  | nil => exact Or.inl (List.mem_singleton.1 member)
  | cons first rest ih =>
      rw [write] at member
      split at member
      · exact (List.mem_cons.1 member).imp_right (List.mem_cons_of_mem _)
      · rcases List.mem_cons.1 member with rfl | later
        · exact Or.inr (List.mem_cons_self ..)
        · exact (ih later).imp_right (List.mem_cons_of_mem _)

/-- A map holds nothing but what was written. -/
theorem mem_insertAll {map : OrderedMap κ β} {bindings : List (κ × β)} {binding : κ × β}
    (member : binding ∈ (map.insertAll bindings).toList) :
    binding ∈ map.toList ∨ binding ∈ bindings := by
  induction bindings generalizing map with
  | nil => exact Or.inl member
  | cons first rest ih =>
      rcases ih member with here | later
      · rcases mem_write here with rfl | old
        · exact Or.inr (List.mem_cons_self ..)
        · exact Or.inl old
      · exact Or.inr (List.mem_cons_of_mem _ later)

theorem mem_of_mem_ofList {bindings : List (κ × β)} {binding : κ × β}
    (member : binding ∈ (ofList bindings).toList) : binding ∈ bindings :=
  (mem_insertAll member).resolve_left (List.not_mem_nil)

theorem nodup_insertAll {map : OrderedMap κ β} (distinct : map.keys.Nodup)
    (bindings : List (κ × β)) : (map.insertAll bindings).keys.Nodup := by
  induction bindings generalizing map with
  | nil => exact distinct
  | cons binding rest ih => exact ih (nodup_insert distinct binding.1 binding.2)

/-- The keys of a map differ. -/
theorem nodup_ofList (bindings : List (κ × β)) : (ofList bindings).keys.Nodup := by
  have none_ : (empty : OrderedMap κ β).keys.Nodup := List.nodup_nil
  exact nodup_insertAll none_ bindings

end OrderedMap

namespace Json

/-- The members whose name is an array index, with it. -/
def numbered (fields : List (Text × Json)) : List (Nat × (Text × Json)) :=
  fields.filterMap fun field => (index? field.1).map fun n => (n, field)

/-- The members whose name is an array index, in ascending order. -/
def ascending (fields : List (Text × Json)) : List (Nat × (Text × Json)) :=
  (numbered fields).mergeSort fun a b => a.1 ≤ b.1

/-- The members whose name is no array index. -/
def unnumbered (fields : List (Text × Json)) : List (Text × Json) :=
  fields.filter fun field => (index? field.1).isNone

theorem indexed_eq (fields : List (Text × Json)) :
    indexed fields = (ascending fields).map Prod.snd ++ unnumbered fields := rfl

variable {fields : List (Text × Json)}

theorem index?_of_mem_numbered {found : Nat × (Text × Json)} (member : found ∈ numbered fields) :
    index? found.2.1 = some found.1 := by
  obtain ⟨field, -, here⟩ := List.mem_filterMap.1 member
  obtain ⟨n, index, rfl⟩ := Option.map_eq_some_iff.1 here
  exact index

theorem map_numbered (fields : List (Text × Json)) :
    (numbered fields).map Prod.snd = fields.filter fun field => (index? field.1).isSome := by
  induction fields with
  | nil => rfl
  | cons field rest ih =>
      rw [numbered] at ih ⊢
      cases index : index? field.1 <;> simp [index, ih]

/-- Putting members into order loses none and adds none. -/
theorem perm_indexed (fields : List (Text × Json)) : (indexed fields).Perm fields := by
  have sorted : ((ascending fields).map Prod.snd).Perm
      (fields.filter fun field => (index? field.1).isSome) := by
    rw [← map_numbered]
    exact (List.mergeSort_perm _ _).map Prod.snd
  have parted := List.filter_append_perm (fun field : Text × Json => (index? field.1).isSome) fields
  rw [indexed_eq, unnumbered]
  refine (sorted.append_right _).trans ?_
  simpa only [Option.not_isSome] using parted

/-- Members that are numbered already are numbered again as they are. -/
theorem numbered_map_snd {founds : List (Nat × (Text × Json))}
    (index : ∀ found ∈ founds, index? found.2.1 = some found.1) :
    numbered (founds.map Prod.snd) = founds := by
  induction founds with
  | nil => rfl
  | cons found rest ih =>
      obtain ⟨here, later⟩ := List.forall_mem_cons.1 index
      have again := ih later
      rw [numbered] at again ⊢
      simp [here, again]

theorem numbered_unnumbered (fields : List (Text × Json)) : numbered (unnumbered fields) = [] := by
  rw [numbered, List.filterMap_eq_nil_iff]
  intro field member
  have none_ : (index? field.1).isNone = true := (List.mem_filter.1 member).2
  rw [Option.isNone_iff_eq_none.1 none_]
  rfl

/-- **Members in order stay in order.** -/
theorem indexed_indexed (fields : List (Text × Json)) :
    indexed (indexed fields) = indexed fields := by
  have index : ∀ found ∈ ascending fields, index? found.2.1 = some found.1 := by
    intro found member
    exact index?_of_mem_numbered ((List.mergeSort_perm _ _).mem_iff.1 member)
  have again : numbered (indexed fields) = ascending fields := by
    have first := numbered_map_snd index
    have second := numbered_unnumbered fields
    rw [numbered] at first second ⊢
    rw [indexed_eq, List.filterMap_append, first, second, List.append_nil]
  have sorted : (ascending fields).Pairwise fun a b => decide (a.1 ≤ b.1) = true := by
    refine List.pairwise_mergeSort (fun a b c first second => ?_) (fun a b => ?_) _
    · exact decide_eq_true (Nat.le_trans (of_decide_eq_true first) (of_decide_eq_true second))
    · simpa using Nat.le_total a.1 b.1
  have front : unnumbered ((ascending fields).map Prod.snd) = [] := by
    rw [unnumbered, List.filter_eq_nil_iff]
    intro field member
    obtain ⟨found, listed, rfl⟩ := List.mem_map.1 member
    rw [index found listed]
    exact Bool.false_ne_true
  have kept : unnumbered (unnumbered fields) = unnumbered fields := by
    simp [unnumbered]
  have back : unnumbered (indexed fields) = unnumbered fields := by
    calc unnumbered (indexed fields)
        = unnumbered ((ascending fields).map Prod.snd) ++ unnumbered (unnumbered fields) :=
          List.filter_append ..
      _ = unnumbered fields := by rw [front, kept, List.nil_append]
  rw [indexed_eq (indexed fields), back, ascending, again, List.mergeSort_of_pairwise sorted]
  rfl

/-- An object is made of the members it was given, and of no others. -/
theorem exists_object (fields : List (Text × Json)) :
    ∃ list, object fields = .members list ∧ object list = .members list ∧
      ∀ field ∈ list, field ∈ fields := by
  have perm := perm_indexed (OrderedMap.ofList fields).toList
  refine ⟨indexed (OrderedMap.ofList fields).toList, rfl, ?_, fun field member => ?_⟩
  · have distinct : ((indexed (OrderedMap.ofList fields).toList).map Prod.fst).Nodup :=
      ((perm.map Prod.fst).nodup_iff).2 (OrderedMap.nodup_ofList fields)
    rw [object, OrderedMap.toList_ofList distinct, indexed_indexed]
  · exact OrderedMap.mem_of_mem_ofList (perm.mem_iff.1 member)

/-- **An object made of readable values is readable.** -/
theorem readable_object (readable : ∀ field ∈ fields, Readable field.2) :
    Readable (object fields) := by
  obtain ⟨list, same, ordered, among⟩ := exists_object fields
  rw [same]
  exact .members ordered fun field member => readable field (among field member)

/-- A member of an object is one of those it was made of. -/
theorem exists_of_get?_object {name : Text} {json : Json}
    (found : (object fields).get? name = some json) : (name, json) ∈ fields := by
  obtain ⟨list, same, -, among⟩ := exists_object fields
  rw [same, get?, OrderedMap.get?] at found
  obtain ⟨⟨other, value⟩, first, rfl⟩ := Option.map_eq_some_iff.1 found
  have named : other = name := by simpa using List.find?_some first
  rw [← named]
  exact among _ (List.mem_of_find?_eq_some first)

end Json

/-! ## Numbers in front of a comma -/

/-- The digits of a number other than zero do not start with a zero. -/
theorem Decimal.digits_eq_cons {n : Nat} (positive : 0 < n) :
    ∃ d t, digits n = d :: t ∧ d.isDigit = true ∧ d ≠ '0' := by
  induction n using Nat.strongRecOn with
  | ind n ih =>
      rw [digits]
      split
      · rename_i small
        refine ⟨digit n, [], rfl, isDigit_digit small, fun zero => ?_⟩
        have code := toNat_digit small
        rw [zero] at code
        have fortyEight : '0'.toNat = 48 := rfl
        omega
      · rename_i large
        obtain ⟨d, t, begins, digit_, solid⟩ := ih (n / 10) (by omega) (by omega)
        exact ⟨d, t ++ [digit (n % 10)], by rw [begins, List.cons_append], digit_, solid⟩

namespace Json

theorem digitRun_digits {n : Nat} (positive : 0 < n) (rest : Text) :
    digitRun (Decimal.digits n ++ ',' :: rest) = some (Decimal.digits n, ',' :: rest) := by
  obtain ⟨d, t, begins, -, -⟩ := Decimal.digits_eq_cons positive
  have all : ∀ c ∈ Decimal.digits n, c.isDigit = true :=
    fun c member => Decimal.isDigit_of_mem_digits member
  have comma : ','.isDigit = false := rfl
  have run : (Decimal.digits n ++ ',' :: rest).takeWhile Char.isDigit = Decimal.digits n := by
    rw [List.takeWhile_append_of_pos all, List.takeWhile_cons_of_neg (by simp [comma]),
      List.append_nil]
  have left : (Decimal.digits n ++ ',' :: rest).dropWhile Char.isDigit = ',' :: rest := by
    rw [List.dropWhile_append_of_pos all, List.dropWhile_cons_of_neg (by simp [comma])]
  have some_ : (Decimal.digits n).isEmpty = false := by
    rw [begins]
    rfl
  simp [digitRun, run, left, some_]

/-- The digits of a number are read back in front of a comma. -/
theorem decimal_digits {n : Nat} (positive : 0 < n) (rest : Text) :
    decimal (Decimal.digits n ++ ',' :: rest) = some (Decimal.ofNat n, ',' :: rest) := by
  have run := digitRun_digits positive rest
  obtain ⟨d, t, begins, digit, solid⟩ := Decimal.digits_eq_cons positive
  have whole : wholePart (Decimal.digits n ++ ',' :: rest) =
      some (Decimal.digits n, ',' :: rest) := by
    rw [← run, begins, List.cons_append, wholePart]
    intro other same
    exact absurd (List.cons.inj same).1 solid
  have unsigned_ : unsigned false (Decimal.digits n ++ ',' :: rest) =
      some (Decimal.ofNat n, ',' :: rest) := by
    have noFraction : fraction (',' :: rest) = some ([], ',' :: rest) := rfl
    have noExponent : exponent (',' :: rest) = some (0, ',' :: rest) := rfl
    simp [unsigned, whole, noFraction, noExponent, Decimal.ofDigits_digits, Decimal.ofNat]
  rw [← unsigned_, begins, List.cons_append, decimal]
  intro other same
  rw [(List.cons.inj same).1] at digit
  cases digit

/-- A number other than zero is read back in front of a comma. -/
theorem value_digits {n : Nat} (positive : 0 < n) (depth : Nat) (rest : Text) :
    value (depth + 1) (Decimal.digits n ++ ',' :: rest) =
      some (.number (.ofNat n), ',' :: rest) := by
  have read := decimal_digits positive rest
  obtain ⟨d, t, begins, digit, -⟩ := Decimal.digits_eq_cons positive
  have other : ∀ c : Char, c.isDigit = false → d ≠ c := by
    rintro c letter rfl
    rw [digit] at letter
    cases letter
  have solid : isGap d = false := by
    simp [isGap, other]
  rw [begins, List.cons_append] at read ⊢
  rw [value, skipGap_cons solid]
  split
  iterate 6
    · rename_i same
      exact absurd (List.cons.inj same).1 (other _ rfl)
  · rw [read]
    rfl

end Json

/-! ## Payloads -/

namespace Code

theorem number_pos (code : Code) : 0 < code.number := by cases code <;> decide

theorem render_json (code : Code) : code.json.render = Decimal.digits code.number := by
  cases code <;> decide +kernel

/-- A code is found again from its number. -/
theorem ofJson?_number (code : Code) : ofJson? (.number (.ofNat code.number)) = some code := by
  cases code <;> decide +kernel

end Code

namespace Failure

/-- The names of the members of a payload. -/
def memberNames : List Text := ["error", "code", "name"]

/-- A payload keeps its members in order. -/
theorem object_memberNames (message code name : Json) :
    Json.object [("error", message), ("code", code), ("name", name)] =
      .members [("error", message), ("code", code), ("name", name)] := by
  refine Json.object_of_distinct ?_ ?_
  · show memberNames.Nodup
    decide
  · intro field member
    have named : ∀ other ∈ memberNames, Json.index? other = none := by decide
    exact named field.1 (List.mem_map_of_mem (f := Prod.fst) member)

/-- The members of a payload as they are read. -/
def told (failure : Failure) : List (Text × Json) :=
  [("error", .string failure.message), ("code", .number (.ofNat failure.code.number)),
    ("name", .string failure.code.name)]

/-- What stands behind the first two members of a payload. -/
def lastMember (failure : Failure) : Text :=
  Json.quote "name" ++ ':' :: (Json.quote failure.code.name ++ ['\x7d'])

def laterMembers (failure : Failure) : Text :=
  Json.quote "code" ++ ':' :: (Decimal.digits failure.code.number ++ ',' :: failure.lastMember)

theorem render_payload (failure : Failure) : failure.payload.render =
    '\x7b' :: (Json.quote "error" ++ ':' :: (Json.quote failure.message ++ ',' ::
      failure.laterMembers)) := by
  rw [payload, object_memberNames, laterMembers, lastMember, ← Code.render_json]
  simp [Json.render, Json.renderMembers]

/-- The members of a payload are read back. -/
theorem fields_payload (failure : Failure) {depth : Nat}
    (fits : failure.payload.render.length ≤ depth) :
    Json.fields depth (Json.quote "error" ++ ':' :: (Json.quote failure.message ++ ',' ::
      failure.laterMembers)) = some (failure.told, []) := by
  rw [render_payload, laterMembers, lastMember] at fits
  simp only [List.length_cons, List.length_append] at fits
  obtain ⟨depth, rfl⟩ : ∃ room, depth = room + 3 := ⟨depth - 3, by omega⟩
  have error : Json.value (depth + 2) (Json.quote failure.message ++ ',' :: failure.laterMembers) =
      some (.string failure.message, ',' :: failure.laterMembers) :=
    Json.readsBack_string failure.message (depth + 2) _ (by rw [Json.render]; omega)
  have name : Json.value depth (Json.quote failure.code.name ++ ['\x7d']) =
      some (.string failure.code.name, ['\x7d']) :=
    Json.readsBack_string failure.code.name depth _ (by rw [Json.render]; omega)
  have code := Json.value_digits failure.code.number_pos depth failure.lastMember
  have last : Json.fields (depth + 1) failure.lastMember =
      some (failure.told.drop 2, []) := Json.fields_quote.2 name
  have later : Json.fields (depth + 2) failure.laterMembers =
      some (failure.told.drop 1, []) := by
    rw [laterMembers, Json.fields_quote.1 code, last]
    rfl
  rw [Json.fields_quote.1 error, later]
  rfl

/-- **The payload of a failure is read back.** -/
theorem read?_payload (failure : Failure) :
    Json.read? failure.payload.render = some (.object failure.told) := by
  obtain ⟨t, begins⟩ : ∃ t, Json.quote "error" ++ ':' :: (Json.quote failure.message ++ ',' ::
      failure.laterMembers) = '"' :: t := ⟨_, rfl⟩
  have read := failure.fields_payload (Nat.le_refl _)
  have spelled := failure.render_payload
  rw [begins] at read spelled
  have whole := Json.value_object read
  rw [← spelled] at whole
  rw [Json.read?, whole]
  rfl

end Failure

end ConfigUpkeep
