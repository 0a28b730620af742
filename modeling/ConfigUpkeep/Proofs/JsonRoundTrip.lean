/-
# ConfigUpkeep.Proofs.JsonRoundTrip -- a written value is read back

A character inside a string is written in one of three ways, and each is read as the code
of the character (`codes_escape`).  Codes of characters are no halves, so putting halves
together gives the text (`joinHalves_toNat`), and a string is read back up to its closing
quotation mark (`stringBody_quote`).

From strings the round trip goes up to arrays and objects (`value_render`): readers leave
what follows a value, so the statement is for a value in front of any text, and the
induction is on how the value is put together.  Every value takes one character at least,
so its length bounds the depth that its readers need.

Values without numbers are read back by `read?` as they are (`read?_render`), provided the
members of their objects stand in the order in which `object` puts them (`Readable`).
-/
import ConfigUpkeep.Json.Reader

namespace ConfigUpkeep

set_option autoImplicit false

/-! ## Objects in order -/

namespace OrderedMap

universe u v

variable {κ : Type u} {β : Type v} [DecidableEq κ]

/-- A binding with a new key goes to the end. -/
theorem write_of_not_mem {key : κ} {value : β} {bindings : List (κ × β)}
    (fresh : key ∉ bindings.map Prod.fst) :
    write key value bindings = bindings ++ [(key, value)] := by
  induction bindings with
  | nil => rfl
  | cons binding rest ih =>
      rw [List.map_cons, List.mem_cons, not_or] at fresh
      rw [write, if_neg (Ne.symm fresh.1), ih fresh.2, List.cons_append]

theorem toList_insertAll {map : OrderedMap κ β} {bindings : List (κ × β)}
    (distinct : ((map.toList ++ bindings).map Prod.fst).Nodup) :
    (map.insertAll bindings).toList = map.toList ++ bindings := by
  induction bindings generalizing map with
  | nil => simp [insertAll]
  | cons binding rest ih =>
      have fresh : binding.1 ∉ map.toList.map Prod.fst := by
        rw [List.map_append, List.map_cons, List.nodup_append] at distinct
        exact fun member => distinct.2.2 _ member _ (List.mem_cons_self ..) rfl
      have inserted : (map.insert binding.1 binding.2).toList = map.toList ++ [binding] :=
        write_of_not_mem fresh
      have later := @ih (map.insert binding.1 binding.2) (by simpa [inserted] using distinct)
      rw [inserted, List.append_assoc] at later
      exact later

/-- Bindings with different keys are kept as they stand. -/
theorem toList_ofList {bindings : List (κ × β)} (distinct : (bindings.map Prod.fst).Nodup) :
    (ofList bindings : OrderedMap κ β).toList = bindings :=
  toList_insertAll distinct

end OrderedMap

namespace Json

/-- Members with different names, none of which is an array index, are kept as they stand. -/
theorem object_of_distinct {fields : List (Text × Json)} (distinct : (fields.map Prod.fst).Nodup)
    (named : ∀ field ∈ fields, index? field.1 = none) : object fields = .members fields := by
  have unnumbered :
      (fields.filterMap fun field => (index? field.1).map fun n => (n, field)) = [] := by
    rw [List.filterMap_eq_nil_iff]
    intro field member
    rw [named field member]
    rfl
  have all : (fields.filter fun field => (index? field.1).isNone) = fields := by
    rw [List.filter_eq_self]
    intro field member
    rw [named field member]
    rfl
  rw [object, OrderedMap.toList_ofList distinct, indexed, unnumbered, all]
  simp

/-! ## Strings -/

theorem hexValue?_hexDigit {n : Nat} (small : n < 16) : hexValue? (hexDigit n) = some n := by
  have all : ∀ m < 16, hexValue? (hexDigit m) = some m := by decide
  exact all n small

/-- The four digits of a control character are read as its code. -/
theorem hexCode?_control {n : Nat} (small : n < 0x20) :
    hexCode? '0' '0' (hexDigit (n / 16)) (hexDigit (n % 16)) = some n := by
  have zero : hexValue? '0' = some 0 := rfl
  have high := hexValue?_hexDigit (n := n / 16) (by omega)
  have low := hexValue?_hexDigit (n := n % 16) (by omega)
  simp only [hexCode?, zero, high, low, Option.bind_eq_bind, Option.bind_some, Option.pure_def,
    Option.some.injEq]
  omega

/-- A character that is written as it is, is read as it is. -/
theorem codes_plain {c : Char} (rest : Text) (quote : c ≠ '"') (backslash : c ≠ '\\')
    (printed : ¬ c.toNat < 0x20) :
    codes (c :: rest) = (codes rest).map fun found => (c.toNat :: found.1, found.2) := by
  have itself : ¬ (c.toNat < 0x20 ∨ c = '\\') := not_or.2 ⟨printed, backslash⟩
  rw [codes.eq_def]
  split
  · rename_i same
    cases same
  · rename_i same
    exact absurd (List.cons.inj same).1 quote
  · rename_i same
    exact absurd (List.cons.inj same).1 backslash
  · rename_i same
    exact absurd (List.cons.inj same).1 backslash
  · rename_i same
    obtain ⟨rfl, rfl⟩ := List.cons.inj same
    rw [if_neg itself]

/-- A character inside a string is read as its code, however it is written. -/
theorem codes_escape (c : Char) (rest : Text) :
    codes (escape c ++ rest) = (codes rest).map fun found => (c.toNat :: found.1, found.2) := by
  unfold escape
  split
  · subst_vars; rfl
  split
  · subst_vars; rfl
  split
  · subst_vars; rfl
  split
  · subst_vars; rfl
  split
  · subst_vars; rfl
  split
  · subst_vars; rfl
  split
  · subst_vars; rfl
  split
  · rename_i control
    have spelled : "\\u00".toList ++ [hexDigit (c.toNat / 16), hexDigit (c.toNat % 16)] ++ rest =
        '\\' :: 'u' :: '0' :: '0' :: hexDigit (c.toNat / 16) :: hexDigit (c.toNat % 16) :: rest :=
      rfl
    rw [spelled, codes, hexCode?_control control, Option.bind_some]
  · rename_i quote backslash _ _ _ _ _ printed
    exact codes_plain rest quote backslash printed

theorem codes_flatMap_escape (t rest : Text) :
    codes (t.flatMap escape ++ '"' :: rest) = some (t.map Char.toNat, rest) := by
  induction t with
  | nil => rfl
  | cons c t ih => rw [List.flatMap_cons, List.append_assoc, codes_escape, ih]; rfl

theorem ofCode_toNat (c : Char) : ofCode c.toNat = c := by
  have valid : c.toNat.isValidChar := c.valid
  rw [ofCode, if_pos valid, Char.ofNat_toNat]

/-- No character is a half of one. -/
theorem joinHalves_toNat (t : Text) : joinHalves (t.map Char.toNat) = t := by
  induction t with
  | nil => rfl
  | cons c t ih =>
      cases t with
      | nil => rw [List.map_cons, List.map_nil, joinHalves, ofCode_toNat]
      | cons d t =>
          have whole : ¬ (0xD800 ≤ c.toNat ∧ c.toNat < 0xDC00 ∧ 0xDC00 ≤ d.toNat ∧
              d.toNat < 0xE000) := by
            have valid : c.toNat < 0xD800 ∨ 0xDFFF < c.toNat ∧ c.toNat < 0x110000 := c.valid
            omega
          rw [List.map_cons] at ih
          rw [List.map_cons, List.map_cons, joinHalves, if_neg whole, ofCode_toNat, ih]

/-- A string is read back behind its opening quotation mark, up to the closing one. -/
theorem stringBody_quote (t rest : Text) :
    stringBody (t.flatMap escape ++ '"' :: rest) = some (t, rest) := by
  rw [stringBody, codes_flatMap_escape, Option.map_some, joinHalves_toNat]

/-! ## Values -/

/-- A value without numbers, whose objects have their members in order. -/
inductive Readable : Json → Prop where
  | null : Readable .null
  | bool (value : Bool) : Readable (.bool value)
  | string (t : Text) : Readable (.string t)
  | array {items : List Json} : (∀ item ∈ items, Readable item) → Readable (.array items)
  | members {fields : List (Text × Json)} : object fields = .members fields →
      (∀ field ∈ fields, Readable field.2) → Readable (.members fields)

theorem skipGap_cons {c : Char} (solid : isGap c = false) (t : Text) : skipGap (c :: t) = c :: t := by
  simp [skipGap, solid]

/-- A value starts neither with a blank nor with what closes an array or an object. -/
theorem Readable.exists_cons {json : Json} (readable : Readable json) :
    ∃ c t, render json = c :: t ∧ isGap c = false ∧ c ≠ ']' := by
  cases readable with
  | null => exact ⟨'n', _, rfl, by decide, by decide⟩
  | bool value =>
      cases value
      · exact ⟨'f', _, rfl, by decide, by decide⟩
      · exact ⟨'t', _, rfl, by decide, by decide⟩
  | string t => exact ⟨'"', _, rfl, by decide, by decide⟩
  | array => exact ⟨'[', _, rfl, by decide, by decide⟩
  | members => exact ⟨'\x7b', _, rfl, by decide, by decide⟩

/-- A value is read back in front of any text, at any depth that its length does not exceed. -/
def ReadsBack (json : Json) : Prop :=
  ∀ (depth : Nat) (rest : Text), (render json).length ≤ depth →
    value depth (render json ++ rest) = some (json, rest)

theorem readsBack_string (t : Text) : ReadsBack (.string t) := by
  intro depth rest fits
  cases depth with
  | zero => simp [render, quote] at fits
  | succ depth =>
      have spelled : render (.string t) ++ rest = '"' :: (t.flatMap escape ++ '"' :: rest) := by
        simp [render, quote]
      rw [spelled, value, skipGap_cons (by decide)]
      simp only [stringBody_quote, Option.map_some]

/-- The items of an array are read back with its closing bracket. -/
theorem items_renderItems {list : List Json} (some_ : list ≠ [])
    (back : ∀ item ∈ list, ReadsBack item) (depth : Nat) (rest : Text)
    (fits : (renderItems list).length ≤ depth) :
    items depth (renderItems list ++ rest) = some (list, rest) := by
  induction list generalizing depth with
  | nil => exact absurd rfl some_
  | cons item later ih =>
      obtain ⟨here, others⟩ := List.forall_mem_cons.1 back
      cases depth with
      | zero => cases later <;> simp [renderItems] at fits
      | succ depth =>
          cases later with
          | nil =>
              have spelled : renderItems [item] = render item ++ [']'] := by
                simp [renderItems]
              rw [spelled, List.length_append, List.length_singleton] at fits
              have read := here depth (']' :: rest) (by omega)
              rw [spelled, List.append_assoc, List.singleton_append, items, read]
              rfl
          | cons next later =>
              have spelled : renderItems (item :: next :: later) =
                  render item ++ ',' :: renderItems (next :: later) := by
                simp [renderItems]
              rw [spelled, List.length_append, List.length_cons] at fits
              have read := here depth (',' :: (renderItems (next :: later) ++ rest)) (by omega)
              rw [spelled, List.append_assoc, List.cons_append, items, read]
              show (items depth (renderItems (next :: later) ++ rest)).map _ = _
              rw [ih (by simp) others depth (by omega)]
              rfl

theorem readsBack_array {list : List Json} (readable : ∀ item ∈ list, Readable item)
    (back : ∀ item ∈ list, ReadsBack item) : ReadsBack (.array list) := by
  intro depth rest fits
  rw [render, List.length_cons] at fits
  cases depth with
  | zero => omega
  | succ depth =>
      rw [render, List.cons_append, value, skipGap_cons (by decide)]
      cases list with
      | nil => rfl
      | cons item later =>
          obtain ⟨c, t, begins, solid, other⟩ := (readable item (List.mem_cons_self ..)).exists_cons
          have first : ∃ t, renderItems (item :: later) ++ rest = c :: t := by
            cases later <;> simp [renderItems, begins]
          obtain ⟨t, first⟩ := first
          have read := items_renderItems (by simp) back depth rest (by omega)
          rw [first] at read ⊢
          simp only [skipGap_cons solid]
          split
          · rename_i same
            exact absurd (List.cons.inj same).1 other
          · rw [read, Option.map_some]

/-- A member is read with its name; more follow behind a comma, and none behind a brace. -/
theorem fields_quote {depth : Nat} {name t rest : Text} {json : Json} :
    (value depth t = some (json, ',' :: rest) → fields (depth + 1) (quote name ++ ':' :: t) =
      (fields depth rest).map fun others => ((name, json) :: others.1, others.2)) ∧
    (value depth t = some (json, '\x7d' :: rest) → fields (depth + 1) (quote name ++ ':' :: t) =
      some ([(name, json)], rest)) := by
  have spelled : quote name ++ ':' :: t = '"' :: (name.flatMap escape ++ '"' :: ':' :: t) := by
    simp [quote]
  have opened : skipGap ('"' :: (name.flatMap escape ++ '"' :: ':' :: t)) =
      '"' :: (name.flatMap escape ++ '"' :: ':' :: t) := rfl
  have parted : skipGap (':' :: t) = ':' :: t := rfl
  constructor
  · intro read
    simp only [spelled, fields, opened, stringBody_quote, Option.bind_some, parted, read,
      skipGap_cons (show isGap ',' = false by decide)]
  · intro read
    simp only [spelled, fields, opened, stringBody_quote, Option.bind_some, parted, read,
      skipGap_cons (show isGap '\x7d' = false by decide)]

/-- The members of an object are read back with its closing brace. -/
theorem fields_renderMembers {list : List (Text × Json)} (some_ : list ≠ [])
    (back : ∀ field ∈ list, ReadsBack field.2) (depth : Nat) (rest : Text)
    (fits : (renderMembers list).length ≤ depth) :
    fields depth (renderMembers list ++ rest) = some (list, rest) := by
  induction list generalizing depth with
  | nil => exact absurd rfl some_
  | cons field later ih =>
      obtain ⟨name, json⟩ := field
      obtain ⟨here, others⟩ := List.forall_mem_cons.1 back
      cases depth with
      | zero => cases later <;> simp [renderMembers] at fits
      | succ depth =>
          cases later with
          | nil =>
              have spelled : renderMembers [(name, json)] =
                  quote name ++ ':' :: (render json ++ ['\x7d']) := by
                simp [renderMembers]
              rw [spelled, List.length_append, List.length_cons, List.length_append,
                List.length_singleton] at fits
              have read := here depth ('\x7d' :: rest) (by dsimp only; omega)
              rw [spelled, List.append_assoc, List.cons_append, List.append_assoc,
                List.singleton_append, fields_quote.2 read]
          | cons next later =>
              have spelled : renderMembers ((name, json) :: next :: later) =
                  quote name ++ ':' :: (render json ++ ',' :: renderMembers (next :: later)) := by
                simp [renderMembers]
              rw [spelled, List.length_append, List.length_cons, List.length_append,
                List.length_cons] at fits
              have read := here depth (',' :: (renderMembers (next :: later) ++ rest))
                (by dsimp only; omega)
              rw [spelled, List.append_assoc, List.cons_append, List.append_assoc,
                List.cons_append, fields_quote.1 read, ih (by simp) others depth (by omega),
                Option.map_some]

/-- An object is read once its members are. -/
theorem value_object {depth : Nat} {t rest : Text} {list : List (Text × Json)}
    (read : fields depth ('"' :: t) = some (list, rest)) :
    value (depth + 1) ('\x7b' :: '"' :: t) = some (object list, rest) := by
  rw [value, skipGap_cons (by decide)]
  show (fields depth ('"' :: t)).map _ = _
  rw [read, Option.map_some]

theorem readsBack_members {list : List (Text × Json)} (ordered : object list = .members list)
    (back : ∀ field ∈ list, ReadsBack field.2) : ReadsBack (.members list) := by
  intro depth rest fits
  rw [render, List.length_cons] at fits
  cases depth with
  | zero => omega
  | succ depth =>
      rw [render, List.cons_append]
      cases list with
      | nil =>
          rw [value, skipGap_cons (by decide)]
          exact congrArg (fun json => some (json, rest)) ordered
      | cons field later =>
          have first : ∃ t, renderMembers (field :: later) ++ rest = '"' :: t := by
            cases later <;> simp [renderMembers, quote]
          obtain ⟨t, first⟩ := first
          have read := fields_renderMembers (by simp) back depth rest (by omega)
          rw [first] at read ⊢
          rw [value_object read, ordered]

/-- **A written value is read back** in front of any text. -/
theorem value_render {json : Json} (readable : Readable json) : ReadsBack json := by
  induction readable with
  | null =>
      intro depth rest fits
      cases depth with
      | zero => simp [render] at fits
      | succ depth => rfl
  | bool value =>
      intro depth rest fits
      cases depth with
      | zero => cases value <;> simp [render] at fits
      | succ depth => cases value <;> rfl
  | string t => exact readsBack_string t
  | array readable back => exact readsBack_array readable back
  | members ordered _ back => exact readsBack_members ordered back

/-- A value that fills a text is read back. -/
theorem read?_render {json : Json} (readable : Readable json) : read? (render json) = some json := by
  have back := value_render readable ((render json).length + 1) [] (by omega)
  rw [List.append_nil] at back
  rw [read?, back]
  rfl

end Json

end ConfigUpkeep
