import CallContract.Json.Pointer
import CallContract.Proofs.KeyedLists
import CallContract.Proofs.Literals
import CallContract.Proofs.Outlines

/-!
# Pointers and what they lead to

* `Json.DistinctKeys`: no key comes twice in an object of a document, at any depth. All documents
  that are read from texts are such, by `Json.distinctKeys_of_ofText`.
* `Json.at?_append` follows a pointer in two stretches; `Json.at?_item` and `Json.at?_entry` follow
  it to an item of an array and to an entry of an object.
* `Pointer.ofText?_text`: the text of a pointer, escaped as it is, denotes the pointer.
* `Pointer.ofText?_plainText_iff`: the tokens as they are do so only where each of them stands for
  itself.
-/

namespace CallContract

/-! ## Distinct keys -/

namespace Json

mutual
/-- No key comes twice in an object of a value, at any depth. -/
def DistinctKeys : Json → Prop
  | .null | .bool _ | .num _ | .str _ => True
  | .arr items => DistinctKeysOfItems items
  | .obj fields => (fields.map Prod.fst).Nodup ∧ DistinctKeysOfFields fields

/-- The same of the items of an array. -/
def DistinctKeysOfItems : List Json → Prop
  | [] => True
  | item :: rest => DistinctKeys item ∧ DistinctKeysOfItems rest

/-- The same of the values in the fields of an object. -/
def DistinctKeysOfFields : List (String × Json) → Prop
  | [] => True
  | (_, value) :: rest => DistinctKeys value ∧ DistinctKeysOfFields rest
end

theorem distinctKeys_arr_iff {items : List Json} :
    (arr items).DistinctKeys ↔ ∀ item ∈ items, item.DistinctKeys := by
  rw [DistinctKeys]
  induction items with
  | nil => simp [DistinctKeysOfItems]
  | cons item rest ih => rw [DistinctKeysOfItems, ih, List.forall_mem_cons]

theorem distinctKeys_obj_iff {fields : List (String × Json)} :
    (obj fields).DistinctKeys ↔
      (fields.map Prod.fst).Nodup ∧ ∀ field ∈ fields, field.2.DistinctKeys := by
  rw [DistinctKeys]
  refine and_congr_right' ?_
  induction fields with
  | nil => simp [DistinctKeysOfFields]
  | cons field rest ih => rw [DistinctKeysOfFields, ih, List.forall_mem_cons]

/-- Where keys are distinct, each entry of an object is found under its key. -/
theorem DistinctKeys.get?_of_mem {fields : List (String × Json)} {key : String} {value : Json}
    (distinct : (obj fields).DistinctKeys) (member : (key, value) ∈ fields) :
    Keyed.get? key fields = some value :=
  (Keyed.get?_eq_some_iff (distinctKeys_obj_iff.1 distinct).1).2 member

theorem DistinctKeys.of_get? {node part : Json} {key : String} (distinct : node.DistinctKeys)
    (there : node.get? key = some part) : part.DistinctKeys := by
  cases node with
  | obj fields =>
    exact (distinctKeys_obj_iff.1 distinct).2 (key, part) (Keyed.mem_of_get? there)
  | _ => cases there

/-! ### Documents that are read -/

mutual
theorem distinctKeys_of_valueWithin (depth : Nat) : (outline : Outline) → {j : Json} →
    outline.valueWithin depth = .ok j → j.DistinctKeys
  | .null, _, read | .bool _, _, read => by
    cases read
    trivial
  | .num n, _, read => by
    obtain ⟨x, _, rfl⟩ := Except.map_eq_ok.1 read
    trivial
  | .str s, _, read => by
    obtain ⟨x, _, rfl⟩ := Except.map_eq_ok.1 read
    trivial
  | .broken e, _, read => by cases read
  | .arr items _, _, read => by
    obtain ⟨values, itemsRead, rfl⟩ := Outline.exists_of_valueWithin_arr read
    exact distinctKeys_arr_iff.2 (distinctKeys_of_valuesWithin (depth - 1) items itemsRead)
  | .obj fields _, _, read => by
    obtain ⟨pairs, fieldsRead, rfl⟩ := Outline.exists_of_valueWithin_obj read
    have parts := distinctKeys_of_fieldsWithin (depth - 1) fields fieldsRead
    -- The object binds its keys one after the other, so none of them comes twice.
    exact distinctKeys_obj_iff.2 ⟨Keyed.nodup_keys_ofPairs pairs,
      fun field member => parts field (Keyed.mem_ofPairs member)⟩

theorem distinctKeys_of_valuesWithin (depth : Nat) : (items : List Outline) → {values : List Json} →
    Outline.valuesWithin depth items = .ok values → ∀ value ∈ values, value.DistinctKeys
  | [], _, read => by
    cases read
    exact List.forall_mem_nil _
  | item :: rest, _, read => by
    obtain ⟨value, itemRead, others⟩ := Except.bind_eq_ok.1 read
    obtain ⟨values, restRead, result⟩ := Except.bind_eq_ok.1 others
    cases result
    exact List.forall_mem_cons.2 ⟨distinctKeys_of_valueWithin depth item itemRead,
      distinctKeys_of_valuesWithin depth rest restRead⟩

theorem distinctKeys_of_fieldsWithin (depth : Nat) :
    (fields : List (Except SyntaxError String × Outline)) → {values : List (String × Json)} →
    Outline.fieldsWithin depth fields = .ok values → ∀ field ∈ values, field.2.DistinctKeys
  | [], _, read => by
    cases read
    exact List.forall_mem_nil _
  | (key, item) :: rest, _, read => by
    obtain ⟨name, _, behind⟩ := Except.bind_eq_ok.1 read
    obtain ⟨value, itemRead, others⟩ := Except.bind_eq_ok.1 behind
    obtain ⟨values, restRead, result⟩ := Except.bind_eq_ok.1 others
    cases result
    exact List.forall_mem_cons.2 ⟨distinctKeys_of_valueWithin depth item itemRead,
      distinctKeys_of_fieldsWithin depth rest restRead⟩
end

/-- No key comes twice in an object of a document that is read from a text. -/
theorem distinctKeys_of_ofText {text : String} {j : Json} (read : ofText text = .ok j) :
    j.DistinctKeys :=
  distinctKeys_of_valueWithin _ _ (ofText_eq_ok_iff.1 read).1

end Json

/-! ## Indices -/

namespace Pointer

/-- The index that a numeral denotes is its number. -/
theorem index?_natText (i : Nat) : index? (Decimal.natText i) = some i := by
  have digits : (Decimal.numeral i).all Char.isDigit = true :=
    List.all_eq_true.2 Decimal.isDigit_of_mem_numeral
  have inhabited : (Decimal.numeral i).isEmpty = false :=
    List.isEmpty_eq_false_iff.2 (Decimal.numeral_ne_nil i)
  have plain :
      ((Decimal.numeral i).head? == some '0' && (Decimal.numeral i).length != 1) = false := by
    by_contra leading
    rw [Bool.not_eq_false, Bool.and_eq_true, beq_iff_eq, bne_iff_ne] at leading
    obtain ⟨zero, long⟩ := leading
    rw [Json.eq_zero_of_head?_numeral zero, Decimal.numeral] at long
    exact long rfl
  rw [index?, Decimal.natText, String.toList_ofList, digits, inhabited, plain]
  exact congrArg some (Decimal.valueOf_numeral i)

theorem natText_inj {i j : Nat} : Decimal.natText i = Decimal.natText j ↔ i = j := by
  refine ⟨fun same => ?_, congrArg _⟩
  have indices := congrArg index? same
  rw [index?_natText, index?_natText] at indices
  exact Option.some.inj indices

end Pointer

/-! ## Following pointers -/

namespace Json

theorem at?_append (j : Json) (p q : Pointer) :
    j.at? (p ++ q) = (j.at? p).bind fun part => part.at? q := by
  induction p generalizing j with
  | nil => rfl
  | cons token rest ih =>
    rw [List.cons_append]
    cases j with
    | obj fields =>
      rw [at?, at?, Option.bind_assoc]
      simp only [ih]
    | arr items =>
      rw [at?, at?, Option.bind_assoc]
      simp only [ih, Option.bind_assoc]
    | _ => rfl

/-- A key leads to the entry of an object. -/
theorem at?_entry {fields : List (String × Json)} {key : String} {value : Json}
    (there : Keyed.get? key fields = some value) (rest : Pointer) :
    (obj fields).at? (key :: rest) = value.at? rest := by
  rw [at?, there]
  rfl

theorem at?_get? {j value : Json} {key : String} (there : j.get? key = some value)
    (rest : Pointer) : j.at? (key :: rest) = value.at? rest := by
  cases j with
  | obj fields => exact at?_entry there rest
  | _ => cases there

/-- The numeral of a position leads to the item of an array. -/
theorem at?_item {items : List Json} {i : Nat} {item : Json} (there : items[i]? = some item)
    (rest : Pointer) : (arr items).at? (Decimal.natText i :: rest) = item.at? rest := by
  rw [at?, Pointer.index?_natText, Option.bind_some, there]
  rfl

/-- What a pointer leads to from a part of a document, it leads to from the document behind the
pointer to the part. -/
theorem at?_of_part {j part value : Json} {p q : Pointer} (toPart : j.at? p = some part)
    (toValue : part.at? q = some value) : j.at? (p ++ q) = some value := by
  rw [at?_append, toPart, Option.bind_some, toValue]

end Json

/-! ## Texts of pointers -/

/-- Tokens without separators are split where separators stand between them. -/
theorem splitOn_tokens {separator : Char} {token : List Char} {tokens : List (List Char)}
    (whole : ∀ t ∈ token :: tokens, separator ∉ t) :
    (token ++ tokens.flatMap fun t => separator :: t).splitOn separator = token :: tokens := by
  induction tokens generalizing token with
  | nil =>
    rw [List.flatMap_nil, List.append_nil]
    exact List.splitOn_eq_singleton (whole token List.mem_cons_self)
  | cons next rest ih =>
    rw [List.forall_mem_cons] at whole
    have other : ∀ c ∈ token, (c == separator) = false := by
      intro c member
      rw [beq_eq_false_iff_ne]
      rintro rfl
      exact whole.1 member
    rw [List.flatMap_cons, List.cons_append,
      List.splitOn_append_cons_of_forall_mem_beq_eq_false other separator (beq_self_eq_true _),
      ih whole.2]

namespace Pointer

theorem splitSlash_eq_splitOn (cs : List Char) : splitSlash cs = cs.splitOn '/' := by
  induction cs with
  | nil => rfl
  | cons c rest ih =>
    rw [List.splitOn, List.splitOnP_cons_eq_if_modifyHead, ← List.splitOn, splitSlash, ih]
    cases split : rest.splitOn '/' with
    | nil => exact absurd split (List.splitOnP_ne_nil _ _)
    | cons token tokens =>
      by_cases slash : c = '/' <;> simp [slash]

/-- Tokens without slashes are split where slashes stand between them. -/
theorem splitSlash_tokens {token : List Char} {tokens : List (List Char)}
    (whole : ∀ t ∈ token :: tokens, '/' ∉ t) :
    splitSlash (token ++ tokens.flatMap fun t => '/' :: t) = token :: tokens := by
  rw [splitSlash_eq_splitOn, splitOn_tokens whole]

/-- A text has one token more than slashes. -/
theorem length_splitSlash (cs : List Char) : (splitSlash cs).length = cs.count '/' + 1 := by
  induction cs with
  | nil => rfl
  | cons c rest ih =>
    rw [splitSlash, List.count_cons]
    cases split : splitSlash rest with
    | nil =>
      rw [split] at ih
      cases ih
    | cons token tokens =>
      rw [split] at ih
      by_cases slash : c = '/' <;> simp_all

/-- The text of tokens is read token by token. -/
theorem ofText?_join (token : List Char) (tokens : List (List Char)) :
    ofText? (join (token :: tokens)) =
      some ((splitSlash (token ++ tokens.flatMap fun t => '/' :: t)).map fun t =>
        String.ofList (unescape t)) := by
  rw [ofText?, join, String.toList_ofList]
  · rfl
  · exact nofun

theorem not_mem_escape (cs : List Char) : '/' ∉ cs.flatMap escapeChar := by
  intro member
  obtain ⟨c, _, inside⟩ := List.mem_flatMap.1 member
  rw [escapeChar] at inside
  split at inside
  · simp at inside
  split at inside
  · simp at inside
  · rename_i other
    exact other (List.mem_singleton.1 inside).symm

/-- The text of a pointer denotes the pointer. -/
theorem ofText?_text {p : Pointer} (inhabited : p ≠ []) : ofText? p.text = some p := by
  obtain ⟨token, tokens, rfl⟩ := List.exists_cons_of_ne_nil inhabited
  rw [text, List.map_cons, ofText?_join, splitSlash_tokens]
  · rw [← List.map_cons (f := fun t : String => t.toList.flatMap escapeChar), List.map_map]
    refine congrArg some ((List.map_congr_left fun t _ => ?_).trans (List.map_id _))
    rw [Function.comp_apply, unescape_escape, String.ofList_toList]
    rfl
  · rw [← List.map_cons (f := fun t : String => t.toList.flatMap escapeChar)]
    intro t member
    obtain ⟨s, _, rfl⟩ := List.mem_map.1 member
    exact not_mem_escape s.toList

/-- Two pointers with one text are the same, unless one of them leads to the root and the other to
the entry with an empty key. -/
theorem text_inj {p q : Pointer} (p_ne : p ≠ [""]) (q_ne : q ≠ [""]) :
    p.text = q.text ↔ p = q := by
  have root : ofText? (text []) = some [""] := by decide
  refine ⟨fun same => ?_, congrArg text⟩
  have read := congrArg ofText? same
  by_cases p_nil : p = []
  · by_cases q_nil : q = []
    · rw [p_nil, q_nil]
    · rw [p_nil, root, ofText?_text q_nil] at read
      exact absurd (Option.some.inj read).symm q_ne
  · rw [ofText?_text p_nil] at read
    by_cases q_nil : q = []
    · rw [q_nil, root] at read
      exact absurd (Option.some.inj read) p_ne
    · rw [ofText?_text q_nil] at read
      exact Option.some.inj read

/-! ### Tokens as they are -/

/-- A token that a text may hold as it is: it has no slash, and no escape stands in it. -/
def IsPlain (token : String) : Prop :=
  '/' ∉ token.toList ∧ ¬['~', '0'] <:+: token.toList ∧ ¬['~', '1'] <:+: token.toList

theorem length_unescape_le (cs : List Char) : (unescape cs).length ≤ cs.length := by
  fun_induction unescape cs with
  | case1 rest ih => simp; omega
  | case2 rest ih => simp; omega
  | case3 c rest _ _ ih => simpa using ih
  | case4 => exact Nat.le_refl 0

/-- Reading escapes leaves characters as they are if there are none. -/
theorem unescape_eq_self_iff (cs : List Char) :
    unescape cs = cs ↔ ¬['~', '0'] <:+: cs ∧ ¬['~', '1'] <:+: cs := by
  fun_induction unescape cs with
  | case1 rest ih =>
    have shorter := length_unescape_le rest
    refine iff_of_false (fun same => ?_) fun free => free.1 ⟨[], rest, rfl⟩
    have length := congrArg List.length same
    simp only [List.length_cons] at length
    omega
  | case2 rest ih =>
    refine iff_of_false (fun same => ?_) fun free => free.2 ⟨[], rest, rfl⟩
    cases (List.cons.inj same).1
  | case3 c rest no0 no1 ih =>
    have none0 : ¬['~', '0'] <+: c :: rest := by
      rintro ⟨tail, same⟩
      cases same
      exact no0 tail rfl rfl
    have none1 : ¬['~', '1'] <+: c :: rest := by
      rintro ⟨tail, same⟩
      cases same
      exact no1 tail rfl rfl
    rw [List.infix_cons_iff, List.infix_cons_iff, or_iff_right none0, or_iff_right none1, ← ih,
      List.cons.injEq, and_iff_right rfl]
  | case4 => simp

theorem count_flatMap_slash (tokens : List (List Char)) :
    (tokens.flatMap fun t => '/' :: t).count '/' = tokens.length + tokens.flatten.count '/' := by
  induction tokens with
  | nil => rfl
  | cons token rest ih =>
    rw [List.flatMap_cons, List.count_append, List.count_cons_self, ih, List.flatten_cons,
      List.count_append, List.length_cons]
    omega

/-- The tokens of a pointer, written as they are, denote the pointer if each of them is plain, and
only then. -/
theorem ofText?_plainText_iff {p : Pointer} (inhabited : p ≠ []) :
    ofText? p.plainText = some p ↔ ∀ token ∈ p, IsPlain token := by
  obtain ⟨token, tokens, rfl⟩ := List.exists_cons_of_ne_nil inhabited
  rw [plainText, List.map_cons, ofText?_join, Option.some.injEq]
  -- Where no token has a slash, the text falls into the tokens; only escapes may still differ.
  have read (whole : ∀ t ∈ token :: tokens, '/' ∉ t.toList) :
      (splitSlash (token.toList ++ (tokens.map String.toList).flatMap fun t => '/' :: t)).map
          (fun t => String.ofList (unescape t)) = token :: tokens ↔
        ∀ t ∈ token :: tokens, unescape t.toList = t.toList := by
    have split := @splitSlash_tokens token.toList (tokens.map String.toList)
    rw [← List.map_cons (f := String.toList), List.forall_mem_map] at split
    rw [split whole, List.map_map]
    conv => lhs; rhs; rw [← List.map_id (token :: tokens)]
    rw [List.map_inj_left]
    refine forall₂_congr fun t _ => ?_
    rw [Function.comp_apply, id_eq, ← String.toList_inj, String.toList_ofList]
  constructor
  · intro same
    have whole : ∀ t ∈ token :: tokens, '/' ∉ t.toList := by
      have count := congrArg List.length same
      rw [List.length_map, length_splitSlash, List.count_append, count_flatMap_slash,
        List.length_map, List.length_cons] at count
      have none : token.toList.count '/' = 0 ∧
          (tokens.map String.toList).flatten.count '/' = 0 := by
        omega
      rw [List.count_eq_zero, List.count_eq_zero, List.mem_flatten] at none
      refine List.forall_mem_cons.2 ⟨none.1, fun t member slash => ?_⟩
      exact none.2 ⟨t.toList, List.mem_map_of_mem member, slash⟩
    have kept := (read whole).1 same
    exact fun t member => ⟨whole t member, (unescape_eq_self_iff _).1 (kept t member)⟩
  · intro plain
    refine (read fun t member => (plain t member).1).2 fun t member => ?_
    exact (unescape_eq_self_iff _).2 (plain t member).2

end Pointer

end CallContract
