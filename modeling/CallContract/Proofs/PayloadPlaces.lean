import CallContract.Proofs.Pointers
import CallContract.Proofs.Validation

/-!
# Where payloads do not fit

A payload is checked part by part, and what is at fault is a value in it or a key of it. Mismatches
and unions without a fitting alternative say where.

* `ConstructionError.StandsIn` is what an error of a payload in some place says about the payload;
  `ConstructionError.StandsIn.of_part` carries it from a part to the whole.
* `standsIn_of_validateAt`: all errors of checking are so, by induction on the type.
* `validate_error_located`: the path in the text of an error has the tokens as they are. It denotes
  the place exactly if they are plain.
-/

namespace CallContract

namespace ConstructionError

/-- The place of an error, for those that have one. -/
def place? : ConstructionError → Option Pointer
  | .typeMismatch place _ _ => some place
  | .noMatchingAlternative place => some place
  | _ => none

/-- An error is about a value: what it says was found is the kind of the value, or of its key. -/
def IsAbout (v : Json) : ConstructionError → Prop
  | .typeMismatch _ (.key _) found => found = .string
  | .typeMismatch _ _ found => found = v.kind
  | _ => True

/-- An error of a payload that stands in some place: it has no place, or it has that of a value of
the payload, which it is about. -/
def StandsIn (place : Pointer) (v : Json) (e : ConstructionError) : Prop :=
  ∀ p, e.place? = some p → ∃ rest x, p = place ++ rest ∧ v.at? rest = some x ∧ e.IsAbout x

variable {place : Pointer} {v : Json} {e : ConstructionError}

theorem StandsIn.of_unplaced (unplaced : e.place? = none) : e.StandsIn place v := by
  intro p placed
  cases unplaced.symm.trans placed

theorem StandsIn.itself (placed : e.place? = some place) (about : e.IsAbout v) :
    e.StandsIn place v := by
  intro p same
  cases placed.symm.trans same
  exact ⟨[], v, (List.append_nil _).symm, rfl, about⟩

theorem StandsIn.of_part {tokens : Pointer} {part : Json} (toPart : v.at? tokens = some part)
    (inside : e.StandsIn (place ++ tokens) part) : e.StandsIn place v := by
  intro p placed
  obtain ⟨rest, x, rfl, there, about⟩ := inside p placed
  exact ⟨tokens ++ rest, x, List.append_assoc _ _ _, Json.at?_of_part toPart there, about⟩

end ConstructionError

open ConstructionError (StandsIn)

/-! ## What each kind of type says -/

section Kinds

variable {place : Pointer} {v : Json} {e : ConstructionError}

theorem standsIn_of_validatePrimitive {kind : Primitive}
    (failed : validatePrimitive place kind v = .error e) : e.StandsIn place v := by
  have mismatch : e = .typeMismatch place (.primitive kind) v.kind → e.StandsIn place v := by
    rintro rfl
    exact .itself rfl rfl
  unfold validatePrimitive at failed
  split at failed
  · cases failed
  · cases failed
  · cases failed
  · split at failed
    · split at failed
      · cases failed
      · exact mismatch (Except.error.inj failed).symm
    · exact mismatch (Except.error.inj failed).symm
  · cases failed
  · cases failed
  · exact mismatch (Except.error.inj failed).symm

/-- A key that does not fit is reported in the place of its value. -/
theorem standsIn_of_checkKey {type : Descriptor} {key : String}
    (failed : checkKey place type key = .error e) : e.StandsIn place v := by
  have fits {ok : Bool}
      (refused : (if ok then .ok () else .error (.typeMismatch place (.key type) .string)) =
        (.error e : Except ConstructionError Unit)) : e.StandsIn place v := by
    split at refused
    · cases refused
    · cases refused
      exact .itself rfl rfl
  unfold checkKey at failed
  split at failed
  · cases failed
  · cases failed
  · cases failed
  · exact fits failed
  · exact fits failed
  · exact fits failed
  · rename_i name members
    rw [validateEnum] at failed
    split at failed
    · cases failed
    · cases failed
      exact .of_unplaced rfl
  · exact fits failed

theorem standsIn_of_validateEntry {key value : Descriptor} {entry : String × Json}
    (inside : validateAt (place ++ [entry.1]) value entry.2 = .error e →
      e.StandsIn (place ++ [entry.1]) entry.2)
    (failed : validateEntry place key value entry = .error e) :
    e.StandsIn (place ++ [entry.1]) entry.2 := by
  rw [validateEntry] at failed
  rcases Except.bind_eq_error.1 failed with keyFailed | ⟨_, _, behind⟩
  · exact standsIn_of_checkKey keyFailed
  · rcases Except.bind_eq_error.1 behind with valueFailed | ⟨_, _, result⟩
    · exact inside valueFailed
    · cases result

theorem standsIn_of_validateField {name : String} {payload : List (String × Json)}
    {f : Field Descriptor}
    (inside : ∀ item, Keyed.get? f.name payload = some item →
      validateAt (place ++ [f.name]) f.type item = .error e → e.StandsIn (place ++ [f.name]) item)
    (failed : validateField name place payload f = .error e) :
    e.StandsIn place (.obj payload) := by
  rw [validateField] at failed
  split at failed
  · rename_i item there
    rcases Except.bind_eq_error.1 failed with refused | ⟨_, _, result⟩
    · exact .of_part (Json.at?_entry there []) (inside item there refused)
    · cases result
  · cases failed
  · cases failed
    exact .of_unplaced rfl

/-- A union fails in its own place, unless it has a single alternative: then it fails as this. -/
theorem standsIn_of_validateUnion {t : Descriptor} (hu : t.isUnion = true)
    (inside : ∀ m ∈ t.splitNull.1, validateAt place m v = .error e → e.StandsIn place v)
    (failed : validateAt place t v = .error e) : e.StandsIn place v := by
  rw [validateAt_union hu] at failed
  split at failed
  · cases failed
  · split at failed
    · rename_i only single
      exact inside only (by rw [single]; exact List.mem_singleton_self only) failed
    · split at failed
      · cases failed
      · cases failed
        exact .itself rfl trivial

end Kinds

/-- The errors of a payload that stands in some place say so. -/
theorem standsIn_of_validateAt (t : Descriptor) : ∀ {place : Pointer} {v : Json}
    {e : ConstructionError}, v.DistinctKeys → validateAt place t v = .error e →
      e.StandsIn place v := by
  induction t using Descriptor.leafInduction with
  | primitive kind =>
    intro place v e _ failed
    rw [validateAt] at failed
    exact standsIn_of_validatePrimitive failed
  | none =>
    intro place v e _ failed
    rw [validateAt] at failed
    split at failed
    · cases failed
    · cases failed
      exact .itself rfl rfl
  | any =>
    intro place v e _ failed
    rw [validateAt] at failed
    cases failed
  | path =>
    intro place v e _ failed
    unfold validateAt at failed
    split at failed
    · cases failed
    · cases failed
      exact .itself rfl rfl
  | fileData =>
    intro place v e _ failed
    rw [validateAt] at failed
    cases read : FileData.ofJson v with
    | ok x =>
      rw [read] at failed
      cases failed
    | error fault =>
      rw [read] at failed
      cases failed
      exact .of_unplaced rfl
  | enumeration name members =>
    intro place v e _ failed
    rw [validateAt, validateEnum] at failed
    split at failed
    · cases failed
    · cases failed
      exact .of_unplaced rfl
  | list element ih =>
    intro place v e distinct failed
    unfold validateAt at failed
    split at failed
    · rename_i items
      rcases Except.bind_eq_error.1 failed with inside | ⟨_, _, result⟩
      · obtain ⟨⟨item, i⟩, member, refused⟩ := List.exists_of_mapM_eq_error inside
        have there := List.mk_mem_zipIdx_iff_getElem?.1 member
        have itemDistinct := Json.distinctKeys_arr_iff.1 distinct item (List.mem_of_getElem? there)
        exact .of_part (Json.at?_item there []) (ih itemDistinct refused)
      · cases result
    · cases failed
      exact .itself rfl rfl
  | mapping key value _ ih =>
    intro place v e distinct failed
    unfold validateAt at failed
    split at failed
    · rename_i entries
      rcases Except.bind_eq_error.1 failed with inside | ⟨_, _, result⟩
      · obtain ⟨entry, member, refused⟩ := List.exists_of_mapM_eq_error inside
        -- The key leads back to this very entry, as no other has it.
        have entryDistinct := (Json.distinctKeys_obj_iff.1 distinct).2 entry member
        exact .of_part (Json.at?_entry (distinct.get?_of_mem member) [])
          (standsIn_of_validateEntry (ih entryDistinct) refused)
      · cases result
    · cases failed
      exact .itself rfl rfl
  | record name fields ih =>
    intro place v e distinct failed
    cases v with
    | obj payload =>
      rw [validateAt_record] at failed
      split at failed
      · cases failed
        exact .of_unplaced rfl
      · rcases Except.bind_eq_error.1 failed with inside | ⟨_, _, result⟩
        · obtain ⟨f, member, refused⟩ := List.exists_of_mapM_eq_error inside
          exact standsIn_of_validateField (fun item there => ih f member (distinct.of_get? there))
            refused
        · cases result
    | _ =>
      rw [validateAt] at failed
      · cases failed
        exact .itself rfl rfl
      · intro payload same
        cases same
  | union t hu ih =>
    intro place v e distinct failed
    exact standsIn_of_validateUnion hu
      (fun m member => ih m (Descriptor.mem_leaves_of_mem_splitNull t member) distinct) failed

/-- The text of an error with a place starts with the path of the place. -/
theorem ConstructionError.message_eq_of_place? {e : ConstructionError} {place : Pointer}
    (placed : e.place? = some place) :
    ∃ words, e.message = "at " ++ place.plainText ++ ": " ++ words := by
  cases e with
  | typeMismatch p expected found =>
    cases placed
    have colon : ": expected " = ": " ++ "expected " := by decide
    refine ⟨"expected " ++ expected.phrase ++ ", found " ++ found.name, ?_⟩
    change "at " ++ place.plainText ++ ": expected " ++ expected.phrase ++
      ", found " ++ found.name = _
    simp only [colon, String.append_assoc]
  | noMatchingAlternative p =>
    cases placed
    have colon : ": value matches none of the union alternatives" =
        ": " ++ "value matches none of the union alternatives" := by decide
    refine ⟨"value matches none of the union alternatives", ?_⟩
    change "at " ++ place.plainText ++ ": value matches none of the union alternatives" = _
    rw [colon, ← String.append_assoc]
  | _ => cases placed

/-- An error with a place is about a value of the payload, which stands in the place. The path in
the text of the error is that of the root, or it denotes the place exactly if the tokens are
plain. -/
theorem validate_error_located {t : Descriptor} {v : Json} {e : ConstructionError}
    {place : Pointer} (distinct : v.DistinctKeys) (failed : validate t v = .error e)
    (placed : e.place? = some place) :
    (∃ x, v.at? place = some x ∧ e.IsAbout x) ∧
      (∃ words, e.message = "at " ++ place.plainText ++ ": " ++ words) ∧
      ((place = [] ∧ place.plainText = "/") ∨
        (Pointer.ofText? place.plainText = some place ↔
          ∀ token ∈ place, Pointer.IsPlain token)) := by
  obtain ⟨rest, x, same, there, about⟩ := standsIn_of_validateAt t distinct failed place placed
  rw [List.nil_append] at same
  subst same
  refine ⟨⟨x, there, about⟩, ConstructionError.message_eq_of_place? placed, ?_⟩
  by_cases root : place = []
  · exact .inl ⟨root, by rw [root]; rfl⟩
  · exact .inr (Pointer.ofText?_plainText_iff root)

/-- The type of objects of integers. -/
def countsType : Descriptor :=
  .mapping (.primitive .string) (.primitive .integer)

/-- An object with a text under a key. -/
def miscount (key : String) : Json :=
  .obj [(key, .str "many")]

theorem distinctKeys_miscount (key : String) : (miscount key).DistinctKeys := by
  simp [miscount, Json.DistinctKeys, Json.DistinctKeysOfFields]

theorem validate_miscount (key : String) :
    validate countsType (miscount key) =
      .error (.typeMismatch [key] (.primitive .integer) .string) := by
  have entry : validateAt [key] (.primitive .integer) (.str "many") =
      .error (.typeMismatch [key] (.primitive .integer) .string) := by
    rw [validateAt]
    rfl
  rw [countsType, miscount, validate, validateAt, List.mapM_cons]
  refine Except.bind_eq_error.2 (.inl (Except.bind_eq_error.2 (.inl ?_)))
  exact Except.bind_eq_error.2 (.inr ⟨(), rfl, Except.bind_eq_error.2 (.inl entry)⟩)

/-- The path of a plain key leads to the text under it. -/
theorem validate_error_located_plain :
    (miscount "a").at? ["a"] = some (.str "many") ∧
      validate countsType (miscount "a") =
        .error (.typeMismatch ["a"] (.primitive .integer) .string) ∧
      (Pointer.ofText? (Pointer.plainText ["a"]) = some ["a"] ↔
        ∀ token ∈ ["a"], Pointer.IsPlain token) := by
  have located := validate_error_located (distinctKeys_miscount "a") (validate_miscount "a") rfl
  obtain ⟨_, _, ⟨root, _⟩ | denotes⟩ := located
  · cases root
  · exact ⟨rfl, validate_miscount "a", denotes⟩

/-- The path of a key with a slash in it leads nowhere. -/
theorem not_validate_error_located_slash :
    ¬∀ (t : Descriptor) (v : Json) (e : ConstructionError) (place : Pointer),
      v.DistinctKeys → validate t v = .error e → e.place? = some place →
        place.plainText = "/" ∨ ∃ x, (Pointer.ofText? place.plainText).bind v.at? = some x := by
  intro resolves
  have nowhere :
      (Pointer.ofText? (Pointer.plainText ["a/b"])).bind (miscount "a/b").at? = none := by
    decide
  rcases resolves _ _ _ _ (distinctKeys_miscount "a/b") (validate_miscount "a/b") rfl with
    root | ⟨x, there⟩
  · exact absurd root (by decide)
  · cases nowhere.symm.trans there

end CallContract
