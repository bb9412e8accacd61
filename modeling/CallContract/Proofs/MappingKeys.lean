import CallContract.Proofs.Interchange
import Mathlib.Data.List.TakeWhile

/-!
# Scalars as keys of mappings

The key of an object is a text, so a mapping reads its keys: a scalar that its key type takes should
be taken as the text of the scalar, too.

* `Json.keyText?` is the text of a scalar. Floats are left out, a float can be written in many ways.
* `Text.isIntegerText_intNumeral` and `Text.isNumberText_intNumeral`: the text of any integer is
  read as a number, and as an integer if it is a signed word.
* `Descriptor.TakesTextOf` is what a key type asks besides: integers have to be signed words, and
  members of enumerations texts. `Descriptor.admitsKey_iff_takesTextOf`: it asks no more.
* `validate_mapping_key_iff` is the same of a mapping with that key.
-/

namespace CallContract

/-! ## Texts of integers -/

namespace Text

theorem splitSign_of_isDigit {c : Char} (digit : c.isDigit = true) (cs : List Char) :
    splitSign (c :: cs) = (false, c :: cs) := by
  unfold splitSign
  split
  · rename_i rest same
    cases same
    cases digit
  · rename_i rest same
    cases same
    cases digit
  · rfl

/-- The sign of a numeral, and the digits behind it. -/
theorem splitSign_intNumeral (i : Int) :
    splitSign (Decimal.intNumeral i) = (decide (i < 0), Decimal.numeral i.natAbs) := by
  by_cases negative : i < 0
  · have written : Decimal.intNumeral i = '-' :: Decimal.numeral i.natAbs := if_pos negative
    rw [written, decide_eq_true negative]
    rfl
  · have written : Decimal.intNumeral i = Decimal.numeral i.natAbs := if_neg negative
    obtain ⟨d, digits, split, digit⟩ := Decimal.exists_cons_numeral i.natAbs
    rw [written, decide_eq_false negative, split, splitSign_of_isDigit digit]

theorem isDigits_numeral (n : Nat) : isDigits (Decimal.numeral n) = true := by
  unfold isDigits
  rw [List.isEmpty_eq_false_iff.2 (Decimal.numeral_ne_nil n)]
  exact List.all_eq_true.2 Decimal.isDigit_of_mem_numeral

/-- The text of an integer is read as an integer if that is a signed word. -/
theorem isIntegerText_intNumeral (i : Int) :
    isIntegerText (String.ofList (Decimal.intNumeral i)) = true ↔ Json.IsSignedWord i := by
  unfold isIntegerText
  rw [String.toList_ofList, splitSign_intNumeral]
  dsimp only
  rw [isDigits_numeral, Decimal.valueOf_numeral, Decimal.signed_natAbs, Bool.true_and,
    decide_eq_true_eq]

/-- Digits without a point and an exponent are a decimal numeral. -/
theorem isNumeral_numeral (n : Nat) : isNumeral (Decimal.numeral n) = true := by
  have whole : (Decimal.numeral n).takeWhile Char.isDigit = Decimal.numeral n :=
    List.takeWhile_eq_self_iff.2 Decimal.isDigit_of_mem_numeral
  have behind : (Decimal.numeral n).dropWhile Char.isDigit = [] :=
    List.dropWhile_eq_nil_iff.2 Decimal.isDigit_of_mem_numeral
  unfold isNumeral
  rw [whole, behind]
  dsimp only
  rw [List.isEmpty_eq_false_iff.2 (Decimal.numeral_ne_nil n)]
  rfl

/-- The text of an integer is read as a number, however large it is. -/
theorem isNumberText_intNumeral (i : Int) :
    isNumberText (String.ofList (Decimal.intNumeral i)) = true := by
  unfold isNumberText
  rw [String.toList_ofList, splitSign_intNumeral]
  dsimp only
  rw [isNumeral_numeral, Bool.or_true]

end Text

/-! ## Texts of scalars -/

/-- The text of a scalar as the key of an object: a string is its own text. -/
def Json.keyText? : Json → Option String
  | .str s => some s
  | .bool b => some (Json.bool b).compact
  | .num (.int i word) => some (Json.num (.int i word)).compact
  | _ => none

namespace Descriptor

/-- What a key type asks of a scalar besides taking it, so that it takes its text as a key: an
integer has to be a signed word, and what an enumeration takes has to be a text already. -/
def TakesTextOf : Descriptor → Json → Prop
  | .primitive .integer, .num (.int i _) => Json.IsSignedWord i
  | .enumeration _ _, x => ∃ s, x = .str s
  | _, _ => True

variable {k : Descriptor} {x s : Json} {text : String}

/-- A key fits a scalar type of texts, or one that is read from texts. -/
theorem admitsKey_primitive (kind : Primitive) (key : String) :
    (primitive kind).admitsKey key =
      match kind with
      | .string => true
      | .boolean => key = "true" || key = "false"
      | .integer => Text.isIntegerText key
      | .number => Text.isNumberText key := by
  have asked (ok : Bool) (e : ConstructionError) :
      (if ok = true then Except.ok () else .error e).toOption.isSome = ok := by
    cases ok <;> rfl
  unfold admitsKey checkKey
  cases kind with
  | string => rfl
  | boolean => exact asked _ _
  | integer => exact asked _ _
  | number => exact asked _ _

theorem exists_str_of_ofValue? (kind : Primitive.ofValue? x = some .string) :
    ∃ t, x = .str t := by
  cases x with
  | str t => exact ⟨t, rfl⟩
  | num n => cases n <;> cases kind
  | _ => cases kind

/-- What an enumeration that has a node takes is all of one kind. -/
theorem ofValue?_eq_of_fits_enumeration {name : String} {members : List EnumMember} {y : Json}
    (encoded : encode (.enumeration name members) = .ok s)
    (fits : (enumeration name members).Fits x) (fits' : (enumeration name members).Fits y) :
    Primitive.ofValue? x = Primitive.ofValue? y := by
  rcases encode_enumeration_iff.1 encoded with ⟨kind, _, ofKind, _⟩
  rcases fits_enumeration.1 fits with ⟨m, member, same⟩
  rcases fits_enumeration.1 fits' with ⟨n, member', same'⟩
  rw [← Primitive.ofValue?_eq_of_equal same, ← Primitive.ofValue?_eq_of_equal same',
    ofKind m member, ofKind n member']

/-- A key fits an enumeration if it is, as a text, the value of a member. -/
theorem admitsKey_enumeration_iff_fits {name : String} {members : List EnumMember} :
    (enumeration name members).admitsKey text = true ↔
      (enumeration name members).Fits (.str text) := by
  rw [admitsKey_enumeration, fits_enumeration, EnumMember.find?, List.find?_isSome]

/-- A key type takes the text of a scalar that it takes, if it asks nothing besides. -/
theorem admitsKey_iff_takesTextOf (scalar : k.isKey = true) (encoded : encode k = .ok s)
    (written : x.keyText? = some text) (fits : k.Fits x) :
    k.admitsKey text = true ↔ k.TakesTextOf x := by
  cases k with
  | path => exact iff_of_true rfl trivial
  | any => exact iff_of_true rfl trivial
  | enumeration name members =>
    rw [admitsKey_enumeration_iff_fits]
    constructor
    · intro admitted
      exact exists_str_of_ofValue? (ofValue?_eq_of_fits_enumeration encoded fits admitted)
    · intro given
      rcases given with ⟨t, rfl⟩
      cases written
      exact fits
  | primitive kind =>
    have taken := fits_primitive.1 fits
    rw [admitsKey_primitive]
    cases kind with
    | string => exact iff_of_true rfl trivial
    | boolean =>
      rcases taken with ⟨b, rfl⟩
      cases written
      cases b with
      | false => exact iff_of_true (by decide) trivial
      | true => exact iff_of_true (by decide) trivial
    | integer =>
      rcases taken with ⟨i, word, rfl⟩ | ⟨y, i, rfl, _⟩
      · cases written
        exact Text.isIntegerText_intNumeral i
      · cases written
    | number =>
      rcases taken with ⟨n, rfl⟩
      cases n with
      | int i word =>
        cases written
        exact iff_of_true (Text.isNumberText_intNumeral i) trivial
      | float y => cases written
  | _ => cases scalar

end Descriptor

/-! ## Mappings -/

/-- An object of one entry fits a mapping if the key and the value do. -/
theorem fits_mapping_entry_iff {k w : Descriptor} {key : String} {y : Json} :
    (Descriptor.mapping k w).Fits (.obj [(key, y)]) ↔ k.admitsKey key = true ∧ w.Fits y := by
  rw [Descriptor.fits_mapping]
  constructor
  · intro given
    rcases given with ⟨entries, same, all⟩
    cases same
    exact all (key, y) List.mem_cons_self
  · intro both
    exact ⟨[(key, y)], rfl, List.forall_mem_singleton.2 both⟩

/-- Where a key type takes a scalar and a type takes a payload, their mapping takes the payload
under the text of the scalar, but for integers beyond a signed word and members of enumerations that
are no texts. -/
theorem validate_mapping_key_iff {k w : Descriptor} {x y s : Json} {text : String}
    (scalar : k.isKey = true) (encoded : encode k = .ok s) (written : x.keyText? = some text)
    (keyTaken : ∃ a, validate k x = .ok a) (valueTaken : ∃ b, validate w y = .ok b) :
    (∃ m, validate (.mapping k w) (.obj [(text, y)]) = .ok m) ↔ k.TakesTextOf x := by
  rw [← Descriptor.admitsKey_iff_takesTextOf scalar encoded written keyTaken]
  exact fits_mapping_entry_iff.trans (and_iff_left valueTaken)

/-- The integers `2 ^ 63 - 1` and `2 ^ 63`: the greatest signed word and the next. -/
def greatestSigned : Json :=
  .num (.int 0x7fffffffffffffff (by decide))

@[inherit_doc greatestSigned]
def nextUnsigned : Json :=
  .num (.int 0x8000000000000000 (by decide))

/-- The greatest signed word is a key of integers. -/
theorem validate_mapping_key_iff_greatestSigned :
    (Descriptor.isKey .integer = true ∧ encode .integer = .ok (Node.primitive .integer) ∧
        greatestSigned.keyText? = some "9223372036854775807" ∧
        (∃ a, validate .integer greatestSigned = .ok a) ∧ ∃ b, validate .none .null = .ok b) ∧
      ∃ m, validate (.mapping .integer .none) (.obj [("9223372036854775807", .null)]) = .ok m := by
  have written : greatestSigned.keyText? = some "9223372036854775807" := by decide +kernel
  have keyTaken : ∃ a, validate .integer greatestSigned = .ok a :=
    Descriptor.fits_primitive.2 (Or.inl ⟨_, _, rfl⟩)
  have valueTaken : ∃ b, validate .none .null = .ok b := Descriptor.fits_none.2 rfl
  have encoded := encode_primitive .integer
  have signed : Descriptor.TakesTextOf .integer greatestSigned :=
    show Json.IsSignedWord 0x7fffffffffffffff by decide
  exact ⟨⟨rfl, encoded, written, keyTaken, valueTaken⟩,
    (validate_mapping_key_iff rfl encoded written keyTaken valueTaken).2 signed⟩

/-- An enumeration of the integer 12. -/
def dozen : Descriptor :=
  .enumeration "Dozen" [{ label := "DOZEN", value := .num (.int 12 (by decide)) }]

theorem encode_dozen :
    encode dozen = .ok (Node.enumeration .integer [.num (.int 12 (by decide))]) :=
  encode_enumeration_iff.2 ⟨.integer, List.cons_ne_nil _ _, List.forall_mem_singleton.2 rfl, rfl⟩

/-- A mapping does not take the text of a scalar as a key if its key type asks for more. -/
theorem not_fits_mapping_text {k w : Descriptor} {x y s : Json} {text : String}
    (scalar : k.isKey = true) (encoded : encode k = .ok s) (written : x.keyText? = some text)
    (fits : k.Fits x) (other : ¬k.TakesTextOf x) :
    ¬(Descriptor.mapping k w).Fits (.obj [(text, y)]) := by
  intro taken
  have admitted := (fits_mapping_entry_iff.1 taken).1
  exact other ((Descriptor.admitsKey_iff_takesTextOf scalar encoded written fits).1 admitted)

/-- Integers take the next integer, but not as a key; and an enumeration takes its member 12, but
not as a key. -/
theorem not_validate_mapping_key :
    (nextUnsigned.keyText? = some "9223372036854775808" ∧
        (∃ a, validate .integer nextUnsigned = .ok a) ∧
        ¬∃ m, validate (.mapping .integer .none) (.obj [("9223372036854775808", .null)]) = .ok m) ∧
      (encode dozen = .ok (Node.enumeration .integer [.num (.int 12 (by decide))]) ∧
        (Json.num (.int 12 (by decide))).keyText? = some "12" ∧
        (∃ a, validate dozen (.num (.int 12 (by decide))) = .ok a) ∧
        ¬∃ m, validate (.mapping dozen .none) (.obj [("12", .null)]) = .ok m) := by
  have next : nextUnsigned.keyText? = some "9223372036854775808" := by decide +kernel
  have nextFits : Descriptor.integer.Fits nextUnsigned :=
    Descriptor.fits_primitive.2 (Or.inl ⟨_, _, rfl⟩)
  have beyond : ¬Descriptor.TakesTextOf .integer nextUnsigned :=
    show ¬Json.IsSignedWord 0x8000000000000000 by decide
  have twelve : (Json.num (.int 12 (by decide))).keyText? = some "12" := by decide +kernel
  have twelveFits : dozen.Fits (.num (.int 12 (by decide))) :=
    Descriptor.fits_enumeration.2 ⟨_, List.mem_cons_self, Json.equal_refl _⟩
  have noText : ¬dozen.TakesTextOf (.num (.int 12 (by decide))) := by
    intro given
    rcases given with ⟨t, same⟩
    cases same
  refine ⟨⟨next, nextFits, ?_⟩, encode_dozen, twelve, twelveFits, ?_⟩
  · exact not_fits_mapping_text rfl (encode_primitive .integer) next nextFits beyond
  · exact not_fits_mapping_text rfl encode_dozen twelve twelveFits noText

end CallContract
