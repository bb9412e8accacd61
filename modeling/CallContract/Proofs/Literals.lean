import CallContract.Json.Literal
import CallContract.Json.Printer

/-!
# Literals that read back

The string and integer literals that are written are read as what they were written for, whatever
stands behind them.

* `Json.escape_cases`: a character stands for itself, or behind a backslash as one letter or as a
  number.
* `Json.readString_quote`: a string literal reads as its string.
* `Json.readNumber_intNumeral`: the numeral of an integer of a word reads as the integer.
-/

namespace CallContract

namespace Json

/-! ## Strings -/

/-- A character that stands in a string literal for itself. -/
def IsPlain (c : Char) : Prop :=
  c ≠ '"' ∧ c ≠ '\\' ∧ ¬ c.toNat < 0x20

/-- A character is written as itself, as an escape of one letter, or by its number. -/
theorem escape_cases (c : Char) :
    (escape c = [c] ∧ IsPlain c) ∨
      (∃ d, escape c = ['\\', d] ∧ shortEscape? d = some c ∧ d ≠ 'u' ∧ d ≠ '\n') ∨
      (escape c = ['\\', 'u', '0', '0', hexDigit (c.toNat / 16), hexDigit (c.toNat % 16)] ∧
        c.toNat < 0x20) := by
  rw [escape]
  split
  · exact Or.inr (Or.inl ⟨'"', rfl, by simp [shortEscape?, *], by decide, by decide⟩)
  split
  · exact Or.inr (Or.inl ⟨'\\', rfl, by simp [shortEscape?, *], by decide, by decide⟩)
  split
  · exact Or.inr (Or.inl ⟨'b', rfl, by simp [shortEscape?, *], by decide, by decide⟩)
  split
  · exact Or.inr (Or.inl ⟨'t', rfl, by simp [shortEscape?, *], by decide, by decide⟩)
  split
  · exact Or.inr (Or.inl ⟨'n', rfl, by simp [shortEscape?, *], by decide, by decide⟩)
  split
  · exact Or.inr (Or.inl ⟨'f', rfl, by simp [shortEscape?, *], by decide, by decide⟩)
  split
  · exact Or.inr (Or.inl ⟨'r', rfl, by simp [shortEscape?, *], by decide, by decide⟩)
  split
  · exact Or.inr (Or.inr ⟨rfl, ‹_›⟩)
  · exact Or.inl ⟨rfl, ‹_›, ‹_›, ‹_›⟩

theorem hexValue4?_control {n : Nat} (control : n < 0x20) :
    hexValue4? '0' '0' (hexDigit (n / 16)) (hexDigit (n % 16)) = some n := by
  have all : ∀ k : Fin 32, hexValue4? '0' '0' (hexDigit (k.val / 16)) (hexDigit (k.val % 16)) =
      some k.val := by decide
  exact all ⟨n, control⟩

/-- The number of a control character reads as the character. -/
theorem readCodeUnit_control {c : Char} (control : c.toNat < 0x20) (rest : List Char) :
    ∃ after : Shorter ('0' :: '0' :: hexDigit (c.toNat / 16) :: hexDigit (c.toNat % 16) :: rest),
      readCodeUnit _ = .ok (.ok c, after) ∧ after.val = rest := by
  have notLow : isLowSurrogate c.toNat = false := by
    simp [isLowSurrogate]
    omega
  have notHigh : isHighSurrogate c.toNat = false := by
    simp [isHighSurrogate]
    omega
  refine ⟨⟨rest, by simp; omega⟩, ?_, rfl⟩
  simp only [readCodeUnit, readHex, hexValue4?_control control, notLow, notHigh,
    Bool.false_eq_true, if_false, Char.ofNat_toNat]

theorem readEscape_short {c d : Char} (short : shortEscape? d = some c) (other : d ≠ 'u')
    (rest : List Char) :
    ∃ after : Shorter (d :: rest), readEscape (d :: rest) = .ok (.ok c, after) ∧
      after.val = rest := by
  refine ⟨⟨rest, by simp⟩, ?_, rfl⟩
  rw [readEscape, if_neg other, short]

theorem readEscape_control {c : Char} (control : c.toNat < 0x20) (rest : List Char) :
    ∃ after : Shorter ('u' :: '0' :: '0' :: hexDigit (c.toNat / 16) :: hexDigit (c.toNat % 16) ::
      rest), readEscape _ = .ok (.ok c, after) ∧ after.val = rest := by
  obtain ⟨after, read, same⟩ := readCodeUnit_control control rest
  refine ⟨after.widen (by simp), ?_, same⟩
  rw [readEscape, if_pos rfl, read]

/-- A string that the rest of a text starts with, closing quote included. -/
def ReadsAs (cs s rest : List Char) : Prop :=
  ∃ after : Shorter cs, readString cs = .ok (.ok s, after) ∧ after.val = rest

theorem readsAs_end (rest : List Char) : ReadsAs ('"' :: rest) [] rest := by
  refine ⟨⟨rest, by simp⟩, ?_, rfl⟩
  rw [readString, if_pos rfl]

theorem readsAs_plain {c : Char} (plain : IsPlain c) {cs s rest : List Char}
    (reads : ReadsAs cs s rest) : ReadsAs (c :: cs) (c :: s) rest := by
  obtain ⟨after, read, same⟩ := reads
  obtain ⟨notQuote, notBackslash, printed⟩ := plain
  refine ⟨after.widen (by simp), ?_, same⟩
  rw [readString, if_neg notQuote, if_neg notBackslash, if_neg printed, read]
  rfl

theorem readsAs_escape {c : Char} {cs ds s rest : List Char}
    (escaped : ∃ after : Shorter cs, readEscape cs = .ok (.ok c, after) ∧ after.val = ds)
    (reads : ReadsAs ds s rest) : ReadsAs ('\\' :: cs) (c :: s) rest := by
  obtain ⟨⟨_, shorter⟩, readFirst, rfl⟩ := escaped
  obtain ⟨after, read, same⟩ := reads
  refine ⟨after.widen (by simp; omega), ?_, same⟩
  rw [readString, if_neg (by decide), if_pos rfl, readFirst]
  dsimp only
  rw [read]
  rfl

/-- What is written for a string, behind the opening quote, reads as the string. -/
theorem readString_quote (s rest : List Char) :
    ReadsAs (s.flatMap escape ++ '"' :: rest) s rest := by
  induction s with
  | nil => exact readsAs_end rest
  | cons c s ih =>
    rw [List.flatMap_cons, List.append_assoc]
    rcases escape_cases c with ⟨written, plain⟩ | ⟨d, written, short, other, _⟩ | ⟨written, control⟩
    · rw [written]
      exact readsAs_plain plain ih
    · rw [written]
      exact readsAs_escape (readEscape_short short other _) ih
    · rw [written]
      exact readsAs_escape (readEscape_control control _) ih

/-! ## Numbers -/

theorem spanDigits_append {digits rest : List Char} (all : ∀ c ∈ digits, c.isDigit = true)
    (ends : ∀ c ∈ rest.head?, c.isDigit = false) :
    spanDigits (digits ++ rest) = (digits, rest) := by
  induction digits with
  | nil =>
    cases rest with
    | nil => rfl
    | cons c rest =>
      rw [List.nil_append, spanDigits, ends c rfl]
      rfl
  | cons c digits ih =>
    rw [List.cons_append, spanDigits, all c List.mem_cons_self,
      ih fun d member => all d (List.mem_cons_of_mem c member)]
    rfl

/-- Only the numeral of zero starts with a zero. -/
theorem eq_zero_of_head?_numeral {n : Nat} (zero : (Decimal.numeral n).head? = some '0') :
    n = 0 := by
  induction n using Decimal.numeral.induct with
  | case1 n small =>
    rw [Decimal.numeral, if_pos small] at zero
    have all : ∀ k : Fin 10, Decimal.digitChar k.val = '0' → k.val = 0 := by decide
    exact all ⟨n, small⟩ (Option.some.inj zero)
  | case2 n large ih =>
    obtain ⟨d, digits, split⟩ := List.exists_cons_of_ne_nil (Decimal.numeral_ne_nil (n / 10))
    rw [Decimal.numeral, if_neg large, split] at zero
    have none := ih (by rw [split]; exact zero)
    omega

theorem readDigits_append {digits rest : List Char} (inhabited : digits ≠ [])
    (all : ∀ c ∈ digits, c.isDigit = true) (ends : ∀ c ∈ rest.head?, c.isDigit = false) :
    ∃ after : Shorter (digits ++ rest), readDigits (digits ++ rest) = .ok (digits, after) ∧
      after.val = rest := by
  have spanned := spanDigits_append all ends
  obtain ⟨d, others, rfl⟩ := List.exists_cons_of_ne_nil inhabited
  have shorter : rest.length < (d :: others ++ rest).length := by
    rw [List.length_append, List.length_cons]
    omega
  refine ⟨⟨rest, shorter⟩, ?_, rfl⟩
  rw [readDigits]
  split
  · rename_i stopped
    rw [spanned] at stopped
    cases stopped
  · rename_i stopped
    rw [spanned] at stopped
    cases stopped
  · rename_i found
    rw [spanned] at found
    cases found
    rfl

theorem readWhole_numeral (n : Nat) {rest : List Char}
    (ends : ∀ c ∈ rest.head?, c.isDigit = false) :
    ∃ after : Shorter (Decimal.numeral n ++ rest),
      readWhole (Decimal.numeral n ++ rest) = .ok (Decimal.numeral n, after) ∧
        after.val = rest := by
  obtain ⟨after, read, same⟩ := readDigits_append (Decimal.numeral_ne_nil n)
    Decimal.isDigit_of_mem_numeral ends
  refine ⟨after, ?_, same⟩
  have plain : ¬ ((Decimal.numeral n).head? = some '0' ∧ 1 < (Decimal.numeral n).length) := by
    intro given
    rcases given with ⟨zero, long⟩
    rw [eq_zero_of_head?_numeral zero, Decimal.numeral] at long
    exact absurd long (by decide)
  rw [readWhole, read]
  exact if_neg plain

/-- A rest of a text that does not go on with the number before it. -/
def EndsNumber (rest : List Char) : Prop :=
  ∀ c ∈ rest.head?, c.isDigit = false ∧ c ≠ '.' ∧ c ≠ 'e' ∧ c ≠ 'E'

theorem readPlaces_none {rest : List Char} (ends : EndsNumber rest) :
    ∃ after : NotLonger rest, readPlaces rest = .ok (none, after) ∧ after.val = rest := by
  cases rest with
  | nil => exact ⟨⟨[], by simp⟩, rfl, rfl⟩
  | cons c rest =>
    refine ⟨⟨c :: rest, by simp⟩, ?_, rfl⟩
    rw [readPlaces, if_neg (ends c rfl).2.1]

theorem readExponent_none {rest : List Char} (ends : EndsNumber rest) :
    ∃ after : NotLonger rest, readExponent rest = .ok (none, after) ∧ after.val = rest := by
  cases rest with
  | nil => exact ⟨⟨[], by simp⟩, rfl, rfl⟩
  | cons c rest =>
    refine ⟨⟨c :: rest, by simp⟩, ?_, rfl⟩
    obtain ⟨_, _, lower, upper⟩ := ends c rfl
    rw [readExponent, if_neg (by simp [lower, upper])]

theorem readUnsigned_numeral (negative : Bool) (n : Nat) {rest : List Char}
    (ends : EndsNumber rest) :
    ∃ after : Shorter (Decimal.numeral n ++ rest),
      readUnsigned negative (Decimal.numeral n ++ rest) =
        .ok (Number.ofIntLiteral negative (Decimal.numeral n), after) ∧ after.val = rest := by
  obtain ⟨after, readNumeral, same⟩ := readWhole_numeral n fun c first => (ends c first).1
  obtain ⟨behind, noPlaces, samePlaces⟩ := readPlaces_none (same.symm ▸ ends)
  obtain ⟨last, noExponent, sameExponent⟩ := readExponent_none (samePlaces.symm ▸ same.symm ▸ ends)
  have kept : last.val = rest := by rw [sameExponent, samePlaces, same]
  refine ⟨⟨last.val, ?_⟩, ?_, kept⟩
  · rw [kept]
    exact lt_of_eq_of_lt (congrArg List.length same.symm) after.property
  · rw [readUnsigned, readNumeral]
    dsimp only
    rw [noPlaces]
    dsimp only
    rw [noExponent]
    rfl

theorem ofIntLiteral_natAbs {i : Int} (word : IsWord i) :
    Number.ofIntLiteral (decide (i < 0)) (Decimal.numeral i.natAbs) = .ok (.int i word) := by
  have kept : IsWord i ∧ ¬ (decide (i < 0) = true ∧ i.natAbs = 0) := by
    refine ⟨word, ?_⟩
    rw [decide_eq_true_eq]
    omega
  simp only [Number.ofIntLiteral, Decimal.valueOf_numeral, Decimal.signed_natAbs, dif_pos kept]

/-- The numeral of an integer of a word reads as the integer. -/
theorem readNumber_intNumeral {i : Int} (word : IsWord i) {rest : List Char}
    (ends : EndsNumber rest) :
    ∃ after : Shorter (Decimal.intNumeral i ++ rest),
      readNumber (Decimal.intNumeral i ++ rest) = .ok (.ok (.int i word), after) ∧
        after.val = rest := by
  have meant := ofIntLiteral_natAbs word
  by_cases negative : i < 0
  · have written : Decimal.intNumeral i = '-' :: Decimal.numeral i.natAbs := if_pos negative
    obtain ⟨after, read, same⟩ := readUnsigned_numeral true i.natAbs ends
    rw [decide_eq_true negative] at meant
    rw [written, List.cons_append]
    refine ⟨after.widen (by simp), ?_, same⟩
    rw [readNumber, if_pos rfl, read, meant]
  · have written : Decimal.intNumeral i = Decimal.numeral i.natAbs := if_neg negative
    obtain ⟨after, read, same⟩ := readUnsigned_numeral false i.natAbs ends
    obtain ⟨d, digits, split, digit⟩ := Decimal.exists_cons_numeral i.natAbs
    rw [decide_eq_false negative] at meant
    rw [written]
    refine ⟨after, ?_, same⟩
    rw [← meant, ← read, split, List.cons_append, readNumber, if_neg (by rintro rfl; cases digit)]

end Json

end CallContract
