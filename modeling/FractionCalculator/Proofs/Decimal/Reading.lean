import FractionCalculator.Fraction.Parser
import FractionCalculator.Proofs.Spelling
import FractionCalculator.Proofs.Text

/-!
Which numbers of an expression are decimal literals: those with no more than one point.
-/

namespace FractionCalculator

structure IsNumber (characters : List Char) : Prop where
  begins : ∃ first ∈ characters.head?, first.isDigit = true
  goesOn : ∀ character ∈ characters, character.isDigit = true ∨ character = '.'

def fractionalDigits (characters : List Char) : Nat :=
  (characters.dropWhile fun character => character != '.').countP Char.isDigit

namespace IsNumber

theorem singleton {digit : Char} (isDigit : digit.isDigit = true) : IsNumber [digit] := by
  refine ⟨⟨digit, rfl, isDigit⟩, ?_⟩
  intro character member
  rw [List.mem_singleton.mp member]
  exact .inl isDigit

variable {characters : List Char}

theorem ne_nil (number : IsNumber characters) : characters ≠ [] := by
  obtain ⟨first, isFirst, _⟩ := number.begins
  rintro rfl
  simp at isFirst

theorem isDigit (number : IsNumber characters) {character : Char} (member : character ∈ characters)
    (noPoint : character ≠ '.') : character.isDigit = true :=
  (number.goesOn character member).resolve_right noPoint

theorem ne_of_mem (number : IsNumber characters) {character other : Char}
    (member : character ∈ characters) (noDigit : other.isDigit = false) (noPoint : other ≠ '.') :
    character ≠ other := by
  rintro rfl
  rw [number.isDigit member noPoint] at noDigit
  exact Bool.noConfusion noDigit

end IsNumber

theorem isNumber_of_spells {characters : List Char} {lexemes : List Lexeme}
    (spells : Spells characters lexemes) :
    ∀ digits, .number digits ∈ lexemes → IsNumber digits.toList := by
  induction spells with
  | nil => simp
  | blank _ _ ih => exact ih
  | operator _ _ ih | opening _ ih | closing _ ih => simpa using ih
  | @number first more rest lexemes digit goesOn _ _ ih =>
      intro digits member
      rcases List.mem_cons.mp member with here | later
      · rw [Lexeme.number.inj here, String.toList_ofList]
        refine ⟨⟨first, rfl, digit⟩, ?_⟩
        exact List.forall_mem_cons.mpr ⟨.inl digit, goesOn⟩
      · exact ih digits later

theorem lexemesIn_of_isNumber {characters rest : List Char} (number : IsNumber characters)
    (ends : ∀ next ∈ rest.head?, Lexeme.continuesNumber next = false) :
    lexemesIn (characters ++ rest) = .number (String.ofList characters) :: lexemesIn rest := by
  obtain ⟨first, isFirst, digit⟩ := number.begins
  obtain ⟨more, rfl⟩ := List.head?_eq_some_iff.mp isFirst
  have goesOn : ∀ character ∈ more, Lexeme.continuesNumber character = true := by
    intro character member
    rw [continuesNumber_iff]
    exact number.goesOn character (List.mem_cons_of_mem first member)
  exact lexemesIn_number digit goesOn ends

theorem fractionalDigits_append {before after : List Char} (plain : '.' ∉ before) :
    fractionalDigits (before ++ '.' :: after) = after.countP Char.isDigit := by
  have goesOn : ∀ character ∈ before, (character != '.') = true := by
    intro character member
    rw [bne_iff_ne]
    rintro rfl
    exact plain member
  rw [fractionalDigits, List.dropWhile_append_of_pos goesOn]
  rfl

namespace DecimalLiteral

theorem takeSign_of_isNumber {characters : List Char} (number : IsNumber characters) :
    takeSign characters = (false, characters) := by
  unfold takeSign
  split
  · exact absurd rfl (number.ne_of_mem List.mem_cons_self (by decide) (by decide))
  · exact absurd rfl (number.ne_of_mem List.mem_cons_self (by decide) (by decide))
  · rfl

theorem readDigits?_of_forall_isDigit {characters : List Char} (nonempty : characters ≠ [])
    (digits : ∀ character ∈ characters, character.isDigit = true) :
    readDigits? characters = some (Nat.ofDigitChars 10 characters 0) := by
  have all : characters.all Char.isDigit = true := List.all_eq_true.mpr digits
  simp [readDigits?, all, nonempty]

theorem readDigits?_of_not_isDigit {characters : List Char} {other : Char}
    (member : other ∈ characters) (noDigit : other.isDigit = false) :
    readDigits? characters = none := by
  have notAll : ¬characters.all Char.isDigit = true := by
    intro all
    rw [List.all_eq_true.mp all other member] at noDigit
    exact Bool.noConfusion noDigit
  simp [readDigits?, notAll]

theorem ofScaled?_natCast (mantissa : Int) {scale : Nat} (short : scale ≤ maximumScale) :
    ofScaled? mantissa scale = some ⟨mantissa, scale⟩ := by
  simp [ofScaled?, short]

theorem read?_of_isNumber {characters body whole : List Char} {negative : Bool}
    {places : Option (List Char)} (signed : takeSign characters = (negative, body))
    (number : IsNumber body)
    (cut : cutAt (fun character => character == '.') body = (whole, places)) :
    read? characters = (readDigits? (whole ++ places.getD [])).bind fun magnitude =>
      ofScaled? (DecimalLiteral.signed negative magnitude) (places.getD []).length := by
  have noExponent : ∀ character ∈ body, (character == 'e' || character == 'E') = false := by
    intro character member
    rw [Bool.or_eq_false_iff, beq_eq_false_iff_ne, beq_eq_false_iff_ne]
    exact ⟨number.ne_of_mem member (by decide) (by decide),
      number.ne_of_mem member (by decide) (by decide)⟩
  simp only [read?, signed, cutAt_of_forall_not noExponent, readExponent?, cut]
  cases readDigits? (whole ++ places.getD []) <;> rfl

/-- Of the digits and points of a number, at most one may be a point. -/
theorem read?_isSome_iff {characters body : List Char} {negative : Bool}
    (signed : takeSign characters = (negative, body)) (number : IsNumber body)
    (short : fractionalDigits body ≤ maximumScale) :
    (read? characters).isSome = true ↔ body.count '.' ≤ 1 := by
  rcases cutAt_cases (fun character => character == '.') body with
    plain | ⟨before, mark, after, rfl, plain, isPoint⟩
  · have noPoint : '.' ∉ body := fun member => Bool.noConfusion (plain '.' member)
    have digits : ∀ character ∈ body, character.isDigit = true := by
      intro character member
      exact number.isDigit member fun same => noPoint (same ▸ member)
    rw [read?_of_isNumber signed number (cutAt_of_forall_not plain), Option.getD_none,
      List.append_nil, readDigits?_of_forall_isDigit number.ne_nil digits, Option.bind_some,
      List.length_nil, ofScaled?_natCast _ (Nat.zero_le _), List.count_eq_zero.mpr noPoint]
    simp
  · obtain rfl : mark = '.' := by simpa using isPoint
    have noPoint : '.' ∉ before := fun member => Bool.noConfusion (plain '.' member)
    rw [read?_of_isNumber signed number (cutAt_append plain isPoint), Option.getD_some,
      List.count_append, List.count_eq_zero.mpr noPoint, List.count_cons_self]
    by_cases further : '.' ∈ after
    · have positive : 0 < after.count '.' := List.count_pos_iff.mpr further
      rw [readDigits?_of_not_isDigit (List.mem_append_right _ further) (by decide)]
      simp only [Option.bind_none, Option.isSome_none, Bool.false_eq_true, false_iff]
      omega
    · have early : ∀ character ∈ before, character.isDigit = true := by
        intro character member
        exact number.isDigit (List.mem_append_left _ member) fun same => noPoint (same ▸ member)
      have late : ∀ character ∈ after, character.isDigit = true := by
        intro character member
        exact number.isDigit (List.mem_append_right _ (List.mem_cons_of_mem _ member))
          fun same => further (same ▸ member)
      have nonempty : before ++ after ≠ [] := by
        intro empty
        obtain ⟨rfl, rfl⟩ := List.append_eq_nil_iff.mp empty
        obtain ⟨first, isFirst, digit⟩ := number.begins
        obtain rfl : '.' = first := by simpa using isFirst
        exact absurd digit (by decide)
      rw [fractionalDigits_append noPoint, List.countP_eq_length.mpr late] at short
      rw [readDigits?_of_forall_isDigit nonempty (List.forall_mem_append.mpr ⟨early, late⟩),
        Option.bind_some, ofScaled?_natCast _ short, List.count_eq_zero.mpr further]
      simp

end DecimalLiteral

namespace Fraction

theorem ofText_of_forall {text : String}
    (visible : ∀ character ∈ text.toList, isBlank character = false) (noBar : '/' ∉ text.toList) :
    ofText text = match DecimalLiteral.read? text.toList with
      | some literal => .ok (ofLiteral literal)
      | none => .error (.invalidFormat text) := by
  have plain : ∀ character ∈ text.toList, (character == '/') = false := by
    intro character member
    rw [beq_eq_false_iff_ne]
    rintro rfl
    exact noBar member
  cases read : DecimalLiteral.read? text.toList with
  | none =>
      simp only [ofText, withoutBlanks_of_forall_not visible, cutAt_of_forall_not plain, read,
        trimBlanks_of_forall_not visible]
  | some literal =>
      simp only [ofText, withoutBlanks_of_forall_not visible, cutAt_of_forall_not plain, read]

def IsSigned (digits text : String) : Prop := text = digits ∨ text = "-" ++ digits

theorem IsSigned.count_point {digits text : String} (signed : IsSigned digits text) :
    text.toList.count '.' = digits.toList.count '.' := by
  rcases signed with rfl | rfl
  · rfl
  · simp

theorem IsSigned.takeSign {digits text : String} (signed : IsSigned digits text)
    (number : IsNumber digits.toList) :
    ∃ negative, DecimalLiteral.takeSign text.toList = (negative, digits.toList) := by
  rcases signed with rfl | rfl
  · exact ⟨false, DecimalLiteral.takeSign_of_isNumber number⟩
  · exact ⟨true, by rw [String.toList_append]; rfl⟩

theorem IsSigned.mem {digits text : String} (signed : IsSigned digits text)
    (number : IsNumber digits.toList) : ∀ character ∈ text.toList,
      character = '-' ∨ character.isDigit = true ∨ character = '.' := by
  rcases signed with rfl | rfl
  · exact fun character member => .inr (number.goesOn character member)
  · intro character member
    rw [String.toList_append] at member
    rcases List.mem_cons.mp member with rfl | later
    · exact .inl rfl
    · exact .inr (number.goesOn character later)

theorem ofText_of_isSigned {digits text : String} (signed : IsSigned digits text)
    (number : IsNumber digits.toList)
    (short : fractionalDigits digits.toList ≤ DecimalLiteral.maximumScale) :
    ((∃ value, ofText text = .ok value) ↔ text.toList.count '.' ≤ 1) ∧
    ∀ error, ofText text = .error error → error = .invalidFormat text := by
  obtain ⟨negative, sign⟩ := signed.takeSign number
  have readable := DecimalLiteral.read?_isSome_iff sign number short
  have noBar : '/' ∉ text.toList := by
    intro member
    rcases signed.mem number '/' member with same | digit | same
    · exact absurd same (by decide)
    · exact absurd digit (by decide)
    · exact absurd same (by decide)
  have visible : ∀ character ∈ text.toList, isBlank character = false := by
    intro character member
    rcases signed.mem number character member with rfl | digit | rfl
    · decide
    · exact isBlank_eq_false_of_isDigit digit
    · decide
  rw [ofText_of_forall visible noBar, signed.count_point, ← readable]
  cases DecimalLiteral.read? text.toList with
  | some literal => exact ⟨by simp, by simp⟩
  | none =>
      refine ⟨by simp, ?_⟩
      intro error failed
      simpa using failed.symm

end Fraction

end FractionCalculator
